import KafkaEdgeRouter.ConcurrentSafety
import KafkaEdgeRouter.RouterAccesses

/-!
# The chronicle of calls

What the history of the router tells about calls and queues, in any interleaving: the events of a
call end with its return, and every queue has the capacity of its registration and never holds more.
Each access of a call is looked at on its own; nothing is assumed about the others but that they
record their own events only.
-/

namespace KafkaEdgeRouter.Router

open History

/-- A call that has returned leaves no further event. -/
def Unreturned (before : List Event) (e : Event) : Prop :=
  ∀ response, .returned e.call response ∉ before

/-- The capacity is the one that the registration of the connection asked for. -/
def AsRegistered (config : RouterConfig) (h : List Event) (c : ConnectionId) (capacity : ℕ) :
    Prop :=
  ∃ call tenantId protocol queueCapacity,
    .began call (.register tenantId protocol queueCapacity) ∈ h ∧
    .registered call c tenantId ∈ h ∧
    capacity = queueCapacity.getD config.defaultQueueCapacity

structure Chronicle (config : RouterConfig) (s : Shared) : Prop where
  unreturned : Justified Unreturned s.history
  queues : ∀ c channel, s.channels.lookup c = some channel →
    channel.queue.length ≤ channel.capacity ∧ AsRegistered config s.history c channel.capacity

/-- The thread only adds events of its own. -/
def Records (t : ℕ) (s s' : Shared) : Prop :=
  ∃ events, s'.history = s.history ++ events ∧ ∀ e ∈ events, e.call.thread = t

def chronicle (config : RouterConfig) : Protocol Shared where
  inv := Chronicle config
  guar := Records
  fresh t s := ∀ e ∈ s.history, e.call.thread ≠ t

structure Running (call : CallId) (request : Request) (s : Shared) : Prop where
  began : .began call request ∈ s.history
  unreturned : ∀ response, .returned call response ∉ s.history

/-- The event belongs to the call and is not its return. -/
def Within (call : CallId) (e : Event) : Prop :=
  e.call = call ∧ ∀ response, e ≠ .returned call response

/-- What one access of a running call may do to history and queues. -/
structure Progresses (config : RouterConfig) (call : CallId) (request : Request) (s s' : Shared) :
    Prop where
  history : ∃ events, s'.history = s.history ++ events ∧ ∀ e ∈ events, Within call e
  queues : ∀ c channel', s'.channels.lookup c = some channel' →
    (∃ channel, s.channels.lookup c = some channel ∧ channel'.capacity = channel.capacity ∧
      (channel.queue.length ≤ channel.capacity → channel'.queue.length ≤ channel.capacity)) ∨
    ∃ tenantId protocol queueCapacity, request = .register tenantId protocol queueCapacity ∧
      .registered call c tenantId ∈ s'.history ∧
      channel' = Channel.new (queueCapacity.getD config.defaultQueueCapacity)

section Running

variable {config : RouterConfig} {call : CallId} {request : Request} {s s' : Shared}

theorem AsRegistered.append {h : List Event} {c : ConnectionId} {capacity : ℕ}
    (hc : AsRegistered config h c capacity) (events : List Event) :
    AsRegistered config (h ++ events) c capacity := by
  obtain ⟨caller, tenantId, protocol, queueCapacity, hbegan, hregistered, heq⟩ := hc
  exact ⟨caller, tenantId, protocol, queueCapacity, List.mem_append_left _ hbegan,
    List.mem_append_left _ hregistered, heq⟩

theorem unreturned_append {h events : List Event} (hj : Justified Unreturned h)
    (hopen : ∀ response, .returned call response ∉ h) (hevents : ∀ e ∈ events, Within call e) :
    Justified Unreturned (h ++ events) ∧ ∀ response, .returned call response ∉ h ++ events := by
  induction events generalizing h with
  | nil =>
    rw [List.append_nil]
    exact ⟨hj, hopen⟩
  | cons e events ih =>
    obtain ⟨hcall, hne⟩ := hevents e (List.mem_cons_self ..)
    rw [List.append_cons]
    refine ih (justified_concat.mpr ⟨hj, fun response => hcall ▸ hopen response⟩) ?_
      (fun e' he' => hevents e' (List.mem_cons_of_mem _ he'))
    intro response hmem
    rcases List.mem_append.mp hmem with hmem | hmem
    · exact hopen response hmem
    · exact hne response (List.mem_singleton.mp hmem).symm

/-- An access of a running call keeps the chronicle, and the call goes on. -/
theorem Progresses.keeps (h : Progresses config call request s s') (hs : Chronicle config s)
    (hr : Running call request s) :
    Chronicle config s' ∧ Records call.thread s s' ∧ Running call request s' := by
  obtain ⟨events, heq, hevents⟩ := h.history
  obtain ⟨hj, hopen⟩ := unreturned_append hs.unreturned hr.unreturned hevents
  rw [← heq] at hj hopen
  have hbegan : .began call request ∈ s'.history := by
    rw [heq]
    exact List.mem_append_left _ hr.began
  refine ⟨⟨hj, fun c channel' hl => ?_⟩,
    ⟨events, heq, fun e he => by rw [(hevents e he).1]⟩, hbegan, hopen⟩
  rcases h.queues c channel' hl with
    ⟨channel, hl', hcapacity, hqueue⟩ | ⟨tenantId, protocol, queueCapacity, rfl, hmem, rfl⟩
  · obtain ⟨hlength, hregistered⟩ := hs.queues c channel hl'
    rw [hcapacity, heq]
    exact ⟨hqueue hlength, hregistered.append events⟩
  · exact ⟨Nat.zero_le _, call, tenantId, protocol, queueCapacity, hbegan, hmem, rfl⟩

theorem progresses_log {events : List Event} (hh : s'.history = s.history ++ events)
    (hevents : ∀ e ∈ events, Within call e) (hc : s'.channels = s.channels) :
    Progresses config call request s s' :=
  ⟨⟨events, hh, hevents⟩, fun c channel hl => Or.inl ⟨channel, by rwa [← hc], rfl, id⟩⟩

theorem progresses_eq (hh : s'.history = s.history) (hc : s'.channels = s.channels) :
    Progresses config call request s s' :=
  ⟨⟨[], by rw [hh, List.append_nil], by simp⟩, fun c channel hl =>
    Or.inl ⟨channel, by rwa [← hc], rfl, id⟩⟩

theorem progresses_modify {events : List Event} {c : ConnectionId}
    {f : Channel Delivery → Channel Delivery} (hh : s'.history = s.history ++ events)
    (hevents : ∀ e ∈ events, Within call e) (hc : s'.channels = s.channels.modify c f)
    (hf : ∀ channel, s.channels.lookup c = some channel →
      (f channel).capacity = channel.capacity ∧
      (channel.queue.length ≤ channel.capacity → (f channel).queue.length ≤ channel.capacity)) :
    Progresses config call request s s' := by
  refine ⟨⟨events, hh, hevents⟩, fun c' channel' hl => Or.inl ?_⟩
  rw [hc, AList.lookup_modify] at hl
  obtain ⟨channel, hl', rfl⟩ := Option.map_eq_some_iff.mp hl
  refine ⟨channel, hl', ?_⟩
  split_ifs with hcc
  · exact hf channel (hcc ▸ hl')
  · exact ⟨rfl, id⟩

end Running

section Accesses

variable {config : RouterConfig} {call : CallId} {request : Request}

theorem trySend_bounded (delivery : Delivery) (channel : Channel Delivery) :
    (channel.trySend delivery).2.capacity = channel.capacity ∧
      (channel.queue.length ≤ channel.capacity →
        (channel.trySend delivery).2.queue.length ≤ channel.capacity) := by
  unfold Channel.trySend
  split_ifs with hclosed hroom
  · exact ⟨rfl, id⟩
  · refine ⟨rfl, fun _ => ?_⟩
    rw [List.length_append]
    exact hroom
  · exact ⟨rfl, id⟩

theorem recv_bounded {channel channel' : Channel Delivery} {delivery : Delivery}
    (h : channel.recv = some (delivery, channel')) :
    channel'.capacity = channel.capacity ∧
      (channel.queue.length ≤ channel.capacity → channel'.queue.length ≤ channel.capacity) := by
  unfold Channel.recv at h
  split at h
  · cases h
  · rename_i hqueue
    obtain ⟨rfl, rfl⟩ := Prod.mk.inj (Option.some.inj h)
    refine ⟨rfl, fun hlength => ?_⟩
    rw [hqueue, List.length_cons] at hlength
    exact Nat.le_of_succ_le hlength

theorem progresses_offer (last : Bool) (message : Option RoutedMessage) (c : ConnectionId)
    (ids : List SubscriptionId) (s : Shared) :
    Progresses config call request s (offer config call last message c ids s).2 := by
  unfold offer
  cases s.connections.lookup c with
  | none => exact progresses_eq rfl rfl
  | some connection =>
    cases message with
    | none => exact progresses_log rfl (by simp [Within, Event.call]) rfl
    | some message =>
      exact progresses_modify rfl (by simp [Within, Event.call]) rfl
        (fun channel _ => trySend_bounded ⟨message, ids⟩ channel)

theorem insertSubscription_frame (config : RouterConfig) (c : ConnectionId)
    (sid : SubscriptionId) (filter : RouteFilter) (s : Shared) :
      (insertSubscription config c sid filter s).2.history = s.history ∧
      (insertSubscription config c sid filter s).2.channels = s.channels := by
  unfold insertSubscription
  split
  · exact ⟨rfl, rfl⟩
  · split_ifs <;> exact ⟨rfl, rfl⟩

theorem progresses_of_access {s s' : Shared} (h : Access config call request s s') :
    Progresses config call request s s' := by
  cases h with
  | read => exact progresses_eq rfl rfl
  | meter => exact progresses_eq rfl rfl
  | lock => exact progresses_eq rfl rfl
  | unlock => exact progresses_log rfl (by simp) rfl
  | @insertConnection tenantId protocol queueCapacity id _ hid =>
    refine ⟨⟨_, rfl, by simp [Within, Event.call]⟩, fun c channel hl => ?_⟩
    by_cases hc : c = id
    · subst c
      rw [insertConnection, Shared.log, AList.lookup_insert] at hl
      exact Or.inr ⟨tenantId, protocol, queueCapacity, rfl,
        List.mem_append_right _ (List.mem_singleton.mpr rfl), (Option.some.inj hl).symm⟩
    · rw [insertConnection, Shared.log, AList.lookup_insert_ne hc] at hl
      exact Or.inl ⟨channel, hl, rfl, fun hlength => hlength⟩
  | insertSubscription c sid filter _ =>
    obtain ⟨hh, hc⟩ := insertSubscription_frame config c sid filter s
    exact progresses_eq hh hc
  | pushRoute => exact progresses_log rfl (by simp [Within, Event.call]) rfl
  | takeSubscription c sid _ =>
    rcases takeSubscription_cases c sid s with ⟨e, heq⟩ | ⟨r, filter, _, _, heq⟩
    · rw [heq]
      exact progresses_eq rfl rfl
    · rw [heq]
      exact progresses_eq rfl rfl
  | unsubscribed => exact progresses_log rfl (by simp [Within, Event.call]) rfl
  | @takeConnection _ c _ hc =>
    rcases takeConnection_cases c s with ⟨_, heq⟩ | ⟨r, _, heq⟩
    · rw [heq]
      exact progresses_eq rfl rfl
    · rw [heq]
      exact progresses_eq rfl rfl
  | unregistered => exact progresses_log rfl (by simp [Within, Event.call]) rfl
  | discard => exact progresses_eq rfl rfl
  | prune => exact progresses_eq rfl rfl
  | offer last c ids _ _ => exact progresses_offer last _ c ids s
  | @receive c _ delivery channel hrecv =>
    refine progresses_modify (f := fun _ => channel) (List.append_nil _).symm (by simp) rfl
      (fun channel' hl => ?_)
    rw [hl] at hrecv
    exact recv_bounded hrecv
  | close c _ =>
    exact progresses_modify (f := Channel.close) (List.append_nil _).symm (by simp) rfl
      (fun _ _ => ⟨rfl, id⟩)

end Accesses

section Calls

variable {config : RouterConfig} {call : CallId} {request : Request} {order : HashOrder}
  {s : Shared}

theorem Records.mem {t : ℕ} {s s' : Shared} (h : Records t s s') {e : Event}
    (he : e ∈ s'.history) : e ∈ s.history ∨ e.call.thread = t := by
  obtain ⟨events, heq, hevents⟩ := h
  rw [heq] at he
  exact (List.mem_append.mp he).imp_right (hevents e)

theorem stable_unused (t : ℕ) :
    ((chronicle config).contract t).Stable ((chronicle config).fresh t) := by
  rintro s s' _ _ ⟨u, hu, hrecords⟩ hs e he
  rcases hrecords.mem he with he | he
  · exact hs e he
  · rw [he]
    exact hu

theorem stable_running : ((chronicle config).contract call.thread).Stable
    (Running call request) := by
  rintro s s' _ _ ⟨u, hu, hrecords⟩ hs
  refine ⟨?_, fun response hmem => ?_⟩
  · obtain ⟨events, heq, _⟩ := hrecords
    rw [heq]
    exact List.mem_append_left _ hs.began
  · rcases hrecords.mem hmem with hmem | hmem
    · exact hs.unreturned response hmem
    · exact hu hmem.symm

theorem Chronicle.log (hs : Chronicle config s) {e : Event} (he : Unreturned s.history e) :
    Chronicle config (s.log [e]) :=
  ⟨justified_concat.mpr ⟨hs.unreturned, he⟩, fun c channel hl =>
    ⟨(hs.queues c channel hl).1, (hs.queues c channel hl).2.append [e]⟩⟩

theorem sat_serve_chronicle (hs : ∀ e ∈ s.history, e.call.thread ≠ call.thread) :
    (serve config call order request).Sat ((chronicle config).contract call.thread)
      (fun _ _ => True) s := by
  refine Prog.sat_access (stable_unused call.thread) hs (fun s₁ hinv₁ hs₁ => ?_)
  have hnew : ∀ response, .returned call response ∉ s₁.history :=
    fun response hmem => hs₁ _ hmem rfl
  have hinv₂ : Chronicle config (s₁.log [.began call request]) := hinv₁.log hnew
  have hrunning : Running call request (s₁.log [.began call request]) :=
    ⟨List.mem_append_right _ (List.mem_singleton.mpr rfl), by simpa [Shared.log] using hnew⟩
  refine ⟨hinv₂, ⟨_, rfl, by simp [Event.call]⟩, ?_⟩
  refine Prog.sat_bind hinv₂ (Prog.sat_mono (Prog.sat_of_always stable_running
    (Prog.always_mono (accesses_perform order request) fun _ _ h =>
      (progresses_of_access h).keeps) hrunning) ?_)
  intro response s₃ _ hs₃
  refine Prog.sat_access stable_running hs₃ (fun s₄ hinv₄ hs₄ => ?_)
  exact ⟨hinv₄.log hs₄.unreturned, ⟨_, rfl, by simp [Event.call]⟩, fun _ _ _ => trivial⟩

end Calls

theorem chronicle_new (config : RouterConfig) : Chronicle config Shared.new :=
  ⟨justified_nil _, by simp [Shared.new]⟩

theorem Reachable.chronicle {config : RouterConfig} {s : Shared} (h : Reachable config s) :
    Chronicle config s := by
  obtain ⟨P, hP, rfl⟩ := h
  have hstart : (Router.chronicle config).Holds id (fun _ (_ : Response) _ => True) Calls.start :=
    ⟨chronicle_new config, by simp [Calls.start], fun t _ => by
      simp [Router.chronicle, Calls.start, Shared.new]⟩
  have hcode : ∀ t (task : HashOrder × Request) s, Chronicle config s →
      (Router.chronicle config).fresh t s → (thread config t task).Sat
        ((Router.chronicle config).contract t) (fun _ _ => True) s := by
    intro t task s _ hs
    have hs' : ∀ e ∈ s.history, e.call.thread ≠ (⟨t, 0⟩ : CallId).thread := hs
    exact sat_serve_chronicle hs'
  exact (Protocol.holds_run Function.injective_id stable_unused hcode hstart hP).inv

end KafkaEdgeRouter.Router
