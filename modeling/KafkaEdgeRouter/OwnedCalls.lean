import KafkaEdgeRouter.ConnectionOwners

/-!
# What a thread knows of its own connection

A thread that owns one connection can tell at any moment which subscriptions the connection has if
it is still there, and what its receiver has taken. Other threads feed the queue or cut the
connection off, and neither touches this knowledge; the thread's own calls change it as their
answers say.
-/

namespace KafkaEdgeRouter.Router

/-- The others feed connections of the thread or cut them off, and record their own events. -/
def tended (t : ℕ) : Contract Shared where
  inv _ := True
  interference s s' := (∀ c, Owns t c s → OnlyCut c s s' ∧ OnlyFed c s s') ∧
    ∃ events, s'.history = s.history ++ events ∧ ∀ e ∈ events, e.call.thread ≠ t
  guarantee _ _ := True

def Landless (t : ℕ) (s : Shared) : Prop := ∀ c, ¬ Owns t c s

/-- The thread owns this connection and no other; while it is registered it has the subscriptions
`m`, and its receiver has taken the deliveries `l`. -/
structure Tenure (t : ℕ) (c : ConnectionId) (tenantId : String) (m : Subscriptions)
    (l : List Delivery) (closed : Bool) (s : Shared) : Prop where
  registered : ∃ serial, .registered ⟨t, serial⟩ c tenantId ∈ s.history
  only : ∀ c', Owns t c' s → c' = c
  held : ∀ connection, s.connections.lookup c = some connection → connection.subscriptions = m
  channel : ∃ channel, s.channels.lookup c = some channel ∧ channel.received = l ∧
    channel.closed = closed

/-- The thread owns at most connections that are out of the router. -/
def Retired (t : ℕ) (s : Shared) : Prop := ∀ c, Owns t c s → c ∉ s.connections

/-- Everything but connections, queues and registrations may have changed. -/
structure Beside (s s' : Shared) : Prop where
  connections : s'.connections = s.connections
  channels : s'.channels = s.channels
  history : ∃ events, s'.history = s.history ++ events ∧
    ∀ e ∈ events, ∀ registrar c tenantId, e ≠ .registered registrar c tenantId

/-- The assertion survives the others and everything that happens beside it. -/
structure Lasting (t : ℕ) (P : Shared → Prop) : Prop where
  stable : (tended t).Stable P
  beside : ∀ s s', Beside s s' → P s → P s'

section Lasting

variable {t : ℕ} {c : ConnectionId} {tenantId : String} {m : Subscriptions} {l : List Delivery}
  {closed : Bool} {s s' : Shared}

theorem Tenure.owns (h : Tenure t c tenantId m l closed s) : Owns t c s := by
  obtain ⟨serial, hmem⟩ := h.registered
  exact ⟨serial, tenantId, hmem⟩

theorem owns_append {events : List Event} (hh : s'.history = s.history ++ events)
    (hevents : ∀ e ∈ events, ∀ serial c tenantId, e ≠ .registered ⟨t, serial⟩ c tenantId) :
    Owns t c s' ↔ Owns t c s := by
  refine ⟨?_, fun h => h.mono hh⟩
  rintro ⟨serial, tenantId, hmem⟩
  rw [hh] at hmem
  rcases List.mem_append.mp hmem with hmem | hmem
  · exact ⟨serial, tenantId, hmem⟩
  · exact absurd rfl (hevents _ hmem serial c tenantId)

/-- The thread registers nothing while the connection is at most fed or cut off. -/
theorem Tenure.step (h : Tenure t c tenantId m l closed s) {events : List Event}
    (hh : s'.history = s.history ++ events)
    (hevents : ∀ e ∈ events, ∀ serial c tenantId, e ≠ .registered ⟨t, serial⟩ c tenantId)
    (hcut : OnlyCut c s s') (hfed : OnlyFed c s s') : Tenure t c tenantId m l closed s' := by
  obtain ⟨serial, hmem⟩ := h.registered
  refine ⟨⟨serial, hh ▸ List.mem_append_left _ hmem⟩,
    fun c' hc' => h.only c' ((owns_append hh hevents).mp hc'), fun connection' hl' => ?_, ?_⟩
  · obtain ⟨connection, hl, heq⟩ := hcut connection' hl'
    rw [congrArg Registration.subscriptions heq]
    exact h.held connection hl
  · obtain ⟨channel, hl, hreceived, hclosed⟩ := h.channel
    obtain ⟨channel', hl', hreceived', hclosed'⟩ := hfed.channel channel hl
    exact ⟨channel', hl', hreceived'.trans hreceived, hclosed'.trans hclosed⟩

theorem ne_registered_of_thread {e : Event} (h : e.call.thread ≠ t) (serial : ℕ)
    (c : ConnectionId) (tenantId : String) : e ≠ .registered ⟨t, serial⟩ c tenantId := by
  rintro rfl
  exact h rfl

theorem lasting_tenure : Lasting t (Tenure t c tenantId m l closed) := by
  constructor
  · rintro s s' _ _ ⟨hkept, events, hh, hthread⟩ h
    exact h.step hh (fun e he => ne_registered_of_thread (hthread e he)) (hkept c h.owns).1
      (hkept c h.owns).2
  · rintro s s' ⟨hconn, hch, events, hh, hevents⟩ h
    exact h.step hh (fun e he serial => hevents e he ⟨t, serial⟩) (.of_eq (by rw [hconn]))
      (.of_eq (by rw [hch]))

theorem lasting_landless : Lasting t (Landless t) := by
  constructor
  · rintro s s' _ _ ⟨_, events, hh, hthread⟩ h c hc
    exact h c ((owns_append hh (fun e he => ne_registered_of_thread (hthread e he))).mp hc)
  · rintro s s' ⟨_, _, events, hh, hevents⟩ h c hc
    exact h c ((owns_append hh (fun e he serial => hevents e he ⟨t, serial⟩)).mp hc)

theorem lasting_retired : Lasting t (Retired t) := by
  constructor
  · rintro s s' _ _ ⟨hkept, events, hh, hthread⟩ h c hc
    have hc' : Owns t c s :=
      (owns_append hh (fun e he => ne_registered_of_thread (hthread e he))).mp hc
    exact (hkept c hc').1.gone (h c hc')
  · rintro s s' ⟨hconn, _, events, hh, hevents⟩ h c hc
    rw [hconn]
    exact h c ((owns_append hh (fun e he serial => hevents e he ⟨t, serial⟩)).mp hc)

theorem Lasting.and {P P' : Shared → Prop} (hP : Lasting t P) (hP' : Lasting t P') :
    Lasting t (fun s => P s ∧ P' s) :=
  ⟨hP.stable.and hP'.stable, fun s s' hb h => ⟨hP.beside s s' hb h.1, hP'.beside s s' hb h.2⟩⟩

theorem Landless.retired (h : Landless t s) : Retired t s := fun c hc => absurd hc (h c)

theorem Tenure.retired (h : Tenure t c tenantId m l closed s) (hc : c ∉ s.connections) :
    Retired t s := by
  intro c' hc'
  rw [h.only c' hc']
  exact hc

end Lasting

/-! ### Rules -/

section Rules

variable {t : ℕ} {α β : Type} {P : Shared → Prop} {Q : α → Shared → Prop} {s : Shared}

theorem tended_ret {a : α} (hQ : Lasting t (Q a)) (h : Q a s) :
    (Prog.ret a : RouterProg α).Sat (tended t) Q s :=
  Prog.sat_ret hQ.stable h

theorem tended_await {e : ConnectionId → Shared → Bool} {f : ConnectionId → Shared → β × Shared}
    {k : β → RouterProg α} (hP : Lasting t P) (hs : P s)
    (h : ∀ i s', P s' → e i s' = true → (k (f i s').1).Sat (tended t) Q (f i s').2) :
    (Prog.await e f >>= k).Sat (tended t) Q s :=
  Prog.sat_await hP.stable hs (fun i s' _ hs' he => ⟨trivial, trivial, h i s' hs' he⟩)

theorem tended_beside {f : Shared → β × Shared} {k : β → RouterProg α} (hP : Lasting t P)
    (hs : P s) (hf : ∀ s', Beside s' (f s').2)
    (h : ∀ b s', P s' → (k b).Sat (tended t) Q s') :
    (Prog.access f >>= k : RouterProg α).Sat (tended t) Q s :=
  tended_await hP hs (fun _ s' hs' _ => h _ _ (hP.beside s' _ (hf s') hs'))

theorem beside_of_eq {s s' : Shared} (hconn : s'.connections = s.connections)
    (hch : s'.channels = s.channels) (hh : s'.history = s.history) : Beside s s' :=
  ⟨hconn, hch, [], by rw [hh, List.append_nil], by simp⟩

theorem beside_log {e : Event} (he : ∀ registrar c tenantId, e ≠ .registered registrar c tenantId)
    (s : Shared) : Beside s (s.log [e]) :=
  ⟨rfl, rfl, [e], rfl, by simpa using he⟩

theorem tended_withMutationLock {call : CallId} {body : RouterProg α} {events : α → List Event}
    (hP : Lasting t P) (hQ : ∀ a, Lasting t (Q a))
    (hevents : ∀ a, ∀ e ∈ events a, ∀ registrar c tenantId, e ≠ .registered registrar c tenantId)
    (hs : P s) (hbody : ∀ s', P s' → body.Sat (tended t) Q s') :
    (withMutationLock call body events).Sat (tended t) Q s := by
  refine tended_await hP hs (fun _ s₁ hs₁ _ => ?_)
  refine Prog.sat_bind trivial (Prog.sat_mono (hbody _ ?_) (fun a s₂ _ hs₂ => ?_))
  · exact hP.beside s₁ _ (beside_of_eq rfl rfl rfl) hs₁
  · exact tended_beside (hQ a) hs₂ (fun s₃ => ⟨rfl, rfl, events a, rfl, hevents a⟩)
      (fun _ s₃ hs₃ => tended_ret (hQ a) hs₃)

theorem tended_serve {config : RouterConfig} {call : CallId} {order : HashOrder}
    {request : Request} {Q : Response → Shared → Prop} (hP : Lasting t P)
    (hQ : ∀ response, Lasting t (Q response)) (hs : P s)
    (h : ∀ s', P s' → (perform config call order request).Sat (tended t) Q s') :
    (serve config call order request).Sat (tended t) Q s := by
  refine tended_beside hP hs (beside_log (by simp)) (fun _ s₁ hs₁ => ?_)
  refine Prog.sat_bind trivial (Prog.sat_mono (h s₁ hs₁) (fun response s₂ _ hs₂ => ?_))
  exact tended_beside (hQ response) hs₂ (beside_log (by simp))
    (fun _ s₃ hs₃ => tended_ret (hQ response) hs₃)

end Rules

/-! ### The calls -/

section Calls

variable {config : RouterConfig} {t n : ℕ} {order : HashOrder} {c : ConnectionId}
  {tenantId : String} {m : Subscriptions} {l : List Delivery} {closed : Bool} {s : Shared}

def RegisterPost (t : ℕ) (tenantId : String) : Response → Shared → Prop
  | .registered (.ok c) => Tenure t c tenantId ∅ [] false
  | _ => Landless t

theorem lasting_registerPost (response : Response) :
    Lasting t (RegisterPost t tenantId response) := by
  unfold RegisterPost
  split
  · exact lasting_tenure
  · exact lasting_landless

theorem tenure_insertConnection {protocol : DeliveryProtocol} {capacity : ℕ} {id : ConnectionId}
    (hs : Landless t s) : Tenure t id tenantId ∅ [] false
      (insertConnection ⟨t, n⟩ tenantId protocol capacity id s) := by
  refine ⟨⟨n, List.mem_append_right _ (List.mem_singleton.mpr rfl)⟩, ?_, fun connection hl => ?_,
    Channel.new capacity, AList.lookup_insert _, rfl, rfl⟩
  · rintro c' ⟨serial, tenant, hmem⟩
    rcases List.mem_append.mp hmem with hmem | hmem
    · exact absurd ⟨serial, tenant, hmem⟩ (hs c')
    · cases List.mem_singleton.mp hmem
      rfl
  · have hl' : (s.connections.insert id ⟨⟨tenantId, protocol, ∅⟩, 0⟩).lookup id =
        some connection := hl
    rw [AList.lookup_insert] at hl'
    rw [← Option.some.inj hl']

/-- A registration gives the thread its connection, or leaves it without one. -/
theorem tended_register {protocol : DeliveryProtocol} {queueCapacity : Option ℕ}
    (hs : Landless t s) :
    (serve config ⟨t, n⟩ order (.register tenantId protocol queueCapacity)).Sat (tended t)
      (RegisterPost t tenantId) s := by
  refine tended_serve lasting_landless lasting_registerPost hs (fun s₁ hs₁ => ?_)
  have hpost : ∀ result : Except CoreError ConnectionId,
      Lasting t (RegisterPost t tenantId (.registered result)) :=
    fun result => lasting_registerPost _
  refine Prog.sat_bind trivial (Prog.sat_mono (Q := fun result =>
    RegisterPost t tenantId (.registered result)) ?_
    (fun result s₂ _ hs₂ => tended_ret (hpost result) hs₂))
  unfold registerConnection
  split
  · exact tended_ret (hpost _) hs₁
  dsimp only
  split_ifs
  · exact tended_ret (hpost _) hs₁
  refine tended_withMutationLock lasting_landless hpost (by simp) hs₁ (fun s₂ hs₂ => ?_)
  refine tended_beside lasting_landless hs₂ (fun _ => beside_of_eq rfl rfl rfl) (fun _ s₃ hs₃ => ?_)
  refine tended_beside lasting_landless hs₃ (fun _ => beside_of_eq rfl rfl rfl) (fun _ s₄ hs₄ => ?_)
  split_ifs
  · exact tended_beside lasting_landless hs₄ (fun _ => beside_of_eq rfl rfl rfl)
      (fun _ s₅ hs₅ => tended_ret (hpost _) hs₅)
  · refine tended_await lasting_landless hs₄ (fun id s₅ hs₅ _ => ?_)
    exact tended_beside lasting_tenure (tenure_insertConnection hs₅)
      (fun _ => beside_of_eq rfl rfl rfl) (fun _ s₆ hs₆ => tended_ret (hpost (.ok id)) hs₆)

/-- The answer to a change of the subscriptions says which of the two maps the connection has. -/
def SettledPost (t : ℕ) (c : ConnectionId) (tenantId : String) (m m' : Subscriptions)
    (l : List Delivery) (closed : Bool) : Response → Shared → Prop
  | .settled (.ok ()) => Tenure t c tenantId m' l closed
  | _ => Tenure t c tenantId m l closed

theorem lasting_settledPost (m m' : Subscriptions) (response : Response) :
    Lasting t (SettledPost t c tenantId m m' l closed response) := by
  unfold SettledPost
  split <;> exact lasting_tenure

theorem Tenure.modify (h : Tenure t c tenantId m l closed s) (f : Subscriptions → Subscriptions) :
    Tenure t c tenantId (f m) l closed { s with
      connections := s.connections.modify c (fun connection =>
        { connection with subscriptions := f connection.subscriptions }) } := by
  refine ⟨h.registered, h.only, fun connection' hl' => ?_, h.channel⟩
  obtain ⟨connection, hl, rfl⟩ :=
    Option.map_eq_some_iff.mp ((AList.lookup_modify_self ..).symm.trans hl')
  exact congrArg f (h.held connection hl)

/-- The access that inserts a subscription, and what its answer says. -/
theorem Tenure.insertSubscription (h : Tenure t c tenantId m l closed s) (config : RouterConfig)
    (sid : SubscriptionId) (filter : RouteFilter) :
    (∃ e, insertSubscription config c sid filter s = (.error e, s)) ∨
    ∃ protocol, (insertSubscription config c sid filter s).1 = .ok protocol ∧
      Tenure t c tenantId (m.insert sid filter) l closed
        (insertSubscription config c sid filter s).2 := by
  cases hl : s.connections.lookup c with
  | none => exact Or.inl ⟨.connectionNotFound, by simp only [Router.insertSubscription, hl]⟩
  | some connection =>
    have hr : s.registry.connections.lookup c = some connection.toRegistration := by
      rw [registry_lookup, hl]
      rfl
    rcases insertSubscription_cases config sid filter hr with
      ⟨_, heq⟩ | ⟨_, heq⟩ | ⟨_, heq⟩ | ⟨_, _, _, heq⟩
    · exact Or.inl ⟨_, heq⟩
    · exact Or.inl ⟨_, heq⟩
    · exact Or.inl ⟨_, heq⟩
    · refine Or.inr ⟨connection.protocol, by rw [heq], ?_⟩
      rw [heq]
      exact h.modify (fun m => m.insert sid filter)

theorem tended_subscribe (hs : Tenure t c tenantId m l closed s) (sid : SubscriptionId)
    (filter : RouteFilter) :
    (serve config ⟨t, n⟩ order (.subscribe c sid filter)).Sat (tended t)
      (SettledPost t c tenantId m (m.insert sid filter) l closed) s := by
  refine tended_serve lasting_tenure (lasting_settledPost _ _) hs (fun s₁ hs₁ => ?_)
  have hpost : ∀ result : Except CoreError Unit,
      Lasting t (SettledPost t c tenantId m (m.insert sid filter) l closed (.settled result)) :=
    fun result => lasting_settledPost _ _ _
  refine Prog.sat_bind trivial (Prog.sat_mono (Q := fun result =>
    SettledPost t c tenantId m (m.insert sid filter) l closed (.settled result)) ?_
    (fun result s₂ _ hs₂ => tended_ret (hpost result) hs₂))
  unfold subscribe
  split
  · exact tended_ret (hpost _) hs₁
  refine tended_withMutationLock lasting_tenure hpost (by simp) hs₁ (fun s₂ hs₂ => ?_)
  refine tended_beside lasting_tenure hs₂ (fun _ => beside_of_eq rfl rfl rfl)
    (fun tenant s₃ hs₃ => ?_)
  cases tenant with
  | none => exact tended_ret (hpost _) hs₃
  | some tenant =>
    refine tended_beside lasting_tenure hs₃ (fun _ => beside_of_eq rfl rfl rfl) (fun _ s₄ hs₄ => ?_)
    refine tended_beside lasting_tenure hs₄ (fun _ => beside_of_eq rfl rfl rfl) (fun _ s₅ hs₅ => ?_)
    split_ifs
    · exact tended_beside lasting_tenure hs₅ (fun _ => beside_of_eq rfl rfl rfl)
        (fun _ s₆ hs₆ => tended_ret (hpost _) hs₆)
    refine tended_await lasting_tenure hs₅ (fun _ s₆ hs₆ _ => ?_)
    rcases hs₆.insertSubscription config sid filter with ⟨e, heq⟩ | ⟨protocol, heq, hs₇⟩
    · rw [heq]
      exact tended_ret (hpost _) hs₆
    · rw [heq]
      refine tended_beside lasting_tenure hs₇
        (fun _ => ⟨rfl, rfl, [_], rfl, by simp⟩) (fun _ s₈ hs₈ => ?_)
      exact tended_beside lasting_tenure hs₈ (fun _ => beside_of_eq rfl rfl rfl)
        (fun _ s₉ hs₉ => tended_ret (hpost _) hs₉)

theorem tended_removeFromRoute {P : Shared → Prop} (hP : Lasting t P) (hs : P s)
    (sid : SubscriptionId) (filter : RouteFilter) :
    (removeFromRoute c sid filter).Sat (tended t) (fun _ => P) s := by
  refine tended_beside hP hs (fun _ => beside_of_eq rfl rfl rfl) (fun _ s₁ hs₁ => ?_)
  exact Prog.sat_atomic hP.stable (fun _ => hP.stable) hs₁
    (fun _ s₂ _ hs₂ _ => ⟨trivial, trivial, hP.beside s₂ _ (beside_of_eq rfl rfl rfl) hs₂⟩)

theorem tended_unsubscribe (hs : Tenure t c tenantId m l closed s) (sid : SubscriptionId) :
    (serve config ⟨t, n⟩ order (.unsubscribe c sid)).Sat (tended t)
      (SettledPost t c tenantId m (m.erase sid) l closed) s := by
  refine tended_serve lasting_tenure (lasting_settledPost _ _) hs (fun s₁ hs₁ => ?_)
  have hpost : ∀ result : Except CoreError Unit,
      Lasting t (SettledPost t c tenantId m (m.erase sid) l closed (.settled result)) :=
    fun result => lasting_settledPost _ _ _
  refine Prog.sat_bind trivial (Prog.sat_mono (Q := fun result =>
    SettledPost t c tenantId m (m.erase sid) l closed (.settled result)) ?_
    (fun result s₂ _ hs₂ => tended_ret (hpost result) hs₂))
  refine tended_withMutationLock lasting_tenure hpost (fun result e he => ?_) hs₁
    (fun s₂ hs₂ => ?_)
  · cases result with
    | error _ => cases he
    | ok _ =>
      rw [List.mem_singleton.mp he]
      simp
  refine tended_await lasting_tenure hs₂ (fun _ s₃ hs₃ _ => ?_)
  rcases takeSubscription_cases c sid s₃ with ⟨e, heq⟩ | ⟨r, filter, _, _, heq⟩
  · rw [heq]
    exact tended_ret (hpost _) hs₃
  · rw [heq]
    have hs₄ := hs₃.modify (fun m => m.erase sid)
    refine Prog.sat_bind trivial (Prog.sat_mono (tended_removeFromRoute lasting_tenure hs₄ sid
      filter) (fun _ s₅ _ hs₅ => ?_))
    exact tended_beside lasting_tenure hs₅ (fun _ => beside_of_eq rfl rfl rfl)
      (fun _ s₆ hs₆ => tended_ret (hpost _) hs₆)

theorem tended_removeAllFromRoutes {P : Shared → Prop} (hP : Lasting t P)
    (rest : List (SubscriptionId × RouteFilter)) (hs : P s) :
    (removeAllFromRoutes c rest).Sat (tended t) (fun _ => P) s := by
  induction rest generalizing s with
  | nil => exact tended_ret hP hs
  | cons e rest ih =>
    exact Prog.sat_bind trivial (Prog.sat_mono (tended_removeFromRoute hP hs e.1 e.2)
      (fun _ s₁ _ hs₁ => ih hs₁))

theorem Tenure.takeConnection (h : Tenure t c tenantId m l closed s) :
    Tenure t c tenantId m l closed (takeConnection c s).2 ∧
      c ∉ (takeConnection c s).2.connections := by
  rcases takeConnection_cases c s with ⟨hnone, heq⟩ | ⟨r, _, heq⟩
  · rw [heq]
    refine ⟨h, fun hmem => ?_⟩
    obtain ⟨connection, hl⟩ := AList.exists_lookup hmem
    rw [registry_lookup, hl] at hnone
    cases hnone
  · rw [heq]
    refine ⟨⟨h.registered, h.only, fun connection hl => ?_, h.channel⟩, fun hmem => ?_⟩
    · have hl' : (s.connections.erase c).lookup c = some connection := hl
      rw [AList.lookup_erase] at hl'
      cases hl'
    · exact (AList.mem_erase.mp hmem).1 rfl

/-- Once a thread has unregistered its connection, the connection is out. -/
theorem tended_unregister (hs : Tenure t c tenantId m l closed s) :
    (serve config ⟨t, n⟩ order (.unregister c)).Sat (tended t)
      (fun _ s' => Tenure t c tenantId m l closed s' ∧ Retired t s') s := by
  have hpost : Lasting t (fun s' => Tenure t c tenantId m l closed s' ∧ Retired t s') :=
    lasting_tenure.and lasting_retired
  refine tended_serve lasting_tenure (fun _ => hpost) hs (fun s₁ hs₁ => ?_)
  refine Prog.sat_bind trivial (Prog.sat_mono (Q := fun _ s' =>
    Tenure t c tenantId m l closed s' ∧ Retired t s') ?_
    (fun _ s₂ _ hs₂ => tended_ret hpost hs₂))
  refine tended_withMutationLock lasting_tenure (fun _ => hpost) (fun removed e he => ?_) hs₁
    (fun s₂ hs₂ => ?_)
  · cases removed with
    | false => cases he
    | true =>
      rw [List.mem_singleton.mp he]
      simp
  refine tended_await lasting_tenure hs₂ (fun _ s₃ hs₃ _ => ?_)
  obtain ⟨hs₄, hout⟩ := hs₃.takeConnection
  have hretired := hs₄.retired hout
  cases (Router.takeConnection c s₃).1 with
  | none => exact tended_ret hpost ⟨hs₄, hretired⟩
  | some r =>
    refine Prog.sat_bind trivial (Prog.sat_mono (tended_removeAllFromRoutes hpost _
      ⟨hs₄, hretired⟩) (fun _ s₅ _ hs₅ => ?_))
    exact tended_beside hpost hs₅ (fun _ => beside_of_eq rfl rfl rfl)
      (fun _ s₆ hs₆ => tended_ret hpost hs₆)

theorem Tenure.close (h : Tenure t c tenantId m l closed s) : Tenure t c tenantId m l true
    { s with channels := s.channels.modify c Channel.close } := by
  obtain ⟨channel, hl, hreceived, _⟩ := h.channel
  exact ⟨h.registered, h.only, h.held, channel.close,
    (AList.lookup_modify_self ..).trans (by rw [hl]; rfl), hreceived, rfl⟩

theorem tended_close (hs : Tenure t c tenantId m l closed s) :
    (serve config ⟨t, n⟩ order (.close c)).Sat (tended t)
      (fun _ => Tenure t c tenantId m l true) s := by
  refine tended_serve lasting_tenure (fun _ => lasting_tenure) hs (fun s₁ hs₁ => ?_)
  exact tended_await lasting_tenure hs₁ (fun _ s₂ hs₂ _ => tended_ret lasting_tenure hs₂.close)

theorem tended_close_retired (hs : Tenure t c tenantId m l closed s) (hretired : Retired t s) :
    (serve config ⟨t, n⟩ order (.close c)).Sat (tended t)
      (fun _ s' => Tenure t c tenantId m l true s' ∧ Retired t s') s := by
  have hpre : Lasting t (fun s' => Tenure t c tenantId m l closed s' ∧ Retired t s') :=
    lasting_tenure.and lasting_retired
  have hpost : Lasting t (fun s' => Tenure t c tenantId m l true s' ∧ Retired t s') :=
    lasting_tenure.and lasting_retired
  refine tended_serve hpre (fun _ => hpost) ⟨hs, hretired⟩ (fun s₁ hs₁ => ?_)
  exact tended_await hpre hs₁ (fun _ s₂ hs₂ _ => tended_ret hpost ⟨hs₂.1.close, hs₂.2⟩)

theorem landless_append {s' : Shared} {events : List Event} (hs : Landless t s)
    (hh : s'.history = s.history ++ events)
    (hevents : ∀ e ∈ events, ∀ serial c tenantId, e ≠ .registered ⟨t, serial⟩ c tenantId) :
    Landless t s' :=
  fun c hc => hs c ((owns_append hh hevents).mp hc)

theorem landless_offer {call : CallId} (last : Bool) (message : Option RoutedMessage)
    (c : ConnectionId) (ids : List SubscriptionId) (hs : Landless t s) :
    Landless t (offer config call last message c ids s).2 := by
  unfold offer
  cases s.connections.lookup c with
  | none => exact hs
  | some connection =>
    cases message with
    | none => exact landless_append hs rfl (by simp)
    | some message => exact landless_append hs rfl (by simp)

theorem landless_of_access {call : CallId} {message : RoutedMessage} {s' : Shared}
    (h : Access config call (.dispatch message) s s') (hs : Landless t s) : Landless t s' := by
  cases h with
  | read => exact hs
  | meter => exact hs
  | lock => exact hs
  | unlock => exact landless_append hs rfl (by simp)
  | @takeConnection _ c _ _ =>
    rcases takeConnection_cases c s with ⟨_, heq⟩ | ⟨r, _, heq⟩
    · rwa [heq]
    · rw [heq]
      exact hs
  | unregistered => exact landless_append hs rfl (by simp)
  | discard => exact hs
  | prune => exact hs
  | offer last c ids _ _ => exact landless_offer last _ c ids hs

theorem tended_dispatch {call : CallId} {message : RoutedMessage} (hs : Landless t s) :
    (serve config call order (.dispatch message)).Sat (tended t) (fun _ => Landless t) s := by
  refine Prog.sat_of_always lasting_landless.stable (always_serve order ?_ ?_ ?_) hs
  · exact fun s _ hs => ⟨trivial, trivial, lasting_landless.beside s _ (beside_log (by simp) s) hs⟩
  · exact fun s s' h _ hs => ⟨trivial, trivial, landless_of_access h hs⟩
  · exact fun _ s _ hs =>
      ⟨trivial, trivial, lasting_landless.beside s _ (beside_log (by simp) s) hs⟩

theorem recv_cases {channel channel' : Channel Delivery} {delivery : Delivery}
    (h : channel.recv = some (delivery, channel')) : ∃ queue, channel.queue = delivery :: queue ∧
      channel' = { channel with queue := queue, received := channel.received ++ [delivery] } := by
  unfold Channel.recv at h
  split at h
  · cases h
  · rename_i hqueue
    obtain ⟨rfl, rfl⟩ := Prod.mk.inj (Option.some.inj h)
    exact ⟨_, hqueue, rfl⟩

def taking (c : ConnectionId) (channel : Channel Delivery) (s : Shared) : Shared :=
  { s with channels := s.channels.modify c (fun _ => channel) }

theorem Tenure.got (h : Tenure t c tenantId m l false s) {delivery : Delivery}
    {channel channel' : Channel Delivery} (hl : s.channels.lookup c = some channel)
    (hrecv : channel.recv = some (delivery, channel')) :
    Tenure t c tenantId m (l ++ [delivery]) false (taking c channel' s) := by
  obtain ⟨channel₁, hl₁, hreceived, hopen⟩ := h.channel
  cases hl.symm.trans hl₁
  obtain ⟨queue, _, rfl⟩ := recv_cases hrecv
  refine ⟨h.registered, h.only, h.held, ?_⟩
  exact ⟨_, (AList.lookup_modify_self ..).trans (congrArg (Option.map _) hl),
    congrArg (· ++ [delivery]) hreceived, hopen⟩

end Calls
end KafkaEdgeRouter.Router
