import KafkaEdgeRouter.EventHistory
import KafkaEdgeRouter.IndexConsistency
import KafkaEdgeRouter.ThreadPool

/-!
# The protocol of concurrent router calls

What holds of the router between any two atomic accesses, and what one access of a thread may
change. The registry only changes under the mutation lock, so the owner of the lock knows it, and
whenever the lock is free the registry is one that a sequence of operations builds. A thread that
does not own the lock leaves the registry alone and ends no subscription. Every event of the
history is accounted for by the events before it. A thread only touches the connections it may
touch, so that a connection nobody else touches can be followed through concurrent calls.
-/

namespace KafkaEdgeRouter.Router

open History InvertedIndex

/-- The call found a matching subscription of the connection that was not ended before the call
began, or was made since. -/
def Found (call : CallId) (message : RoutedMessage) (c : ConnectionId) (h : List Event)
    (sid : SubscriptionId) : Prop :=
  ∃ subscriber filter, filter.matches message.metadata = true ∧
    .subscribed subscriber c sid filter ∈ h ∧
    (Standing (.subscribed subscriber c sid filter) (Event.ends c sid)
        (prior (Event.isBegan call) h) ∨
      .subscribed subscriber c sid filter ∈ since (Event.isBegan call) h)

def Account (before : List Event) : Event → Prop
  | .began call _ => ∀ e ∈ before, e.call ≠ call
  | .registered _ c _ => ∀ registrar tenantId, .registered registrar c tenantId ∉ before
  | .subscribed call c sid filter => .began call (.subscribe c sid filter) ∈ before ∧
      (∀ response, .returned call response ∉ before) ∧
      ∃ registrar, .registered registrar c filter.tenantId ∈ before
  | .removalReturned _ _ _ => True
  | .offered call c delivery _ => .began call (.dispatch delivery.message) ∈ before ∧
      (∀ delivery' outcome', .offered call c delivery' outcome' ∉ before) ∧
      (∃ registrar, .registered registrar c delivery.message.metadata.tenantId ∈ before) ∧
      ∀ sid ∈ delivery.subscriptionIds, Found call delivery.message c before sid
  | .panicked _ _ => False
  | .returned call response =>
      ∀ c sid filter, .subscribed call c sid filter ∈ before → response = .settled (.ok ())

/-- What holds whoever owns the mutation lock. -/
structure Base (s : Shared) : Prop where
  channel_of_connection : ∀ c ∈ s.connections, c ∈ s.channels
  channel_of_registered : ∀ call c tenantId, .registered call c tenantId ∈ s.history →
    c ∈ s.channels
  registered : ∀ c connection, s.connections.lookup c = some connection →
    ∃ call, .registered call c connection.tenantId ∈ s.history
  filled : Filled s.routes
  live : ∀ k c sid, sid ∈ items s.routes k c → ∃ call filter, RouteKey.ofFilter filter = k ∧
    filter.validate = .ok () ∧
    Standing (.subscribed call c sid filter) (Event.ends c sid) s.history
  justified : Justified Account s.history
  log : ∀ c channel, s.channels.lookup c = some channel →
    channel.log = s.history.filterMap (Event.acceptedBy c)

theorem acceptedBy_eq_some {e : Event} {c : ConnectionId} {delivery : Delivery}
    (h : e.acceptedBy c = some delivery) : ∃ call, e = .offered call c delivery .accepted := by
  unfold Event.acceptedBy at h
  split at h
  · split_ifs at h with hc
    rw [← Option.some.inj h, ← hc]
    exact ⟨_, rfl⟩
  · cases h

theorem Base.channel_of_accepted {s : Shared} (hB : Base s) {e : Event} (he : e ∈ s.history)
    {c : ConnectionId} {delivery : Delivery} (ha : e.acceptedBy c = some delivery) :
    c ∈ s.channels := by
  obtain ⟨call, rfl⟩ := acceptedBy_eq_some ha
  obtain ⟨before, after, heq, _, _, ⟨registrar, hmem⟩, _⟩ := hB.justified.of_mem he
  refine hB.channel_of_registered registrar c delivery.message.metadata.tenantId ?_
  rw [heq]
  exact List.mem_append_left _ hmem

/-- What holds between any two accesses. The connections in `reserved` have been issued. -/
structure Inv (config : RouterConfig) (reserved : ConnectionId → Prop) (s : Shared) : Prop where
  base : Base s
  reachable : s.mutationLock = none → Registry.Reachable config s.registry
  reserved : ∀ c, reserved c → c ∈ s.channels

/-- The two states agree on a connection: its entry, its queue and its routes. -/
structure Same (c : ConnectionId) (s s' : Shared) : Prop where
  connection : s'.connections.lookup c = s.connections.lookup c
  channel : s'.channels.lookup c = s.channels.lookup c
  items : ∀ k, items s'.routes k c = items s.routes k c

theorem Same.refl (c : ConnectionId) (s : Shared) : Same c s s := ⟨rfl, rfl, fun _ => rfl⟩

theorem Same.trans {c : ConnectionId} {s s' s'' : Shared} (h : Same c s s') (h' : Same c s' s'') :
    Same c s s'' :=
  ⟨h'.connection.trans h.connection, h'.channel.trans h.channel,
    fun k => (h'.items k).trans (h.items k)⟩

/-- What one access of thread `t` may do. -/
structure Guarantee (touches : ℕ → ConnectionId → Prop) (t : ℕ) (s s' : Shared) : Prop where
  lock : s'.mutationLock = s.mutationLock ∨ s.mutationLock = none ∧ s'.mutationLock = some t ∨
    s.mutationLock = some t ∧ s'.mutationLock = none
  registry : s.mutationLock ≠ some t → s'.registry = s.registry
  history : ∃ events, s'.history = s.history ++ events ∧ (∀ e ∈ events, e.call.thread = t) ∧
    (s.mutationLock ≠ some t → ∀ e ∈ events, ∀ c sid, ¬ e.ends c sid)
  channels : ∀ c ∈ s.channels, c ∈ s'.channels
  untouched : ∀ c, ¬ touches t c → Same c s s'

/-- A thread to come does not own the lock and has left no trace. -/
def protocol (config : RouterConfig) (touches : ℕ → ConnectionId → Prop)
    (reserved : ConnectionId → Prop) : Protocol Shared where
  inv := Inv config reserved
  guar := Guarantee touches
  fresh t s := s.mutationLock ≠ some t ∧ ∀ e ∈ s.history, e.call.thread ≠ t

abbrev contract (config : RouterConfig) (touches : ℕ → ConnectionId → Prop)
    (reserved : ConnectionId → Prop) (call : CallId) : Contract Shared :=
  (protocol config touches reserved).contract call.thread

def ownEvents (call : CallId) (s : Shared) : List Event :=
  s.history.filter (fun e => e.call = call)

/-- The calling thread does not own the lock, and the call has left exactly the events `own`. -/
structure Ready (call : CallId) (own : List Event) (s : Shared) : Prop where
  lock : s.mutationLock ≠ some call.thread
  own : ownEvents call s = own

structure Holding (call : CallId) (own : List Event) (R : Registry) (s : Shared) : Prop where
  lock : s.mutationLock = some call.thread
  own : ownEvents call s = own
  registry : s.registry = R

def Kept (D : ConnectionId → Prop) (s₀ s : Shared) : Prop := ∀ c, D c → Same c s₀ s

namespace Guarantee

variable {touches : ℕ → ConnectionId → Prop} {t u : ℕ} {s s' : Shared}

theorem lock_of_ne (h : Guarantee touches u s s') (hne : u ≠ t) :
    s'.mutationLock = some t ↔ s.mutationLock = some t := by
  rcases h.lock with heq | ⟨hnone, hsome⟩ | ⟨hsome, hnone⟩
  · rw [heq]
  · simp [hnone, hsome, hne]
  · simp [hnone, hsome, hne]

theorem ownEvents_eq (h : Guarantee touches u s s') {call : CallId} (hne : u ≠ call.thread) :
    ownEvents call s' = ownEvents call s := by
  obtain ⟨events, heq, hthread, _⟩ := h.history
  have hnil : events.filter (fun e => e.call = call) = [] := by
    rw [List.filter_eq_nil_iff]
    intro e he hcall
    exact hne (by rw [← hthread e he, of_decide_eq_true hcall])
  rw [ownEvents, heq, List.filter_append, hnil, List.append_nil, ownEvents]

theorem unused (h : Guarantee touches u s s') (hne : u ≠ t)
    (hs : s.mutationLock ≠ some t ∧ ∀ e ∈ s.history, e.call.thread ≠ t) :
    s'.mutationLock ≠ some t ∧ ∀ e ∈ s'.history, e.call.thread ≠ t := by
  refine ⟨fun hlock => hs.1 ((h.lock_of_ne hne).mp hlock), fun e he => ?_⟩
  obtain ⟨events, heq, hthread, _⟩ := h.history
  rw [heq] at he
  rcases List.mem_append.mp he with he | he
  · exact hs.2 e he
  · rw [hthread e he]
    exact hne

theorem mem_history (h : Guarantee touches u s s') {e : Event} (he : e ∈ s.history) :
    e ∈ s'.history := by
  obtain ⟨events, heq, _⟩ := h.history
  rw [heq]
  exact List.mem_append_left _ he

end Guarantee

section Stability

variable {config : RouterConfig} {touches : ℕ → ConnectionId → Prop}
  {reserved : ConnectionId → Prop} {call : CallId}

theorem stable_fresh (t : ℕ) : ((protocol config touches reserved).contract t).Stable
    ((protocol config touches reserved).fresh t) := by
  rintro s s' _ _ ⟨u, hu, hg⟩ hfresh
  exact hg.unused hu hfresh

theorem stable_ready (own : List Event) :
    (contract config touches reserved call).Stable (Ready call own) := by
  rintro s s' _ _ ⟨u, hu, hg⟩ ⟨hlock, hown⟩
  exact ⟨fun h => hlock ((hg.lock_of_ne hu).mp h), by rw [hg.ownEvents_eq hu, hown]⟩

theorem stable_holding (own : List Event) (R : Registry) :
    (contract config touches reserved call).Stable (Holding call own R) := by
  rintro s s' _ _ ⟨u, hu, hg⟩ ⟨hlock, hown, hregistry⟩
  have hne : s.mutationLock ≠ some u := by
    rw [hlock]
    exact fun h => hu (Option.some.inj h).symm
  exact ⟨(hg.lock_of_ne hu).mpr hlock, by rw [hg.ownEvents_eq hu, hown],
    by rw [hg.registry hne, hregistry]⟩

theorem stable_kept {t : ℕ} {D : ConnectionId → Prop} (s₀ : Shared)
    (hD : ∀ u c, u ≠ t → D c → ¬ touches u c) :
    ((protocol config touches reserved).contract t).Stable (Kept D s₀) := by
  rintro s s' _ _ ⟨u, hu, hg⟩ hk c hc
  exact (hk c hc).trans (hg.untouched c (hD u c hu hc))

theorem Found.append {message : RoutedMessage} {c : ConnectionId} {sid : SubscriptionId}
    {h : List Event} (hf : Found call message c h sid) (hb : ∃ e ∈ h, Event.isBegan call e = true)
    (l : List Event) : Found call message c (h ++ l) sid := by
  obtain ⟨subscriber, filter, hmatch, hmem, hwhen⟩ := hf
  refine ⟨subscriber, filter, hmatch, List.mem_append_left _ hmem, ?_⟩
  rw [prior_append hb, since_append hb]
  exact hwhen.imp id (List.mem_append_left _)

theorem Base.found {s : Shared} (hB : Base s) {message : RoutedMessage} {k : RouteKey}
    (hk : k ∈ RouteKey.candidates message.metadata) {c : ConnectionId} {sid : SubscriptionId}
    (hmem : sid ∈ items s.routes k c) : Found call message c s.history sid := by
  obtain ⟨subscriber, filter, rfl, hvalid, hstanding⟩ := hB.live k c sid hmem
  refine ⟨subscriber, filter, (ofFilter_mem_candidates_iff hvalid message).mp hk,
    hstanding.mem, ?_⟩
  rw [← prior_append_since (Event.isBegan call) s.history] at hstanding
  exact hstanding.of_append

end Stability
end KafkaEdgeRouter.Router
