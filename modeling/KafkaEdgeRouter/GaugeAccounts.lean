import KafkaEdgeRouter.ConcurrentSafety

/-!
# The gauges of the metrics

The gauges of active connections and subscriptions are kept by deltas, with decrements that stop at
zero. Along the operations of the registry they are exact: each protocol's gauges are the number of
its connections and of their subscriptions, so no decrement is ever cut off.
-/

namespace KafkaEdgeRouter

namespace Registry

def connectionsByProtocol (protocol : DeliveryProtocol) (R : Registry) : ℕ :=
  (R.connections.pairs.filter (fun e => e.2.protocol = protocol)).length

def subscriptionsByProtocol (protocol : DeliveryProtocol) (R : Registry) : ℕ :=
  ((R.connections.pairs.filter (fun e => e.2.protocol = protocol)).map
    (fun e => e.2.subscriptions.size)).sum

/-- The gauges count the connections of every protocol and their subscriptions. -/
structure Metered (R : Registry) : Prop where
  connections : ∀ p, R.gauges.activeConnections p = R.connectionsByProtocol p
  subscriptions : ∀ p, R.gauges.activeSubscriptions p = R.subscriptionsByProtocol p

variable {R R' : Registry} {c : ConnectionId} {r : Registration}

theorem connectionsByProtocol_eq (p : DeliveryProtocol) (R : Registry) :
    R.connectionsByProtocol p =
      R.connections.total (fun r => if r.protocol = p then 1 else 0) := by
  rw [← AList.sum_filter_pairs (fun r : Registration => r.protocol = p) (fun _ => 1),
    connectionsByProtocol]
  simp

theorem subscriptionsByProtocol_eq (p : DeliveryProtocol) (R : Registry) :
    R.subscriptionsByProtocol p =
      R.connections.total (fun r => if r.protocol = p then r.subscriptions.size else 0) := by
  rw [← AList.sum_filter_pairs (fun r : Registration => r.protocol = p), subscriptionsByProtocol]

theorem metered_new : Metered new := ⟨fun _ => rfl, fun _ => rfl⟩

theorem metered_register {config : RouterConfig} {tenantId : String} {protocol : DeliveryProtocol}
    (hR : Metered R) (hc : c ∉ R.connections)
    (h : R.register config c tenantId protocol = .ok R') : Metered R' := by
  obtain ⟨_, _, rfl⟩ := register_cases h
  refine ⟨fun p => ?_, fun p => ?_⟩
  · have hgauge := hR.connections p
    rw [connectionsByProtocol_eq] at hgauge ⊢
    rw [AList.total_insert _ hc, ← hgauge]
    simp only [Gauges.recordProtocolOpened, Function.update_apply, eq_comm (a := p)]
    split_ifs with hp
    · rw [hp, Nat.add_comm]
    · rw [Nat.zero_add]
  · have hgauge := hR.subscriptions p
    rw [subscriptionsByProtocol_eq] at hgauge ⊢
    have hzero : (∅ : Subscriptions).size = 0 := rfl
    rw [AList.total_insert _ hc, ← hgauge]
    simp [Gauges.recordProtocolOpened, hzero]

/-- The subscriptions of one connection change, and the gauge of its protocol by as much. -/
theorem metered_modify (hR : Metered R) (hr : R.connections.lookup c = some r)
    {f : Registration → Registration} (hprotocol : (f r).protocol = r.protocol) {n : ℕ}
    (hn : n + r.subscriptions.size =
      R.gauges.activeSubscriptions r.protocol + (f r).subscriptions.size) (routes : Routes) :
    Metered ⟨R.connections.modify c f, routes, { R.gauges with
      activeSubscriptions := Function.update R.gauges.activeSubscriptions r.protocol n }⟩ := by
  refine ⟨fun p => ?_, fun p => ?_⟩
  · have hsum := AList.total_modify (fun r => if r.protocol = p then 1 else 0) hr f
    have hgauge := hR.connections p
    rw [connectionsByProtocol_eq] at hgauge ⊢
    simp only [hprotocol] at hsum ⊢
    omega
  · have hsum := AList.total_modify
      (fun r => if r.protocol = p then r.subscriptions.size else 0) hr f
    have hgauge := hR.subscriptions p
    rw [subscriptionsByProtocol_eq] at hgauge ⊢
    simp only [hprotocol, Function.update_apply, eq_comm (a := p)] at hsum ⊢
    by_cases hp : r.protocol = p
    · rw [hp] at hn
      simp only [hp, if_true] at hsum ⊢
      omega
    · simp only [hp, if_false] at hsum ⊢
      omega

theorem metered_subscribe {config : RouterConfig} {sid : SubscriptionId} {filter : RouteFilter}
    (hR : Metered R) (h : R.subscribe config c sid filter = .ok R') : Metered R' := by
  obtain ⟨r, hr, _, _, _, hsid, _, rfl⟩ := subscribe_cases h
  refine metered_modify hR hr rfl ?_ _
  have hsize := AList.size_insert (AList.lookup_eq_none.mp hsid) filter
  change _ = _ + (r.subscriptions.insert sid filter).size
  omega

/-- What closing a connection takes from the gauges is there. -/
theorem Metered.covers (hR : Metered R) (hr : R.connections.lookup c = some r) :
    1 ≤ R.gauges.activeConnections r.protocol ∧
      r.subscriptions.size ≤ R.gauges.activeSubscriptions r.protocol := by
  rw [hR.connections, hR.subscriptions, connectionsByProtocol_eq, subscriptionsByProtocol_eq]
  have hone := AList.le_total (fun r' => if r'.protocol = r.protocol then 1 else 0) hr
  have hsize := AList.le_total
    (fun r' => if r'.protocol = r.protocol then r'.subscriptions.size else 0) hr
  simp only [if_true] at hone hsize
  exact ⟨hone, hsize⟩

theorem metered_unsubscribe {sid : SubscriptionId} (hR : Metered R)
    (h : R.unsubscribe c sid = .ok R') : Metered R' := by
  obtain ⟨r, filter, hr, hf, rfl⟩ := unsubscribe_cases h
  refine metered_modify hR hr rfl ?_ _
  have hsize := AList.size_erase hf
  have hcovers := (hR.covers hr).2
  change _ = _ + (r.subscriptions.erase sid).size
  omega

theorem metered_unregister (order : IterOrder (SubscriptionId × RouteFilter)) (c : ConnectionId)
    (hR : Metered R) : Metered (R.unregister order c) := by
  unfold unregister
  split
  · exact hR
  · rename_i r hr
    obtain ⟨hone, hsize⟩ := hR.covers hr
    refine ⟨fun p => ?_, fun p => ?_⟩
    · have hsum := AList.total_erase (fun r => if r.protocol = p then 1 else 0) hr
      have hgauge := hR.connections p
      rw [connectionsByProtocol_eq] at hgauge ⊢
      simp only [Gauges.recordProtocolClosed, Function.update_apply, eq_comm (a := p)]
      by_cases hp : r.protocol = p
      · rw [hp] at hone ⊢
        simp only [hp, if_true] at hsum ⊢
        omega
      · simp only [hp, if_false] at hsum ⊢
        omega
    · have hsum := AList.total_erase
        (fun r => if r.protocol = p then r.subscriptions.size else 0) hr
      have hgauge := hR.subscriptions p
      rw [subscriptionsByProtocol_eq] at hgauge ⊢
      simp only [Gauges.recordProtocolClosed, Function.update_apply, eq_comm (a := p)]
      by_cases hp : r.protocol = p
      · rw [hp] at hsize ⊢
        simp only [hp, if_true] at hsum ⊢
        omega
      · simp only [hp, if_false] at hsum ⊢
        omega

theorem Reachable.metered {config : RouterConfig} (h : Reachable config R) : Metered R := by
  induction h with
  | new => exact metered_new
  | register _ hc hreg ih => exact metered_register ih hc hreg
  | subscribe _ _ hsub ih => exact metered_subscribe ih hsub
  | unsubscribe _ hunsub ih => exact metered_unsubscribe ih hunsub
  | unregister order c _ ih => exact metered_unregister order c ih

end Registry

/-- The protocols in the order of their gauges. -/
def protocols : List DeliveryProtocol := [.webSocket, .sse, .grpc, .httpWebhook]

theorem Registry.total_protocols (w : Registration → ℕ) (R : Registry) :
    (protocols.map fun p => R.connections.total (fun r => if r.protocol = p then w r else 0)).sum =
      R.connections.total w := by
  simp only [AList.total, protocols, List.map_cons, List.map_nil, List.sum_cons, List.sum_nil]
  induction R.connections.pairs with
  | nil => rfl
  | cons e l ih =>
    simp only [List.map_cons, List.sum_cons]
    cases e.2.protocol <;> simp only [reduceCtorEq, if_true, if_false] <;> omega

structure RouterStatus where
  activeConnections : ℕ
  subscriptions : ℕ

def Shared.status (s : Shared) : RouterStatus where
  activeConnections := s.connections.size
  subscriptions := (s.connections.pairs.map (fun e => e.2.subscriptions.size)).sum

namespace Router

theorem status_activeConnections (s : Shared) :
    s.status.activeConnections = s.registry.connections.total (fun _ => 1) := by
  rw [AList.total_eq]
  simp [Shared.status, Shared.registry, AList.mapValues, AList.size, Function.comp_def]

theorem status_subscriptions (s : Shared) :
    s.status.subscriptions = s.registry.connections.total (fun r => r.subscriptions.size) := by
  simp only [Shared.status, Shared.registry, AList.total, AList.pairs_mapValues, List.map_map]
  rfl

/-- Whenever the mutation lock is free, the gauges of every protocol are the number of its
connections and of their subscriptions, whatever a removal takes from them is there, and together
they are the status of the router. Until then nobody but the owner of the lock changes them. -/
theorem gauges_equal_registry (config : RouterConfig) (P : Calls)
    (hP : Calls.start.Reaches (thread config) P) :
    (P.shared.mutationLock = none →
      (∀ p, P.shared.gauges.activeConnections p = P.shared.registry.connectionsByProtocol p) ∧
      (∀ p, P.shared.gauges.activeSubscriptions p =
        P.shared.registry.subscriptionsByProtocol p) ∧
      (∀ c connection, P.shared.connections.lookup c = some connection →
        1 ≤ P.shared.gauges.activeConnections connection.protocol ∧
        connection.subscriptions.size ≤
          P.shared.gauges.activeSubscriptions connection.protocol ∧
        ∀ sid ∈ connection.subscriptions,
          1 ≤ P.shared.gauges.activeSubscriptions connection.protocol) ∧
      P.shared.status.activeConnections =
        (protocols.map P.shared.gauges.activeConnections).sum ∧
      P.shared.status.subscriptions =
        (protocols.map P.shared.gauges.activeSubscriptions).sum) ∧
    ∀ t i P', P.move (thread config) (.act t i) = some P' → P.shared.mutationLock ≠ some t →
      P'.shared.gauges = P.shared.gauges ∧
      P'.shared.registry.connections = P.shared.registry.connections := by
  have hholds := holds_of_reaches hP
  refine ⟨fun hfree => ?_, fun t i P' hmove hlock => ?_⟩
  · have hR : P.shared.registry.Metered := (hholds.inv.reachable hfree).metered
    refine ⟨hR.connections, hR.subscriptions, fun c connection hl => ?_, ?_, ?_⟩
    · have hr : P.shared.registry.connections.lookup c = some connection.toRegistration := by
        rw [registry_lookup, hl]
        rfl
      obtain ⟨hone, hsize⟩ := hR.covers hr
      refine ⟨hone, hsize, fun sid hsid => hsize.trans' ?_⟩
      obtain ⟨filter, hf⟩ := AList.exists_lookup hsid
      have hpos := AList.size_erase hf
      omega
    · rw [status_activeConnections, ← Registry.total_protocols]
      refine congrArg List.sum (List.map_congr_left fun p _ => ?_)
      rw [← Registry.connectionsByProtocol_eq]
      exact (hR.connections p).symm
    · rw [status_subscriptions, ← Registry.total_protocols]
      refine congrArg List.sum (List.map_congr_left fun p _ => ?_)
      rw [← Registry.subscriptionsByProtocol_eq]
      exact (hR.subscriptions p).symm
  · rcases Pool.move_cases (thread config) hmove with
      ⟨task, hspawn, _⟩ | ⟨t', i', e, u, k, hact, hthread, he, rfl⟩
    · cases hspawn
    · obtain ⟨rfl, rfl⟩ := Move.act.inj hact
      have hsame := ((hholds.act Function.injective_id stable_fresh hthread he).1).registry hlock
      exact ⟨congrArg Registry.gauges hsame, congrArg Registry.connections hsame⟩

theorem gauges_equal_registry_acme : ∃ P : Calls, Calls.start.Reaches (thread {}) P ∧
    P.shared.mutationLock = none ∧ P.shared.gauges.activeSubscriptions .sse = 1 ∧
    P.shared.status.subscriptions = (protocols.map P.shared.gauges.activeSubscriptions).sum := by
  obtain ⟨P, hP, hshared⟩ := reachable_acmeState
  have hfree : P.shared.mutationLock = none := by
    rw [hshared]
    rfl
  refine ⟨P, hP, hfree, ?_, ((gauges_equal_registry {} P hP).1 hfree).2.2.2.2⟩
  rw [hshared]
  rfl

end Router
end KafkaEdgeRouter
