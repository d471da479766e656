import KafkaEdgeRouter.RouterRegistry

/-!
# Index consistency

Every registry that sequences of operations build is consistent: the index holds exactly the
subscriptions of the registered connections, each once under the key of its filter, and nothing
empty; the filters are valid and of the tenant of their connection.
-/

namespace KafkaEdgeRouter.Registry

open InvertedIndex

structure Consistent (R : Registry) : Prop where
  mem_iff : ∀ k c sid, sid ∈ items R.routes k c ↔
    ∃ filter, R.Subscribed c sid filter ∧ RouteKey.ofFilter filter = k
  nodup : ∀ k c, (items R.routes k c).Nodup
  tidy : Tidy R.routes
  valid : ∀ c sid filter, R.Subscribed c sid filter → filter.validate = .ok ()
  tenant : ∀ c r sid filter, R.connections.lookup c = some r →
    r.subscriptions.lookup sid = some filter → filter.tenantId = r.tenantId

theorem consistent_new : Consistent new := by
  refine ⟨fun k c sid => ?_, fun k c => List.nodup_nil, tidy_empty, ?_, ?_⟩
  · simp [items, new, Subscribed]
  · rintro c sid filter ⟨r, hr, _⟩
    simp [new] at hr
  · intro c r sid filter hr
    simp [new] at hr

theorem subscribed_insert {R R' : Registry} {c : ConnectionId} {r : Registration}
    (hc : c ∉ R.connections) (hr : r.subscriptions = ∅)
    (hR' : R'.connections = R.connections.insert c r) (c' : ConnectionId) (sid : SubscriptionId)
    (filter : RouteFilter) : R'.Subscribed c' sid filter ↔ R.Subscribed c' sid filter := by
  unfold Subscribed
  rw [hR']
  by_cases hcc : c' = c
  · subst c'
    simp [hr, AList.lookup_eq_none.mpr hc]
  · rw [AList.lookup_insert_ne hcc]

theorem consistent_register {config : RouterConfig} {c : ConnectionId} {tenantId : String}
    {protocol : DeliveryProtocol} {R R' : Registry} (hR : Consistent R) (hc : c ∉ R.connections)
    (h : R.register config c tenantId protocol = .ok R') : Consistent R' := by
  obtain ⟨_, _, rfl⟩ := register_cases h
  have hsub : ∀ c' sid filter, Subscribed { R with
        connections := R.connections.insert c ⟨tenantId, protocol, ∅⟩
        gauges := R.gauges.recordProtocolOpened protocol } c' sid filter ↔
      R.Subscribed c' sid filter := subscribed_insert hc rfl rfl
  refine ⟨fun k c' sid => ?_, hR.nodup, hR.tidy, ?_, ?_⟩
  · simp only [hsub]
    exact hR.mem_iff k c' sid
  · intro c' sid filter hs
    exact hR.valid c' sid filter ((hsub c' sid filter).mp hs)
  · intro c' r sid filter hr hf
    by_cases hcc : c' = c
    · subst c'
      rw [AList.lookup_insert] at hr
      rw [← Option.some.inj hr] at hf
      simp at hf
    · rw [AList.lookup_insert_ne hcc] at hr
      exact hR.tenant c' r sid filter hr hf

theorem lookup_addSubscription {c : ConnectionId} {sid : SubscriptionId} {filter : RouteFilter}
    {connections : AList (fun _ : ConnectionId => Registration)} {c' : ConnectionId}
    {r' : Registration} (h : (addSubscription c sid filter connections).lookup c' = some r') :
    ∃ r, connections.lookup c' = some r ∧ r'.tenantId = r.tenantId ∧
      r'.protocol = r.protocol ∧ r'.subscriptions =
        if c' = c then r.subscriptions.insert sid filter else r.subscriptions := by
  rw [addSubscription, AList.lookup_modify] at h
  obtain ⟨r, hr, rfl⟩ := Option.map_eq_some_iff.mp h
  by_cases hcc : c' = c
  · exact ⟨r, hr, by simp [hcc], by simp [hcc], by simp [hcc]⟩
  · exact ⟨r, hr, by simp [hcc], by simp [hcc], by simp [hcc]⟩

theorem subscribed_addSubscription {R R' : Registry} {c : ConnectionId} {r : Registration}
    {sid : SubscriptionId} {filter : RouteFilter} (hr : R.connections.lookup c = some r)
    (hsid : r.subscriptions.lookup sid = none)
    (hR' : R'.connections = addSubscription c sid filter R.connections)
    (c' : ConnectionId) (sid' : SubscriptionId) (filter' : RouteFilter) :
    R'.Subscribed c' sid' filter' ↔
      R.Subscribed c' sid' filter' ∨ (c' = c ∧ sid' = sid ∧ filter' = filter) := by
  unfold Subscribed
  rw [hR', addSubscription, AList.lookup_modify]
  by_cases hcc : c' = c
  · subst c'
    by_cases hss : sid' = sid
    · subst sid'
      simp [hr, hsid, eq_comm]
    · simp [hr, hss, AList.lookup_insert_ne hss]
  · cases hl : R.connections.lookup c' <;> simp [hcc]

theorem consistent_subscribe {config : RouterConfig} {c : ConnectionId} {sid : SubscriptionId}
    {filter : RouteFilter} {R R' : Registry} (hR : Consistent R)
    (hvalid : filter.validate = .ok ()) (h : R.subscribe config c sid filter = .ok R') :
    Consistent R' := by
  obtain ⟨r, hr, _, _, htenant, hsid, _, rfl⟩ := subscribe_cases h
  have hsub : ∀ c' sid' filter', Subscribed {
        connections := addSubscription c sid filter R.connections
        routes := R.routes.push (RouteKey.ofFilter filter) c sid
        gauges := R.gauges.recordSubscriptionAdded r.protocol } c' sid' filter' ↔
      R.Subscribed c' sid' filter' ∨ (c' = c ∧ sid' = sid ∧ filter' = filter) :=
    subscribed_addSubscription hr hsid rfl
  have habsent : ∀ k, sid ∉ items R.routes k c := by
    intro k hmem
    obtain ⟨f, ⟨r', hr', hf⟩, _⟩ := (hR.mem_iff k c sid).mp hmem
    rw [hr] at hr'
    rw [← Option.some.inj hr', hsid] at hf
    cases hf
  refine ⟨fun k c' sid' => ?_, fun k c' => ?_, tidy_push hR.tidy _ _ _, ?_, ?_⟩
  · rw [items_push]
    simp only [hsub]
    by_cases hkc : k = RouteKey.ofFilter filter ∧ c' = c
    · obtain ⟨rfl, rfl⟩ := hkc
      simp only [and_self, if_true, List.mem_append, List.mem_singleton, hR.mem_iff]
      constructor
      · rintro (⟨f, hs, hk⟩ | rfl)
        · exact ⟨f, Or.inl hs, hk⟩
        · exact ⟨filter, Or.inr ⟨trivial, rfl, rfl⟩, rfl⟩
      · rintro ⟨f, hs | ⟨_, rfl, rfl⟩, hk⟩
        · exact Or.inl ⟨f, hs, hk⟩
        · exact Or.inr rfl
    · rw [if_neg hkc, hR.mem_iff]
      constructor
      · rintro ⟨f, hs, hk⟩
        exact ⟨f, Or.inl hs, hk⟩
      · rintro ⟨f, hs | ⟨rfl, rfl, rfl⟩, hk⟩
        · exact ⟨f, hs, hk⟩
        · exact absurd ⟨hk.symm, rfl⟩ hkc
  · rw [items_push]
    split_ifs
    · exact (hR.nodup _ _).append (List.nodup_singleton sid)
        (List.disjoint_singleton.mpr (habsent _))
    · exact hR.nodup k c'
  · intro c' sid' filter' hs
    rcases (hsub c' sid' filter').mp hs with hs | ⟨_, _, rfl⟩
    · exact hR.valid c' sid' filter' hs
    · exact hvalid
  · intro c' r' sid' filter' hr' hf'
    obtain ⟨r₀, hr₀, ht, _, hsubs⟩ := lookup_addSubscription hr'
    rw [ht]
    rw [hsubs] at hf'
    split_ifs at hf' with hcc
    · subst c'
      have hrr := Option.some.inj (hr.symm.trans hr₀)
      subst hrr
      by_cases hss : sid' = sid
      · subst sid'
        rw [AList.lookup_insert] at hf'
        rw [← Option.some.inj hf', htenant]
      · rw [AList.lookup_insert_ne hss] at hf'
        exact hR.tenant _ _ sid' filter' hr₀ hf'
    · exact hR.tenant c' r₀ sid' filter' hr₀ hf'

theorem items_removeRoute (c c' : ConnectionId) (sid : SubscriptionId) (filter : RouteFilter)
    (routes : Routes) (k : RouteKey) :
    items (removeRoute c sid filter routes) k c' =
      if k = RouteKey.ofFilter filter ∧ c' = c then (items routes k c').filter (· ≠ sid)
      else items routes k c' := by
  rw [removeRoute, items_prune, items_discard]
  by_cases h : k = RouteKey.ofFilter filter ∧ c' = c
  · obtain ⟨rfl, rfl⟩ := h
    rfl
  · rw [if_neg h, if_neg h]

theorem nodup_removeRoute {routes : Routes} (h : ∀ k c, (items routes k c).Nodup)
    (c : ConnectionId) (sid : SubscriptionId) (filter : RouteFilter) (k : RouteKey)
    (c' : ConnectionId) : (items (removeRoute c sid filter routes) k c').Nodup := by
  rw [items_removeRoute]
  split_ifs
  · exact (h k c').filter _
  · exact h k c'

theorem mem_removeRoute {routes : Routes} {c c' : ConnectionId} {sid sid' : SubscriptionId}
    {filter : RouteFilter} {k : RouteKey} :
    sid' ∈ items (removeRoute c sid filter routes) k c' ↔
      sid' ∈ items routes k c' ∧ ¬ (c' = c ∧ sid' = sid ∧ RouteKey.ofFilter filter = k) := by
  rw [items_removeRoute]
  by_cases h : k = RouteKey.ofFilter filter ∧ c' = c
  · obtain ⟨rfl, rfl⟩ := h
    simp
  · rw [if_neg h]
    refine ⟨fun hmem => ⟨hmem, ?_⟩, fun hmem => hmem.1⟩
    rintro ⟨rfl, _, rfl⟩
    exact h ⟨rfl, rfl⟩

theorem subscribed_dropSubscription {R R' : Registry} {c : ConnectionId} {sid : SubscriptionId}
    (hR' : R'.connections = dropSubscription c sid R.connections) (c' : ConnectionId)
    (sid' : SubscriptionId) (filter' : RouteFilter) :
    R'.Subscribed c' sid' filter' ↔ R.Subscribed c' sid' filter' ∧ ¬ (c' = c ∧ sid' = sid) := by
  unfold Subscribed
  rw [hR', dropSubscription, AList.lookup_modify]
  by_cases hcc : c' = c
  · subst c'
    by_cases hss : sid' = sid
    · subst sid'
      cases hl : R.connections.lookup c <;> simp
    · cases hl : R.connections.lookup c <;> simp [hss, AList.lookup_erase_ne hss]
  · cases hl : R.connections.lookup c' <;> simp [hcc]

theorem consistent_unsubscribe {c : ConnectionId} {sid : SubscriptionId} {R R' : Registry}
    (hR : Consistent R) (h : R.unsubscribe c sid = .ok R') : Consistent R' := by
  obtain ⟨r, filter, hr, hf, rfl⟩ := unsubscribe_cases h
  have hsub : ∀ c' sid' filter', Subscribed {
        connections := dropSubscription c sid R.connections
        routes := removeRoute c sid filter R.routes
        gauges := R.gauges.recordSubscriptionRemoved r.protocol } c' sid' filter' ↔
      R.Subscribed c' sid' filter' ∧ ¬ (c' = c ∧ sid' = sid) := subscribed_dropSubscription rfl
  refine ⟨fun k c' sid' => ?_, nodup_removeRoute hR.nodup c sid filter,
    tidy_prune_discard hR.tidy _ _ _, ?_, ?_⟩
  · rw [mem_removeRoute, hR.mem_iff]
    simp only [hsub]
    constructor
    · rintro ⟨⟨f, hs, hk⟩, hne⟩
      refine ⟨f, ⟨hs, ?_⟩, hk⟩
      rintro ⟨rfl, rfl⟩
      exact hne ⟨rfl, rfl, by rw [Subscribed.unique ⟨r, hr, hf⟩ hs, hk]⟩
    · rintro ⟨f, ⟨hs, hne⟩, hk⟩
      exact ⟨⟨f, hs, hk⟩, fun hall => hne ⟨hall.1, hall.2.1⟩⟩
  · intro c' sid' filter' hs
    exact hR.valid c' sid' filter' ((hsub c' sid' filter').mp hs).1
  · intro c' r' sid' filter' hr' hf'
    rw [dropSubscription, AList.lookup_modify] at hr'
    obtain ⟨r₀, hr₀, rfl⟩ := Option.map_eq_some_iff.mp hr'
    by_cases hcc : c' = c
    · simp only [if_pos hcc] at hf' ⊢
      by_cases hss : sid' = sid
      · subst sid'
        rw [AList.lookup_erase] at hf'
        cases hf'
      · rw [AList.lookup_erase_ne hss] at hf'
        exact hR.tenant c' r₀ sid' filter' hr₀ hf'
    · simp only [if_neg hcc] at hf' ⊢
      exact hR.tenant c' r₀ sid' filter' hr₀ hf'

/-- Removing a list of subscriptions keeps what any single removal keeps. -/
theorem removeRoutes_induction {P : Routes → Prop} (c : ConnectionId)
    (hstep : ∀ sid filter routes, P routes → P (removeRoute c sid filter routes))
    (l : List (SubscriptionId × RouteFilter)) {routes : Routes} (h : P routes) :
    P (removeRoutes c l routes) := by
  induction l generalizing routes with
  | nil => exact h
  | cons e l ih => exact ih (hstep e.1 e.2 routes h)

theorem mem_removeRoutes {c c' : ConnectionId} {sid' : SubscriptionId} {k : RouteKey}
    (l : List (SubscriptionId × RouteFilter)) {routes : Routes} :
    sid' ∈ items (removeRoutes c l routes) k c' ↔
      sid' ∈ items routes k c' ∧
        ¬ (c' = c ∧ ∃ filter, (sid', filter) ∈ l ∧ RouteKey.ofFilter filter = k) := by
  induction l generalizing routes with
  | nil => simp [removeRoutes]
  | cons e l ih =>
    obtain ⟨sid, filter⟩ := e
    change sid' ∈ items (removeRoutes c l (removeRoute c sid filter routes)) k c' ↔ _
    rw [ih, mem_removeRoute]
    constructor
    · rintro ⟨⟨hmem, hne⟩, hrest⟩
      refine ⟨hmem, ?_⟩
      rintro ⟨hc, f, hf, hk⟩
      rcases List.mem_cons.mp hf with heq | hf
      · obtain ⟨rfl, rfl⟩ := Prod.mk.inj heq
        exact hne ⟨hc, rfl, hk⟩
      · exact hrest ⟨hc, f, hf, hk⟩
    · rintro ⟨hmem, hall⟩
      refine ⟨⟨hmem, ?_⟩, ?_⟩
      · rintro ⟨hc, rfl, hk⟩
        exact hall ⟨hc, filter, List.mem_cons_self .., hk⟩
      · rintro ⟨hc, f, hf, hk⟩
        exact hall ⟨hc, f, List.mem_cons_of_mem _ hf, hk⟩

theorem consistent_unregister (order : IterOrder (SubscriptionId × RouteFilter))
    (c : ConnectionId) {R : Registry} (hR : Consistent R) :
    Consistent (R.unregister order c) := by
  unfold unregister
  split
  · exact hR
  · rename_i r hr
    have hlookup : ∀ c' r', (R.connections.erase c).lookup c' = some r' →
        c' ≠ c ∧ R.connections.lookup c' = some r' := by
      intro c' r' h
      by_cases hcc : c' = c
      · subst c'
        rw [AList.lookup_erase] at h
        cases h
      · rw [AList.lookup_erase_ne hcc] at h
        exact ⟨hcc, h⟩
    refine ⟨fun k c' sid' => ?_, ?_, ?_, ?_, ?_⟩
    · rw [mem_removeRoutes, hR.mem_iff]
      constructor
      · rintro ⟨⟨f, ⟨r', hr', hf⟩, hk⟩, hne⟩
        have hcc : c' ≠ c := by
          rintro rfl
          rw [hr] at hr'
          rw [← Option.some.inj hr'] at hf
          exact hne ⟨rfl, f, (order.mem_arrange).mpr (AList.mem_pairs.mpr hf), hk⟩
        exact ⟨f, ⟨r', by rwa [AList.lookup_erase_ne hcc], hf⟩, hk⟩
      · rintro ⟨f, ⟨r', hr', hf⟩, hk⟩
        obtain ⟨hcc, hr'⟩ := hlookup c' r' hr'
        exact ⟨⟨f, ⟨r', hr', hf⟩, hk⟩, fun h => hcc h.1⟩
    · exact removeRoutes_induction (P := fun routes => ∀ k c, (items routes k c).Nodup) c
        (fun sid filter _ h => nodup_removeRoute h c sid filter) _ hR.nodup
    · exact removeRoutes_induction (P := fun routes => Tidy routes) c
        (fun sid filter _ h => tidy_prune_discard h _ c sid) _ hR.tidy
    · rintro c' sid' filter' ⟨r', hr', hf'⟩
      exact hR.valid c' sid' filter' ⟨r', (hlookup c' r' hr').2, hf'⟩
    · intro c' r' sid' filter' hr' hf'
      exact hR.tenant c' r' sid' filter' (hlookup c' r' hr').2 hf'

theorem Reachable.consistent {config : RouterConfig} {R : Registry} (h : Reachable config R) :
    Consistent R := by
  induction h with
  | new => exact consistent_new
  | register _ hc hreg ih => exact consistent_register ih hc hreg
  | subscribe _ hvalid hsub ih => exact consistent_subscribe ih hvalid hsub
  | unsubscribe _ hunsub ih => exact consistent_unsubscribe ih hunsub
  | unregister order c _ ih => exact consistent_unregister order c ih

/-- Without connections the index is empty. -/
theorem Consistent.routes_eq_empty {R : Registry} (hR : Consistent R)
    (h : R.connections = ∅) : R.routes = ∅ := by
  apply eq_empty_of_items hR.tidy
  intro k c
  apply List.eq_nil_iff_forall_not_mem.mpr
  intro sid hmem
  obtain ⟨f, ⟨r, hr, _⟩, _⟩ := (hR.mem_iff k c sid).mp hmem
  rw [h, AList.lookup_empty] at hr
  cases hr

end KafkaEdgeRouter.Registry
