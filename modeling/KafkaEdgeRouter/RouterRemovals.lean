import KafkaEdgeRouter.RouterMutations

/-!
# Removals keep the protocol

Unsubscribing and unregistering take the entry out first and then go through the route index, two
accesses for every subscription. When the lock is given back the index holds nothing that the
removal ended, so that no later dispatch can find it.
-/

namespace KafkaEdgeRouter.Router

open History InvertedIndex

variable {config : RouterConfig} {touches : ℕ → ConnectionId → Prop} {call : CallId}
  {reserved D : ConnectionId → Prop} {s₀ s : Shared} {own : List Event} {R : Registry}
  {c : ConnectionId} {sid : SubscriptionId} {filter : RouteFilter} {α : Type}
  {Q : α → Shared → Prop}

/-- Taking items of one connection out of the index is a step about that connection. -/
theorem lockedStep_routes (hB : Base s) {r : Routes} (hfilled : Filled r)
    (hsub : ∀ k c' sid', sid' ∈ items r k c' → sid' ∈ items s.routes k c')
    (hsame : ∀ k c', c' ≠ c → items r k c' = items s.routes k c') :
    LockedStep call (fun c' => c' = c) [] { s.registry with routes := r } s
      { s with routes := r } :=
  ⟨hB.routes hfilled hsub, rfl, rfl, by simp, by simp, fun _ h => h,
    fun c' hne => ⟨rfl, rfl, fun k => hsame k c' hne⟩⟩

theorem sat_removeFromRoute (hr : Rights touches call D (fun c' => c' = c))
    {k : Unit → RouterProg α} (hs : Holding call own R s) (hk : Kept D s₀ s)
    (h : ∀ s', Inv config reserved s' →
      Holding call own { R with routes := Registry.removeRoute c sid filter R.routes } s' →
      Kept D s₀ s' → (k ()).Sat (contract config touches reserved call) Q s') :
    (removeFromRoute c sid filter >>= k).Sat
      (contract config touches reserved call) Q s := by
  unfold removeFromRoute
  rw [Prog.bind_assoc]
  refine sat_locked hr hs hk (fun s₁ hB₁ hs₁ => ⟨[], _, lockedStep_routes hB₁
    (filled_discard hB₁.filled (RouteKey.ofFilter filter) c sid) ?_ ?_, fun s₂ _ hs₂ hk₂ => ?_⟩)
  · intro k c' sid' hmem
    rw [items_discard] at hmem
    split_ifs at hmem with hkc
    · obtain ⟨rfl, rfl⟩ := hkc
      exact (List.mem_filter.mp hmem).1
    · exact hmem
  · intro k c' hne
    rw [items_discard, if_neg (fun h => hne h.2)]
  refine sat_locked hr hs₂ hk₂ (fun s₃ hB₃ hs₃ => ⟨[], _, lockedStep_routes hB₃
    (filled_prune hB₃.filled (RouteKey.ofFilter filter)) ?_ ?_, fun s₄ hinv₄ hs₄ hk₄ => ?_⟩)
  · intro k c' sid' hmem
    rwa [items_prune] at hmem
  · intro k c' _
    rw [items_prune]
  refine h s₄ hinv₄ ?_ hk₄
  have hroutes₁ : s₁.routes = R.routes := by rw [← hs₁.registry]; rfl
  have hroutes₃ : s₃.routes = R.routes.discard (RouteKey.ofFilter filter) c sid := by
    rw [← hroutes₁]
    exact congrArg Registry.routes hs₃.registry
  simpa [hs₃.registry, hs₁.registry, hroutes₃, Registry.removeRoute] using hs₄

theorem sat_removeAllFromRoutes (hr : Rights touches call D (fun c' => c' = c))
    (l : List (SubscriptionId × RouteFilter)) {k : Unit → RouterProg α}
    (hinv : Inv config reserved s) (hs : Holding call own R s) (hk : Kept D s₀ s)
    (h : ∀ s', Inv config reserved s' →
      Holding call own { R with routes := Registry.removeRoutes c l R.routes } s' →
      Kept D s₀ s' → (k ()).Sat (contract config touches reserved call) Q s') :
    (removeAllFromRoutes c l >>= k).Sat (contract config touches reserved call) Q s := by
  induction l generalizing R s with
  | nil => exact h s hinv hs hk
  | cons e l ih =>
    rw [removeAllFromRoutes, Prog.bind_assoc]
    exact sat_removeFromRoute hr hs hk (fun s' hinv' hs' hk' => ih hinv' hs' hk' h)

def unsubscribeEvents (call : CallId) (c : ConnectionId) (sid : SubscriptionId) :
    Except CoreError Unit → List Event
  | .ok () => [.removalReturned call c (some sid)]
  | .error _ => []

theorem takeSubscription_cases (c : ConnectionId) (sid : SubscriptionId) (s : Shared) :
    (∃ e, takeSubscription c sid s = (.error e, s)) ∨
    ∃ r filter, s.registry.connections.lookup c = some r ∧
      r.subscriptions.lookup sid = some filter ∧
      takeSubscription c sid s = (.ok (filter, r.protocol),
        { s with
          connections := s.connections.modify c (fun connection =>
            { connection with subscriptions := connection.subscriptions.erase sid }) }) := by
  unfold takeSubscription
  cases hl : s.connections.lookup c with
  | none => exact Or.inl ⟨_, rfl⟩
  | some connection =>
    cases hf : connection.subscriptions.lookup sid with
    | none => exact Or.inl ⟨.subscriptionNotFound, by simp only [hf]⟩
    | some filter =>
      refine Or.inr ⟨connection.toRegistration, filter, ?_, hf, by simp only [hf]⟩
      rw [registry_lookup, hl]
      rfl

theorem complete_unsubscribe {R' : Registry} (hR : Registry.Reachable config R)
    (h : R.unsubscribe c sid = .ok R') :
    Complete config call R' [.removalReturned call c (some sid)] := by
  have hR' := Registry.Reachable.unsubscribe hR h
  refine ⟨hR', fun e he => ⟨c, some sid, List.mem_singleton.mp he, fun sid' hsel k hmem => ?_⟩⟩
  obtain rfl : sid = sid' := by simpa using hsel
  obtain ⟨f, hsub, _⟩ := (hR'.consistent.mem_iff k c sid).mp hmem
  obtain ⟨r, filter, _, _, rfl⟩ := Registry.unsubscribe_cases h
  exact ((Registry.subscribed_dropSubscription rfl c sid f).mp hsub).2 ⟨rfl, rfl⟩

theorem sat_unsubscribe (hr : Rights touches call D (fun c' => c' = c)) (hs : Ready call own s)
    (hk : Kept D s₀ s) :
    (unsubscribe call c sid).Sat (contract config touches reserved call)
      (Returns call D s₀ (fun result own' => own' = own ++ unsubscribeEvents call c sid result))
      s := by
  refine sat_withMutationLock hr hs hk (fun R s₁ hR _ hs₁ hk₁ => ?_)
  refine sat_locked hr hs₁ hk₁ (fun s₂ hB₂ hs₂ => ?_)
  rcases takeSubscription_cases c sid s₂ with ⟨e, heq⟩ | ⟨r, filter, hlookup, hf, heq⟩
  · rw [heq]
    refine ⟨[], R, hs₂.registry ▸ lockedStep_refl hB₂, fun s₃ _ hs₃ hk₃ => ?_⟩
    exact sat_holding_ret hr hs₃ hk₃ ⟨hR, by simp⟩ (by simp [unsubscribeEvents])
  rw [heq]
  refine ⟨[], _, lockedStep_connection hB₂ (g := fun r =>
      { r with subscriptions := r.subscriptions.erase sid }) (fun _ => rfl) (fun _ => rfl),
      fun s₃ hinv₃ hs₃ hk₃ => ?_⟩
  refine sat_removeFromRoute hr hs₃ hk₃ (fun s₄ _ hs₄ hk₄ => ?_)
  refine sat_locked hr hs₄ hk₄ (fun s₅ hB₅ hs₅ => ⟨_, _,
      lockedStep_gauge hB₅ id (Gauges.recordSubscriptionRemoved r.protocol),
      fun s₆ _ hs₆ hk₆ => ?_⟩)
  have hunsubscribe : R.unsubscribe c sid = .ok { s₅.registry with
      gauges := s₅.registry.gauges.recordSubscriptionRemoved r.protocol } := by
    rw [hs₂.registry] at hlookup
    rw [hs₅.registry, hs₂.registry]
    simp only [Registry.unsubscribe, hlookup, hf, Registry.dropSubscription]
  exact sat_holding_ret hr hs₆ hk₆ (complete_unsubscribe hR hunsubscribe)
    (by simp [unsubscribeEvents])

def unregisterEvents (call : CallId) (c : ConnectionId) (removed : Bool) : List Event :=
  if removed then [.removalReturned call c none] else []

theorem takeConnection_cases (c : ConnectionId) (s : Shared) :
    (s.registry.connections.lookup c = none ∧ takeConnection c s = (none, s)) ∨
    ∃ r, s.registry.connections.lookup c = some r ∧
      takeConnection c s = (some r, { s with connections := s.connections.erase c }) := by
  unfold takeConnection
  rw [registry_lookup]
  cases hl : s.connections.lookup c with
  | none => exact Or.inl ⟨rfl, rfl⟩
  | some connection => exact Or.inr ⟨connection.toRegistration, rfl, rfl⟩

theorem lockedStep_takeConnection (hB : Base s) :
    LockedStep call (fun c' => c' = c) []
      { s.registry with connections := s.registry.connections.erase c } s
      { s with connections := s.connections.erase c } := by
  refine ⟨hB.connections (fun c' connection hl => ⟨connection, ?_, rfl⟩), rfl, ?_, by simp,
    by simp, fun _ h => h, fun c' hne => ⟨AList.lookup_erase_ne hne, rfl, fun _ => rfl⟩⟩
  · by_cases hcc : c' = c
    · subst c'
      rw [AList.lookup_erase] at hl
      cases hl
    · rwa [AList.lookup_erase_ne hcc] at hl
  · simp only [Shared.registry, AList.mapValues_erase]

theorem complete_unregister (call : CallId) (hR : Registry.Reachable config R)
    (order : IterOrder (SubscriptionId × RouteFilter)) {r : Registration}
    (hr : R.connections.lookup c = some r) :
    Complete config call (R.unregister order c) [.removalReturned call c none] := by
  have hR' := Registry.Reachable.unregister order c hR
  refine ⟨hR', fun e he => ⟨c, none, List.mem_singleton.mp he, fun sid _ k hmem => ?_⟩⟩
  obtain ⟨f, ⟨r', hlookup, _⟩, _⟩ := (hR'.consistent.mem_iff k c sid).mp hmem
  simp [Registry.unregister, hr] at hlookup

theorem sat_unregisterConnection (hr : Rights touches call D (fun c' => c' = c))
    (order : HashOrder) (hs : Ready call own s) (hk : Kept D s₀ s) :
    (unregisterConnection call order c).Sat (contract config touches reserved call)
      (Returns call D s₀ (fun removed own' => own' = own ++ unregisterEvents call c removed))
      s := by
  refine sat_withMutationLock hr hs hk (fun R s₁ hR _ hs₁ hk₁ => ?_)
  refine sat_locked hr hs₁ hk₁ (fun s₂ hB₂ hs₂ => ?_)
  rcases takeConnection_cases c s₂ with ⟨_, heq⟩ | ⟨r, hlookup, heq⟩
  · rw [heq]
    refine ⟨[], R, hs₂.registry ▸ lockedStep_refl hB₂, fun s₃ _ hs₃ hk₃ => ?_⟩
    exact sat_holding_ret hr hs₃ hk₃ ⟨hR, by simp⟩ (by simp [unregisterEvents])
  rw [heq]
  refine ⟨[], _, lockedStep_takeConnection hB₂, fun s₃ hinv₃ hs₃ hk₃ => ?_⟩
  refine sat_removeAllFromRoutes hr _ hinv₃ hs₃ hk₃ (fun s₄ _ hs₄ hk₄ => ?_)
  refine sat_locked hr hs₄ hk₄ (fun s₅ hB₅ hs₅ => ⟨_, _,
      lockedStep_gauge hB₅ id (Gauges.recordProtocolClosed r.protocol r.subscriptions.size),
      fun s₆ _ hs₆ hk₆ => ?_⟩)
  rw [hs₂.registry] at hlookup
  have hcomplete := complete_unregister call hR (order.subscriptions c) hlookup
  refine sat_holding_ret hr hs₆ hk₆ ?_ (by simp [unregisterEvents])
  rw [hs₅.registry, hs₂.registry, if_pos rfl]
  simpa only [Registry.unregister, hlookup] using hcomplete

end KafkaEdgeRouter.Router
