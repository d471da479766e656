import KafkaEdgeRouter.DispatchMatching
import KafkaEdgeRouter.RouterRemovals

/-!
# Collecting the matching subscriptions

The first half of a dispatch, without the mutation lock. Everything it collects leads to a
subscription that was not ended before the dispatch began. For connections that nobody else touches
it collects exactly what stands under the candidate keys.
-/

namespace KafkaEdgeRouter.Router

open History InvertedIndex

structure Collected (call : CallId) (message : RoutedMessage) (D : ConnectionId → Prop)
    (s₀ : Shared) (keys : List RouteKey) (found : Matches) (h : List Event) : Prop where
  nonempty : ∀ c ids, found.lookup c = some ids → ids ≠ []
  served : ∀ c ids, found.lookup c = some ids → ∀ sid ∈ ids, Found call message c h sid
  exact : ∀ c, D c → (found.lookup c).getD [] = gather s₀.routes c keys

section Collected

variable {call : CallId} {message : RoutedMessage} {D : ConnectionId → Prop} {s₀ : Shared}
  {keys : List RouteKey} {found : Matches} {h : List Event}

theorem collected_empty : Collected call message D s₀ [] ∅ h :=
  ⟨by simp, by simp, fun _ _ => rfl⟩

theorem Collected.append (hc : Collected call message D s₀ keys found h) {request : Request}
    (hb : .began call request ∈ h) (l : List Event) :
    Collected call message D s₀ keys found (h ++ l) := by
  have hbegan : ∃ e ∈ h, Event.isBegan call e = true := ⟨_, hb, by simp [Event.isBegan]⟩
  exact ⟨hc.nonempty, fun c ids hl sid hmem => (hc.served c ids hl sid hmem).append hbegan l,
    hc.exact⟩

theorem items_of_lookup_none {routes : Routes} {k : RouteKey} (hl : routes.lookup k = none)
    (c : ConnectionId) : items routes k c = [] := by
  simp [items, hl]

theorem items_of_bucket {routes : Routes} {k : RouteKey}
    {bucket : Bucket ConnectionId SubscriptionId} (hl : routes.lookup k = some bucket)
    (c : ConnectionId) : items routes k c = (bucket.lookup c).getD [] := by
  simp [items, hl]

theorem Collected.skip {s : Shared} (hc : Collected call message D s₀ keys found h)
    (hk : Kept D s₀ s) {k : RouteKey} (hl : s.routes.lookup k = none) :
    Collected call message D s₀ (keys ++ [k]) found h := by
  refine ⟨hc.nonempty, hc.served, fun c hD => ?_⟩
  rw [gather_concat, ← (hk c hD).items k, items_of_lookup_none hl, hc.exact c hD]
  rfl

theorem Collected.bucket {s : Shared} (hc : Collected call message D s₀ keys found s.history)
    (hB : Base s) (hk : Kept D s₀ s) {k : RouteKey}
    (hkey : k ∈ RouteKey.candidates message.metadata)
    {bucket : Bucket ConnectionId SubscriptionId} (hl : s.routes.lookup k = some bucket) :
    Collected call message D s₀ (keys ++ [k]) (collect bucket found) s.history := by
  have hcases : ∀ c, (collect bucket found).lookup c = found.lookup c ∧ bucket.lookup c = none ∨
      ∃ ids, bucket.lookup c = some ids ∧
        (collect bucket found).lookup c = some (mergeIds ((found.lookup c).getD []) ids) := by
    intro c
    cases hb : bucket.lookup c with
    | none => exact Or.inl ⟨lookup_collect_none found hb, rfl⟩
    | some ids => exact Or.inr ⟨ids, rfl, lookup_collect_some found hb⟩
  refine ⟨fun c ids hids => ?_, fun c ids hids sid hmem => ?_, fun c hD => ?_⟩
  · rcases hcases c with ⟨heq, _⟩ | ⟨new, hnew, heq⟩
    · exact hc.nonempty c ids (heq ▸ hids)
    · rw [heq] at hids
      rw [← Option.some.inj hids]
      exact mergeIds_ne_nil (hB.filled k bucket c new hl hnew)
  · rcases hcases c with ⟨heq, _⟩ | ⟨new, hnew, heq⟩
    · exact hc.served c ids (heq ▸ hids) sid hmem
    · rw [heq] at hids
      rw [← Option.some.inj hids] at hmem
      rcases mem_mergeIds.mp hmem with hmem | hmem
      · cases hf : found.lookup c with
        | none => simp [hf] at hmem
        | some old =>
          rw [hf, Option.getD_some] at hmem
          exact hc.served c old hf sid hmem
      · refine hB.found hkey ?_
        rwa [items_eq_of_lookup hl hnew]
  · rw [gather_concat, ← (hk c hD).items k, items_of_bucket hl, ← hc.exact c hD]
    rcases hcases c with ⟨heq, hnone⟩ | ⟨new, hnew, heq⟩
    · rw [heq, hnone]
      rfl
    · rw [heq, hnew]
      rfl

end Collected

section Rules

variable {config : RouterConfig} {touches : ℕ → ConnectionId → Prop} {call : CallId}
  {reserved D : ConnectionId → Prop} {s₀ s : Shared} {own : List Event} {request : Request}
  {P : List Event → Prop} {α β : Type} {Q : α → Shared → Prop}

/-- Without the lock a call keeps its own events, the connections nobody else touches and what it
has read off the history. -/
theorem stable_history (hothers : ∀ u c, u ≠ call.thread → D c → ¬ touches u c)
    (hbegan : .began call request ∈ own)
    (hP : ∀ h l, .began call request ∈ h → P h → P (h ++ l)) :
    (contract config touches reserved call).Stable
      (fun s => (Ready call own s ∧ Kept D s₀ s) ∧ P s.history) := by
  rintro s s' hi hi' ⟨u, hu, hg⟩ ⟨hs, hp⟩
  refine ⟨(stable_ready own).and (stable_kept s₀ hothers) s s' hi hi' ⟨u, hu, hg⟩ hs, ?_⟩
  obtain ⟨events, heq, _⟩ := hg.history
  rw [heq]
  exact hP _ events (mem_history_of_own hs.1.own hbegan) hp

theorem guarantee_refl (t : ℕ) (s : Shared) : Guarantee touches t s s :=
  ⟨Or.inl rfl, fun _ => rfl, ⟨[], by simp, by simp, by simp⟩, fun _ h => h,
    fun c _ => Same.refl c s⟩

theorem sat_ready_read (hothers : ∀ u c, u ≠ call.thread → D c → ¬ touches u c)
    (hbegan : .began call request ∈ own)
    (hP : ∀ h l, .began call request ∈ h → P h → P (h ++ l))
    {f : Shared → β} {k : β → RouterProg α} (hs : Ready call own s) (hk : Kept D s₀ s)
    (hp : P s.history)
    (h : ∀ s', Inv config reserved s' → Ready call own s' → Kept D s₀ s' → P s'.history →
      (k (f s')).Sat (contract config touches reserved call) Q s') :
    (Prog.read f >>= k).Sat (contract config touches reserved call) Q s := by
  refine Prog.sat_access (stable_history hothers hbegan hP) ⟨⟨hs, hk⟩, hp⟩ ?_
  rintro s' hinv ⟨⟨hs', hk'⟩, hp'⟩
  exact ⟨hinv, guarantee_refl _ s', h s' hinv hs' hk' hp'⟩

theorem sat_ready_count (hothers : ∀ u c, u ≠ call.thread → D c → ¬ touches u c)
    {f : Counters → Counters} {k : Unit → RouterProg α} (hs : Ready call own s) (hk : Kept D s₀ s)
    (h : ∀ s', Inv config reserved s' → Ready call own s' → Kept D s₀ s' →
      (k ()).Sat (contract config touches reserved call) Q s') :
    (Prog.modify (Shared.count f) >>= k).Sat (contract config touches reserved call) Q s := by
  refine Prog.sat_access ((stable_ready own).and (stable_kept s₀ hothers)) ⟨hs, hk⟩ ?_
  rintro s' hinv ⟨hs', hk'⟩
  have hinv' : Inv config reserved (s'.count f) :=
    ⟨hinv.base.of_eq rfl rfl rfl rfl, hinv.reachable, hinv.reserved⟩
  refine ⟨hinv', ⟨Or.inl rfl, fun _ => rfl, ⟨[], by simp [Shared.count], by simp, by simp⟩,
    fun _ h => h, fun c _ => ⟨rfl, rfl, fun _ => rfl⟩⟩, ?_⟩
  exact h _ hinv' ⟨hs'.lock, hs'.own⟩ (fun c hc => (hk' c hc).trans ⟨rfl, rfl, fun _ => rfl⟩)

theorem sat_collectCandidates {message : RoutedMessage}
    (hothers : ∀ u c, u ≠ call.thread → D c → ¬ touches u c)
    (hbegan : .began call request ∈ own) (rest : List RouteKey) {keys : List RouteKey}
    (hrest : ∀ k ∈ rest, k ∈ RouteKey.candidates message.metadata) {found : Matches}
    {next : Matches → RouterProg α} (hinv : Inv config reserved s) (hs : Ready call own s)
    (hk : Kept D s₀ s) (hc : Collected call message D s₀ keys found s.history)
    (h : ∀ found' s', Inv config reserved s' → Ready call own s' → Kept D s₀ s' →
      Collected call message D s₀ (keys ++ rest) found' s'.history →
      (next found').Sat (contract config touches reserved call) Q s') :
    (collectCandidates rest found >>= next).Sat (contract config touches reserved call) Q s := by
  induction rest generalizing keys found s with
  | nil =>
    rw [List.append_nil] at h
    exact h found s hinv hs hk hc
  | cons k rest ih =>
    have hrest' : ∀ k' ∈ rest, k' ∈ RouteKey.candidates message.metadata :=
      fun k' hk' => hrest k' (List.mem_cons_of_mem _ hk')
    have hassoc : keys ++ k :: rest = keys ++ [k] ++ rest := by simp
    rw [hassoc] at h
    rw [collectCandidates, Prog.bind_assoc]
    refine sat_ready_read hothers hbegan (fun h l hb hc => Collected.append hc hb l) hs hk hc ?_
    intro s₁ hinv₁ hs₁ hk₁ hc₁
    cases hl : s₁.routes.lookup k with
    | none => exact ih hrest' hinv₁ hs₁ hk₁ (hc₁.skip hk₁ hl) h
    | some bucket =>
      exact ih hrest' hinv₁ hs₁ hk₁
        (hc₁.bucket hinv₁.base hk₁ (hrest k (List.mem_cons_self ..)) hl) h

end Rules
end KafkaEdgeRouter.Router
