import KafkaEdgeRouter.AssociationMap

/-!
# A two-level inverted index

Under every key the index holds a bucket that maps owners to lists of items. An item is pushed
under a key and an owner, creating what is missing. Removal is done in two accesses: `discard`
takes the item out of its list and drops the list when it is empty, `prune` drops the bucket when
it is empty. A tidy index has neither empty buckets nor empty lists; both `push` and a `discard`
followed by its `prune` keep it tidy.
-/

namespace KafkaEdgeRouter

abbrev Bucket (C S : Type) := AList (fun _ : C => List S)

abbrev InvertedIndex (K C S : Type) := AList (fun _ : K => Bucket C S)

namespace InvertedIndex

variable {K C S : Type} [DecidableEq K] [DecidableEq C]

/-- The items of one owner under one key. -/
def items (r : InvertedIndex K C S) (k : K) (c : C) : List S :=
  ((r.lookup k).bind (fun b => b.lookup c)).getD []

def push (k : K) (c : C) (s : S) (r : InvertedIndex K C S) : InvertedIndex K C S :=
  let bucket := (r.lookup k).getD ∅
  r.insert k (bucket.insert c ((bucket.lookup c).getD [] ++ [s]))

def prune (k : K) (r : InvertedIndex K C S) : InvertedIndex K C S :=
  r.removeIf k (fun bucket => bucket.entries.isEmpty)

theorem items_eq_of_lookup {r : InvertedIndex K C S} {k : K} {c : C} {b : Bucket C S} {l : List S}
    (hb : r.lookup k = some b) (hl : b.lookup c = some l) : items r k c = l := by
  simp only [items, hb, Option.bind_some, hl, Option.getD_some]

theorem items_push (r : InvertedIndex K C S) (k k' : K) (c c' : C) (s : S) :
    items (push k c s r) k' c' = if k' = k ∧ c' = c then items r k c ++ [s] else items r k' c' := by
  by_cases hk : k' = k
  · subst k'
    by_cases hc : c' = c
    · subst c'
      simp only [items, push, AList.lookup_insert, Option.bind_some, Option.getD_some,
        and_self, if_true]
      cases r.lookup k <;> rfl
    · simp only [items, push, AList.lookup_insert, Option.bind_some, AList.lookup_insert_ne hc, hc,
        and_false, if_false]
      cases r.lookup k <;> rfl
  · simp only [items, push, AList.lookup_insert_ne hk, hk, false_and, if_false]

theorem items_prune (r : InvertedIndex K C S) (k k' : K) (c : C) :
    items (prune k r) k' c = items r k' c := by
  by_cases hk : k' = k
  · subst k'
    simp only [items, prune, AList.lookup_removeIf_self]
    cases h : r.lookup k with
    | none => rfl
    | some b =>
      by_cases he : b.entries.isEmpty = true
      · have hb : b = ∅ := AList.ext (List.isEmpty_iff.mp he)
        simp [Option.filter, hb]
      · simp [Option.filter, he]
  · simp only [items, prune, AList.lookup_removeIf_ne hk]

/-- No list of items is empty. -/
def Filled (r : InvertedIndex K C S) : Prop :=
  ∀ k b c l, r.lookup k = some b → b.lookup c = some l → l ≠ []

/-- No bucket and no list of items is empty. -/
structure Tidy (r : InvertedIndex K C S) : Prop where
  filled : Filled r
  bucket_ne : ∀ k b, r.lookup k = some b → b ≠ ∅

theorem tidy_empty : Tidy (∅ : InvertedIndex K C S) :=
  ⟨fun _ _ _ _ h => by simp at h, by simp⟩

theorem insert_ne_empty {V : Type} (c : C) (v : V) (b : AList (fun _ : C => V)) :
    b.insert c v ≠ ∅ := by
  intro h
  have hl := AList.lookup_insert (a := c) (b := v) b
  rw [h, AList.lookup_empty] at hl
  cases hl

theorem filled_push {r : InvertedIndex K C S} (h : Filled r) (k : K) (c : C) (s : S) :
    Filled (push k c s r) := by
  intro k' b c' l hb hl
  by_cases hk : k' = k
  · subst k'
    rw [push, AList.lookup_insert] at hb
    rw [← Option.some.inj hb] at hl
    by_cases hc : c' = c
    · subst c'
      rw [AList.lookup_insert] at hl
      rw [← Option.some.inj hl]
      exact List.append_ne_nil_of_right_ne_nil _ (List.cons_ne_nil s [])
    · rw [AList.lookup_insert_ne hc] at hl
      cases hr : r.lookup k with
      | none => simp [hr] at hl
      | some b₀ =>
        rw [hr, Option.getD_some] at hl
        exact h k b₀ c' l hr hl
  · rw [push, AList.lookup_insert_ne hk] at hb
    exact h k' b c' l hb hl

theorem tidy_push {r : InvertedIndex K C S} (h : Tidy r) (k : K) (c : C) (s : S) :
    Tidy (push k c s r) := by
  refine ⟨filled_push h.filled k c s, fun k' b hb => ?_⟩
  by_cases hk : k' = k
  · subst k'
    rw [push, AList.lookup_insert] at hb
    rw [← Option.some.inj hb]
    exact insert_ne_empty _ _ _
  · rw [push, AList.lookup_insert_ne hk] at hb
    exact h.bucket_ne k' b hb

omit [DecidableEq C] in
theorem lookup_prune {r : InvertedIndex K C S} {k k' : K} {b : Bucket C S}
    (h : (prune k r).lookup k' = some b) : r.lookup k' = some b ∧ (k' = k → b ≠ ∅) := by
  by_cases hk : k' = k
  · subst k'
    rw [prune, AList.lookup_removeIf_self] at h
    obtain ⟨hb, he⟩ := Option.filter_eq_some_iff.mp h
    refine ⟨hb, fun _ hempty => ?_⟩
    rw [hempty] at he
    exact Bool.false_ne_true he
  · rw [prune, AList.lookup_removeIf_ne hk] at h
    exact ⟨h, fun heq => absurd heq hk⟩

theorem filled_prune {r : InvertedIndex K C S} (h : Filled r) (k : K) : Filled (prune k r) :=
  fun k' b c l hb hl => h k' b c l (lookup_prune hb).1 hl

theorem lookup_eq_of_filled {r : InvertedIndex K C S} (h : Filled r) (k : K) (c : C) :
    (r.lookup k).bind (fun b => b.lookup c) = if items r k c = [] then none
      else some (items r k c) := by
  unfold items
  cases hr : r.lookup k with
  | none => rfl
  | some b =>
    cases hb : b.lookup c with
    | none => simp [hb]
    | some l => simp [hb, h k b c l hr hb]

theorem Tidy.mem_iff {r : InvertedIndex K C S} (h : Tidy r) (k : K) :
    k ∈ r ↔ ∃ c, items r k c ≠ [] := by
  constructor
  · intro hk
    obtain ⟨b, hb⟩ := AList.exists_lookup hk
    by_contra hnone
    push Not at hnone
    apply h.bucket_ne k b hb
    apply AList.eq_empty_of_lookup
    intro c
    have hc := lookup_eq_of_filled h.filled k c
    rwa [hb, Option.bind_some, if_pos (hnone c)] at hc
  · rintro ⟨c, hc⟩
    cases hb : r.lookup k with
    | none => exact absurd (by simp [items, hb]) hc
    | some b => exact AList.mem_of_lookup hb

/-- A tidy index without items is empty. -/
theorem eq_empty_of_items {r : InvertedIndex K C S} (h : Tidy r) (hi : ∀ k c, items r k c = []) :
    r = ∅ := by
  apply AList.eq_empty_of_lookup
  intro k
  rw [AList.lookup_eq_none, h.mem_iff]
  exact fun ⟨c, hc⟩ => hc (hi k c)

variable [DecidableEq S]

def discardFrom (c : C) (s : S) (bucket : Bucket C S) : Bucket C S :=
  match bucket.lookup c with
  | none => bucket
  | some items =>
    if (items.filter (· ≠ s)).isEmpty then bucket.erase c
    else bucket.modify c (fun _ => items.filter (· ≠ s))

def discard (k : K) (c : C) (s : S) (r : InvertedIndex K C S) : InvertedIndex K C S :=
  r.modify k (discardFrom c s)

theorem lookup_discardFrom (c c' : C) (s : S) (b : Bucket C S) :
    ((discardFrom c s b).lookup c').getD [] =
      if c' = c then ((b.lookup c).getD []).filter (· ≠ s) else (b.lookup c').getD [] := by
  unfold discardFrom
  cases h : b.lookup c with
  | none =>
    by_cases hc : c' = c
    · subst c'
      simp [h]
    · simp [hc]
  | some l =>
    by_cases he : (l.filter (· ≠ s)).isEmpty = true
    · simp only [he]
      by_cases hc : c' = c
      · subst c'
        rw [if_pos trivial, if_pos rfl, AList.lookup_erase, Option.getD_some,
          List.isEmpty_iff.mp he]
        rfl
      · rw [if_pos trivial, if_neg hc, AList.lookup_erase_ne hc]
    · simp only [he]
      by_cases hc : c' = c
      · subst c'
        rw [if_neg Bool.false_ne_true, if_pos rfl, AList.lookup_modify_self, h]
        rfl
      · rw [if_neg Bool.false_ne_true, if_neg hc, AList.lookup_modify_ne hc]

theorem items_discard (r : InvertedIndex K C S) (k k' : K) (c c' : C) (s : S) :
    items (discard k c s r) k' c' =
      if k' = k ∧ c' = c then (items r k c).filter (· ≠ s) else items r k' c' := by
  by_cases hk : k' = k
  · subst k'
    cases h : r.lookup k with
    | none => simp [items, discard, h]
    | some b =>
      simp only [items, discard, AList.lookup_modify_self, h, Option.map_some, Option.bind_some,
        lookup_discardFrom, true_and]
  · simp only [items, discard, AList.lookup_modify_ne hk, hk, false_and, if_false]

theorem discardFrom_items_ne {c : C} {s : S} {b : Bucket C S}
    (h : ∀ c l, b.lookup c = some l → l ≠ []) {c' : C} {l : List S}
    (hl : (discardFrom c s b).lookup c' = some l) : l ≠ [] := by
  unfold discardFrom at hl
  cases hb : b.lookup c with
  | none =>
    rw [hb] at hl
    exact h c' l hl
  | some l₀ =>
    simp only [hb] at hl
    split_ifs at hl with he
    · by_cases hc : c' = c
      · subst c'
        rw [AList.lookup_erase] at hl
        cases hl
      · rw [AList.lookup_erase_ne hc] at hl
        exact h c' l hl
    · by_cases hc : c' = c
      · subst c'
        rw [AList.lookup_modify_self, hb, Option.map_some] at hl
        rw [← Option.some.inj hl]
        simpa using he
      · rw [AList.lookup_modify_ne hc] at hl
        exact h c' l hl

theorem filled_discard {r : InvertedIndex K C S} (h : Filled r) (k : K) (c : C) (s : S) :
    Filled (discard k c s r) := by
  intro k' b c' l hb hl
  rw [discard, AList.lookup_modify] at hb
  obtain ⟨b₀, hb₀, rfl⟩ := Option.map_eq_some_iff.mp hb
  split_ifs at hl
  · exact discardFrom_items_ne (fun c l => h k' b₀ c l hb₀) hl
  · exact h k' b₀ c' l hb₀ hl

/-- The two accesses of a removal leave a tidy index behind. -/
theorem tidy_prune_discard {r : InvertedIndex K C S} (h : Tidy r) (k : K) (c : C) (s : S) :
    Tidy (prune k (discard k c s r)) := by
  refine ⟨filled_prune (filled_discard h.filled k c s) k, fun k' b hb => ?_⟩
  obtain ⟨hb', hne⟩ := lookup_prune hb
  by_cases hk : k' = k
  · exact hne hk
  · rw [discard, AList.lookup_modify_ne hk] at hb'
    exact h.bucket_ne k' b hb'

end InvertedIndex
end KafkaEdgeRouter
