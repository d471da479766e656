import Mathlib.Algebra.Ring.Nat
import Mathlib.Data.List.AList
import Mathlib.Tactic.Common

/-!
# Hash maps as association lists

Mathlib's association lists model hash maps: keys are distinct, and insertion, removal and lookup
are the library's. Added here are the in-place updates of an entry API, whose order and keys stay
as they are, the image of a map under a function of its values, and the list of its pairs. The
order of iteration of a real hash map is unspecified: `IterOrder` is any rearrangement of the
pairs, carrying the proof that it is one.
-/

universe u v w

namespace AList

variable {K : Type u} {V : Type v} {W : Type w}

def pairs (m : AList (fun _ : K => V)) : List (K × V) := m.entries.map (fun e => (e.1, e.2))

theorem pairs_map_fst (m : AList (fun _ : K => V)) : m.pairs.map Prod.fst = m.keys := by
  simp only [pairs, keys, List.keys, List.map_map]
  rfl

theorem nodup_pairs_fst (m : AList (fun _ : K => V)) : (m.pairs.map Prod.fst).Nodup := by
  rw [pairs_map_fst]
  exact m.keys_nodup

def size (m : AList (fun _ : K => V)) : ℕ := m.entries.length

theorem pairs_length (m : AList (fun _ : K => V)) : m.pairs.length = m.size := by
  simp only [pairs, size, List.length_map]

theorem keys_map_value (f : K → V → W) (l : List (Σ _ : K, V)) :
    List.keys (l.map (fun e => (⟨e.1, f e.1 e.2⟩ : Σ _ : K, W))) = l.keys := by
  simp only [List.keys, List.map_map]
  rfl

/-- The image of the map under a function of its values. -/
def mapValues (f : V → W) (m : AList (fun _ : K => V)) : AList (fun _ : K => W) :=
  ⟨m.entries.map (fun e => ⟨e.1, f e.2⟩), by
    have h := m.nodupKeys
    rw [List.NodupKeys] at h ⊢
    rwa [keys_map_value (fun _ => f)]⟩

@[simp] theorem keys_mapValues (f : V → W) (m : AList (fun _ : K => V)) :
    (m.mapValues f).keys = m.keys := keys_map_value (fun _ => f) m.entries

@[simp] theorem mem_mapValues (f : V → W) (m : AList (fun _ : K => V)) (k : K) :
    k ∈ m.mapValues f ↔ k ∈ m := by
  rw [mem_keys, mem_keys, keys_mapValues]

@[simp] theorem mapValues_empty (f : V → W) :
    (∅ : AList (fun _ : K => V)).mapValues f = ∅ := rfl

theorem pairs_mapValues (f : V → W) (m : AList (fun _ : K => V)) :
    (m.mapValues f).pairs = m.pairs.map (fun e => (e.1, f e.2)) := by
  simp only [pairs, mapValues, List.map_map]
  rfl

/-- Lists without repetition under every key, tagged with their keys, have no repetition. -/
theorem nodup_flatMap_pairs (m : AList (fun _ : K => V)) {f : V → List W}
    (h : ∀ e ∈ m.pairs, (f e.2).Nodup) :
    (m.pairs.flatMap (fun e => (f e.2).map (fun w => (e.1, w)))).Nodup := by
  rw [List.nodup_flatMap]
  refine ⟨fun e he => (h e he).map (fun _ _ heq => (Prod.mk.inj heq).2), ?_⟩
  have hkeys := m.nodup_pairs_fst
  rw [List.Nodup, List.pairwise_map] at hkeys
  refine hkeys.imp (fun {e e'} hne x hx hx' => hne ?_)
  obtain ⟨_, _, rfl⟩ := List.mem_map.mp hx
  obtain ⟨_, _, heq⟩ := List.mem_map.mp hx'
  exact (Prod.mk.inj heq).1.symm

/-- The weights of the values, added up. -/
def total (w : V → ℕ) (m : AList (fun _ : K => V)) : ℕ := (m.pairs.map (fun e => w e.2)).sum

theorem total_eq (w : V → ℕ) (m : AList (fun _ : K => V)) :
    m.total w = (m.entries.map (fun e => w e.2)).sum := by
  simp only [total, pairs, List.map_map]
  rfl

/-- The weights of the values of one kind, added up. -/
theorem sum_filter_pairs (p : V → Prop) [DecidablePred p] (w : V → ℕ)
    (m : AList (fun _ : K => V)) : ((m.pairs.filter (fun e => p e.2)).map (fun e => w e.2)).sum =
      m.total (fun v => if p v then w v else 0) := by
  unfold total
  induction m.pairs with
  | nil => rfl
  | cons e l ih =>
    by_cases hp : p e.2
    · simp [hp, ih]
    · simp [hp, ih]

variable [DecidableEq K]

theorem mem_pairs {m : AList (fun _ : K => V)} {k : K} {v : V} :
    (k, v) ∈ m.pairs ↔ m.lookup k = some v := by
  have h : (k, v) ∈ m.pairs ↔ (⟨k, v⟩ : Σ _ : K, V) ∈ m.entries := by
    simp only [pairs, List.mem_map, Prod.mk.injEq]
    constructor
    · rintro ⟨⟨k', v'⟩, he, rfl, rfl⟩
      exact he
    · intro he
      exact ⟨⟨k, v⟩, he, rfl, rfl⟩
  rw [h, ← mem_lookup_iff, Option.mem_def]

theorem mem_of_lookup {m : AList (fun _ : K => V)} {k : K} {v : V} (h : m.lookup k = some v) :
    k ∈ m := lookup_isSome.mp (by rw [h]; rfl)

theorem exists_lookup {m : AList (fun _ : K => V)} {k : K} (h : k ∈ m) :
    ∃ v, m.lookup k = some v := Option.isSome_iff_exists.mp (lookup_isSome.mpr h)

theorem eq_empty_of_lookup {m : AList (fun _ : K => V)} (h : ∀ k, m.lookup k = none) : m = ∅ := by
  apply AList.ext
  apply List.eq_nil_iff_forall_not_mem.mpr
  rintro ⟨k, v⟩ he
  have hv : v ∈ m.lookup k := mem_lookup_iff.mpr he
  rw [h k] at hv
  cases hv

@[simp] theorem lookup_mapValues (f : V → W) (m : AList (fun _ : K => V)) (k : K) :
    (m.mapValues f).lookup k = (m.lookup k).map f := by
  cases h : m.lookup k with
  | none =>
    rw [lookup_eq_none] at h
    exact lookup_eq_none.mpr (by rwa [mem_mapValues])
  | some v =>
    rw [Option.map_some, ← mem_pairs, pairs_mapValues, List.mem_map]
    exact ⟨(k, v), mem_pairs.mpr h, rfl⟩

theorem entries_kerase_map (f : V → W) (k : K) (l : List (Σ _ : K, V)) :
    (l.map (fun e => (⟨e.1, f e.2⟩ : Σ _ : K, W))).kerase k =
      (l.kerase k).map (fun e => (⟨e.1, f e.2⟩ : Σ _ : K, W)) := by
  unfold List.kerase
  rw [List.eraseP_map]
  rfl

theorem mapValues_erase (f : V → W) (k : K) (m : AList (fun _ : K => V)) :
    (m.erase k).mapValues f = (m.mapValues f).erase k :=
  AList.ext (entries_kerase_map f k m.entries).symm

theorem mapValues_insert (f : V → W) (k : K) (v : V) (m : AList (fun _ : K => V)) :
    (m.insert k v).mapValues f = (m.mapValues f).insert k (f v) := by
  apply AList.ext
  rw [entries_insert]
  change (m.insert k v).entries.map (fun e => (⟨e.1, f e.2⟩ : Σ _ : K, W)) =
    ⟨k, f v⟩ :: (m.entries.map (fun e => (⟨e.1, f e.2⟩ : Σ _ : K, W))).kerase k
  rw [entries_insert, entries_kerase_map]
  rfl

/-- Updates the value at a key where it stands, and does nothing when the key is absent. -/
def modify (k : K) (f : V → V) (m : AList (fun _ : K => V)) : AList (fun _ : K => V) :=
  ⟨m.entries.map (fun e => ⟨e.1, if e.1 = k then f e.2 else e.2⟩), by
    have h := m.nodupKeys
    rw [List.NodupKeys] at h ⊢
    rwa [keys_map_value (fun k' v => if k' = k then f v else v)]⟩

@[simp] theorem keys_modify (k : K) (f : V → V) (m : AList (fun _ : K => V)) :
    (m.modify k f).keys = m.keys :=
  keys_map_value (fun k' v => if k' = k then f v else v) m.entries

@[simp] theorem mem_modify (k k' : K) (f : V → V) (m : AList (fun _ : K => V)) :
    k' ∈ m.modify k f ↔ k' ∈ m := by
  rw [mem_keys, mem_keys, keys_modify]

theorem lookup_modify (k k' : K) (f : V → V) (m : AList (fun _ : K => V)) :
    (m.modify k f).lookup k' = (m.lookup k').map (fun v => if k' = k then f v else v) := by
  cases h : m.lookup k' with
  | none =>
    rw [lookup_eq_none] at h
    exact lookup_eq_none.mpr (by rwa [mem_modify])
  | some v =>
    rw [← mem_pairs] at h
    rw [Option.map_some, ← mem_pairs]
    simp only [pairs, modify, List.map_map, List.mem_map] at h ⊢
    obtain ⟨e, he, heq⟩ := h
    obtain ⟨rfl, rfl⟩ := Prod.mk.inj heq
    exact ⟨e, he, rfl⟩

@[simp] theorem lookup_modify_self (k : K) (f : V → V) (m : AList (fun _ : K => V)) :
    (m.modify k f).lookup k = (m.lookup k).map f := by
  simp [lookup_modify]

theorem lookup_modify_ne {k k' : K} (h : k' ≠ k) (f : V → V) (m : AList (fun _ : K => V)) :
    (m.modify k f).lookup k' = m.lookup k' := by
  simp [lookup_modify, h]

/-- An update that the image does not see leaves the image as it is. -/
theorem mapValues_modify_of_eq {f : V → V} {g : V → W} (h : ∀ v, g (f v) = g v) (k : K)
    (m : AList (fun _ : K => V)) : (m.modify k f).mapValues g = m.mapValues g := by
  apply AList.ext
  change List.map _ (List.map _ m.entries) = List.map _ m.entries
  rw [List.map_map]
  apply List.map_congr_left
  rintro ⟨k', v⟩ _
  by_cases hk : k' = k
  · simp [hk, h]
  · simp [hk]

theorem mapValues_modify {f : V → V} {g : V → W} {f' : W → W} (h : ∀ v, g (f v) = f' (g v)) (k : K)
    (m : AList (fun _ : K => V)) : (m.modify k f).mapValues g = (m.mapValues g).modify k f' := by
  apply AList.ext
  change List.map _ (List.map _ m.entries) = List.map _ (List.map _ m.entries)
  rw [List.map_map, List.map_map]
  apply List.map_congr_left
  rintro ⟨k', v⟩ _
  by_cases hk : k' = k
  · simp [hk, h]
  · simp [hk]

/-- Removes the key when its value satisfies the predicate. -/
def removeIf (k : K) (p : V → Bool) (m : AList (fun _ : K => V)) : AList (fun _ : K => V) :=
  match m.lookup k with
  | some v => if p v then m.erase k else m
  | none => m

theorem lookup_removeIf_ne {k k' : K} (h : k' ≠ k) (p : V → Bool) (m : AList (fun _ : K => V)) :
    (m.removeIf k p).lookup k' = m.lookup k' := by
  unfold removeIf
  split
  · split_ifs
    · exact lookup_erase_ne h
    · rfl
  · rfl

theorem lookup_removeIf_self (k : K) (p : V → Bool) (m : AList (fun _ : K => V)) :
    (m.removeIf k p).lookup k = (m.lookup k).filter (fun v => !p v) := by
  unfold removeIf
  cases h : m.lookup k with
  | none => simp [h]
  | some v =>
    by_cases hp : p v = true
    · simp [Option.filter, hp]
    · simp [Option.filter, hp, h]

theorem size_modify (k : K) (f : V → V) (m : AList (fun _ : K => V)) :
    (m.modify k f).size = m.size := List.length_map ..

theorem size_insert {k : K} {m : AList (fun _ : K => V)} (h : k ∉ m) (v : V) :
    (m.insert k v).size = m.size + 1 := by
  rw [size, entries_insert_of_notMem h]
  rfl

theorem size_erase_le (k : K) (m : AList (fun _ : K => V)) : (m.erase k).size ≤ m.size :=
  (List.kerase_sublist k m.entries).length_le

theorem total_insert (w : V → ℕ) {k : K} {m : AList (fun _ : K => V)} (h : k ∉ m) (v : V) :
    (m.insert k v).total w = w v + m.total w := by
  rw [total_eq, total_eq, entries_insert_of_notMem h]
  rfl

/-- Removing a value removes its weight. -/
theorem total_erase (w : V → ℕ) {k : K} {m : AList (fun _ : K => V)} {v : V}
    (h : m.lookup k = some v) : (m.erase k).total w + w v = m.total w := by
  have hmem : (⟨k, v⟩ : Σ _ : K, V) ∈ m.entries := mem_lookup_iff.mp h
  obtain ⟨v', l₁, l₂, hk, hl, herase⟩ :=
    List.exists_of_kerase (List.mem_keys.mpr ⟨v, hmem⟩ : k ∈ m.entries.keys)
  obtain rfl : v' = v := by
    have hmem' : (⟨k, v'⟩ : Σ _ : K, V) ∈ m.entries := by
      rw [hl]
      exact List.mem_append_right _ (List.mem_cons_self ..)
    exact Option.some.inj ((mem_lookup_iff.mpr hmem').symm.trans h)
  rw [total_eq, total_eq]
  change ((m.entries.kerase k).map (fun e => w e.2)).sum + _ = _
  rw [herase, hl]
  simp only [List.map_append, List.map_cons, List.sum_append, List.sum_cons]
  omega

theorem total_erase_le (w : V → ℕ) (k : K) (m : AList (fun _ : K => V)) :
    (m.erase k).total w ≤ m.total w := by
  cases h : m.lookup k with
  | some v =>
    rw [← total_erase w h]
    exact Nat.le_add_right _ _
  | none =>
    rw [total_eq, total_eq]
    change ((m.entries.kerase k).map (fun e => w e.2)).sum ≤ _
    rw [List.kerase_of_notMem_keys (lookup_eq_none.mp h)]

/-- A map without the key of one of its values is smaller by one. -/
theorem size_erase {k : K} {m : AList (fun _ : K => V)} {v : V} (h : m.lookup k = some v) :
    (m.erase k).size + 1 = m.size := by
  have hsize : ∀ m : AList (fun _ : K => V), m.size = m.total (fun _ => 1) := by
    intro m
    rw [total_eq]
    simp [size]
  rw [hsize, hsize]
  exact total_erase (fun _ => 1) h

theorem size_insert_of_mem {k : K} {m : AList (fun _ : K => V)} (h : k ∈ m) (v : V) :
    (m.insert k v).size = m.size := by
  obtain ⟨v', hlookup⟩ := Option.isSome_iff_exists.mp (lookup_isSome.mpr h)
  rw [← size_erase hlookup]
  rfl

theorem le_total (w : V → ℕ) {k : K} {m : AList (fun _ : K => V)} {v : V}
    (h : m.lookup k = some v) : w v ≤ m.total w := by
  rw [← total_erase w h]
  exact Nat.le_add_left _ _

/-- Updating a value exchanges its weight. -/
theorem total_modify (w : V → ℕ) {k : K} {m : AList (fun _ : K => V)} {v : V}
    (h : m.lookup k = some v) (f : V → V) :
    (m.modify k f).total w + w v = m.total w + w (f v) := by
  have hmem : (⟨k, v⟩ : Σ _ : K, V) ∈ m.entries := mem_lookup_iff.mp h
  obtain ⟨l₁, l₂, hl⟩ := List.append_of_mem hmem
  have hkeys := m.nodupKeys
  rw [List.NodupKeys, List.keys, hl, List.map_append, List.map_cons, List.nodup_append] at hkeys
  have hne₁ : ∀ e ∈ l₁, e.1 ≠ k := fun e he heq =>
    hkeys.2.2 e.1 (List.mem_map_of_mem he) k (List.mem_cons_self ..) heq
  have hne₂ : ∀ e ∈ l₂, e.1 ≠ k := fun e he heq =>
    (List.nodup_cons.mp hkeys.2.1).1 (List.mem_map.mpr ⟨e, he, heq⟩)
  have hsame : ∀ l : List (Σ _ : K, V), (∀ e ∈ l, e.1 ≠ k) →
      l.map (fun e => w (if e.1 = k then f e.2 else e.2)) = l.map (fun e => w e.2) :=
    fun l hl => List.map_congr_left (fun e he => by rw [if_neg (hl e he)])
  rw [total_eq, total_eq]
  change (List.map _ (List.map _ m.entries)).sum + _ = _
  rw [List.map_map]
  change (m.entries.map (fun e => w (if e.1 = k then f e.2 else e.2))).sum + w v = _
  rw [hl, List.map_append, List.map_append, List.map_cons, List.map_cons, hsame l₁ hne₁,
    hsame l₂ hne₂]
  simp only [List.sum_append, List.sum_cons, if_true]
  omega

end AList

/-- The order in which a hash map hands out its pairs: unspecified, so any rearrangement. -/
structure IterOrder (α : Type u) where
  arrange : List α → List α
  perm : ∀ l, (arrange l).Perm l

namespace IterOrder

variable {α : Type u}

def listed : IterOrder α := ⟨id, fun l => List.Perm.refl l⟩

theorem mem_arrange (o : IterOrder α) {l : List α} {a : α} : a ∈ o.arrange l ↔ a ∈ l :=
  (o.perm l).mem_iff

end IterOrder
