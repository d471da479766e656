import Mathlib.Algebra.Ring.Nat
import Mathlib.Data.List.Nodup
import Mathlib.Tactic.Common

/-!
# Wildcard expansion of keys

A key has independent optional dimensions. Expanding a dimension keeps every key and, when the
dimension is populated, adds each key again with the dimension cleared. Expanding all dimensions of
one exact key in turn reaches exactly the keys that agree with it wherever they are not cleared,
each of them once.
-/

namespace KafkaEdgeRouter

/-- One optional dimension of a key, readable and writable on its own. -/
structure Dimension (K α : Type) where
  get : K → Option α
  set : Option α → K → K
  get_set : ∀ v k, get (set v k) = v
  set_get : ∀ k, set (get k) k = k
  set_set : ∀ v w k, set v (set w k) = set v k

namespace Dimension

variable {K α : Type} (d : Dimension K α)

def branchWildcard (populated : Bool) (keys : List K) : List K :=
  if populated then keys ++ keys.map (d.set none) else keys

/-- Keys that agree with `v` in the dimension turn into keys that agree with it or are cleared. -/
theorem mem_branchWildcard {P : K → Prop} (hP : ∀ v k, P (d.set v k) ↔ P k) {v : Option α}
    {keys : List K} (hkeys : ∀ k, k ∈ keys ↔ P k ∧ d.get k = v) (k : K) :
    k ∈ d.branchWildcard v.isSome keys ↔ P k ∧ (d.get k = none ∨ d.get k = v) := by
  cases v with
  | none => simp [branchWildcard, hkeys]
  | some a =>
    simp only [branchWildcard, Option.isSome_some, if_true, List.mem_append, List.mem_map, hkeys]
    constructor
    · rintro (⟨hk, hv⟩ | ⟨k', ⟨hk', _⟩, rfl⟩)
      · exact ⟨hk, Or.inr hv⟩
      · exact ⟨(hP none k').mpr hk', Or.inl (d.get_set none k')⟩
    · rintro ⟨hk, hn | hv⟩
      · refine Or.inr ⟨d.set (some a) k, ⟨(hP _ k).mpr hk, d.get_set _ k⟩, ?_⟩
        rw [d.set_set, ← hn, d.set_get]
      · exact Or.inl ⟨hk, hv⟩

theorem forall_branchWildcard {Q : K → Prop} (hQ : ∀ k, Q k → Q (d.set none k))
    {populated : Bool} {keys : List K} (h : ∀ k ∈ keys, Q k) :
    ∀ k ∈ d.branchWildcard populated keys, Q k := by
  intro k hk
  cases populated with
  | false => exact h k hk
  | true =>
    rcases List.mem_append.mp hk with hk | hk
    · exact h k hk
    · obtain ⟨k', hk', rfl⟩ := List.mem_map.mp hk
      exact hQ k' (h k' hk')

theorem nodup_branchWildcard {v : Option α} {keys : List K} (hnd : keys.Nodup)
    (hkeys : ∀ k ∈ keys, d.get k = v) : (d.branchWildcard v.isSome keys).Nodup := by
  cases v with
  | none => simpa [branchWildcard] using hnd
  | some a =>
    simp only [branchWildcard, Option.isSome_some, if_true]
    have hinj : ∀ k ∈ keys, ∀ k' ∈ keys, d.set none k = d.set none k' → k = k' := by
      intro k hk k' hk' he
      have hset := congrArg (d.set (some a)) he
      rw [d.set_set, d.set_set] at hset
      rw [← d.set_get k, ← d.set_get k', hkeys k hk, hkeys k' hk', hset]
    refine hnd.append (hnd.map_on hinj) ?_
    intro k hk hk'
    obtain ⟨k', _, rfl⟩ := List.mem_map.mp hk'
    have hnone := (hkeys _ hk).symm.trans (d.get_set none k')
    cases hnone

theorem length_branchWildcard (populated : Bool) (keys : List K) :
    (d.branchWildcard populated keys).length = keys.length * 2 ^ populated.toNat := by
  cases populated with
  | false => simp [branchWildcard]
  | true =>
    simp only [branchWildcard, if_true, List.length_append, List.length_map, Bool.toNat_true]
    omega

end Dimension
end KafkaEdgeRouter
