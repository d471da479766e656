import Mathlib.Data.Nat.Notation
import Mathlib.Logic.Function.Basic
import Mathlib.Tactic.Common

/-!
# Partitioned logs and one consumer

A broker keeps one append-only log per partition and the offset that the consumer group has
committed there. The consumer reads every partition in order from its position; when it joins, it
starts from what is committed. A consumer is aligned when it has committed all it has received, and
it has a record in hand between receiving that record and committing it.
-/

namespace KafkaEdgeRouter

/-- The answer to a request of the broker. One that failed may have been applied all the same. -/
inductive Reply
  | done
  | failed (error : String) (applied : Bool)

structure Broker (κ V : Type) where
  log : κ → List V
  committed : κ → ℕ
  position : κ → ℕ

namespace Broker

variable {κ V : Type}

def empty : Broker κ V := ⟨fun _ => [], fun _ => 0, fun _ => 0⟩

/-- A consumer that joins continues where the group has committed. -/
def rejoin (b : Broker κ V) : Broker κ V := { b with position := b.committed }

/-- The record at an offset of a partition. -/
def At (b : Broker κ V) (k : κ) (i : ℕ) (v : V) : Prop := (b.log k)[i]? = some v

/-- No partition is committed beyond its end. -/
def Bounded (b : Broker κ V) : Prop := ∀ k, b.committed k ≤ (b.log k).length

def Aligned (b : Broker κ V) : Prop := b.position = b.committed

variable [DecidableEq κ]

def append (b : Broker κ V) (k : κ) (v : V) : Broker κ V :=
  { b with log := Function.update b.log k (b.log k ++ [v]) }

def receive (b : Broker κ V) (k : κ) : Broker κ V :=
  { b with position := Function.update b.position k (b.position k + 1) }

def commit (b : Broker κ V) (k : κ) (offset : ℕ) : Broker κ V :=
  { b with committed := Function.update b.committed k offset }

/-- The record at the committed offset of the partition has been received and not committed. -/
def InHand (b : Broker κ V) (k : κ) : Prop :=
  b.position = Function.update b.committed k (b.committed k + 1)

variable {b : Broker κ V} {k k' : κ} {v v' : V} {i : ℕ}

omit [DecidableEq κ] in
theorem At.lt (h : b.At k i v) : i < (b.log k).length := by
  obtain ⟨hlt, _⟩ := List.getElem?_eq_some_iff.mp h
  exact hlt

omit [DecidableEq κ] in
theorem At.unique (h : b.At k i v) (h' : b.At k i v') : v = v' := Option.some.inj (h.symm.trans h')

theorem At.append (h : b.At k i v) (k' : κ) (v' : V) : (b.append k' v').At k i v := by
  by_cases hk : k = k'
  · subst k'
    simp only [At, Broker.append, Function.update_self]
    rwa [List.getElem?_append_left h.lt]
  · simpa only [At, Broker.append, Function.update_of_ne hk] using h

theorem at_append_new (b : Broker κ V) (k : κ) (v : V) :
    (b.append k v).At k (b.log k).length v := by
  simp only [At, append, Function.update_self, List.getElem?_concat_length]

theorem at_append_cases (h : (b.append k' v').At k i v) :
    b.At k i v ∨ k = k' ∧ i = (b.log k).length ∧ v = v' := by
  by_cases hk : k = k'
  · subst k'
    simp only [At, append, Function.update_self] at h
    rcases Nat.lt_trichotomy i (b.log k).length with hlt | heq | hgt
    · rw [List.getElem?_append_left hlt] at h
      exact Or.inl h
    · rw [heq, List.getElem?_concat_length] at h
      exact Or.inr ⟨rfl, heq, (Option.some.inj h).symm⟩
    · rw [List.getElem?_eq_none (by simpa using Nat.succ_le_of_lt hgt)] at h
      cases h
  · simp only [At, append, Function.update_of_ne hk] at h
    exact Or.inl h

theorem Bounded.commit (h : b.Bounded) (hi : i < (b.log k).length) :
    (b.commit k (i + 1)).Bounded := by
  intro k'
  by_cases hk : k' = k
  · subst k'
    simpa [Broker.commit] using Nat.succ_le_of_lt hi
  · simpa [Broker.commit, Function.update_of_ne hk] using h k'

theorem Aligned.receive (h : b.Aligned) (k : κ) : (b.receive k).InHand k := by
  simp only [Aligned] at h
  simp only [InHand, Broker.receive, h]

theorem InHand.commit (h : b.InHand k) : (b.commit k (b.committed k + 1)).Aligned := h

end Broker
end KafkaEdgeRouter
