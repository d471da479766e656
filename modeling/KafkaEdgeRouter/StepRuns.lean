import Mathlib.Data.Nat.Notation
import Mathlib.Tactic.Common

/-!
# Runs of step functions

A step function says what a move does in a state, if it is possible there. Here are its runs, the
runs whose moves all meet a condition on the state before them, and a criterion for conditions that
are exact: they hold along a run if and only if a property holds at every point of the run and
however often one chosen move is repeated from there.
-/

namespace KafkaEdgeRouter.Steps

variable {σ μ : Type} (step : σ → μ → Option σ)

def run (s : σ) : List μ → Option σ
  | [] => some s
  | m :: moves => (step s m).bind fun s' => run s' moves

/-- Every move of the run meets the condition in the state before it. -/
def Along (good : σ → μ → Prop) (s : σ) : List μ → Prop
  | [] => True
  | m :: moves => good s m ∧ ∀ s', step s m = some s' → Along good s' moves

variable {step} {good : σ → μ → Prop} {J : σ → Prop} {s s' : σ} {m : μ} {moves : List μ}

theorem run_cons : run step s (m :: moves) = some s' ↔
    ∃ s₁, step s m = some s₁ ∧ run step s₁ moves = some s' := by
  simp [run, Option.bind_eq_some_iff]

theorem run_append {moves' : List μ} : run step s (moves ++ moves') = some s' ↔
    ∃ s₁, run step s moves = some s₁ ∧ run step s₁ moves' = some s' := by
  induction moves generalizing s with
  | nil => simp [run]
  | cons m moves ih =>
    rw [List.cons_append, run_cons]
    constructor
    · rintro ⟨s₁, hstep, hrun⟩
      obtain ⟨s₂, hrun₁, hrun₂⟩ := ih.mp hrun
      exact ⟨s₂, run_cons.mpr ⟨s₁, hstep, hrun₁⟩, hrun₂⟩
    · rintro ⟨s₂, hrun₁, hrun₂⟩
      obtain ⟨s₁, hstep, hrun⟩ := run_cons.mp hrun₁
      exact ⟨s₁, hstep, ih.mpr ⟨s₂, hrun, hrun₂⟩⟩

theorem inv_run (hgood : ∀ s m s', J s → good s m → step s m = some s' → J s') (hs : J s)
    (halong : Along step good s moves) (hrun : run step s moves = some s') : J s' := by
  induction moves generalizing s with
  | nil =>
    cases hrun
    exact hs
  | cons m moves ih =>
    obtain ⟨s₁, hstep, hrun⟩ := run_cons.mp hrun
    exact ih (hgood s m s₁ hs halong.1 hstep) (halong.2 s₁ hstep) hrun

theorem along_cons (hm : good s m) (hstep : step s m = some s') (h : Along step good s' moves) :
    Along step good s (m :: moves) := by
  refine ⟨hm, fun s₁ hstep₁ => ?_⟩
  obtain rfl : s' = s₁ := Option.some.inj (hstep.symm.trans hstep₁)
  exact h

theorem Along.take (h : Along step good s moves) (k : ℕ) :
    Along step good s (moves.take k) := by
  induction moves generalizing s k with
  | nil =>
    rw [List.take_nil]
    trivial
  | cons m moves ih =>
    cases k with
    | zero => trivial
    | succ k => exact ⟨h.1, fun s₁ hstep => ih (h.2 s₁ hstep) k⟩

/-- The condition is exact: good moves keep the invariant, from which the property follows; and a
move after which the property holds is good. -/
theorem along_iff_holds {P : σ → Prop}
    (hgood : ∀ s m s', J s → good s m → step s m = some s' → J s') (hP : ∀ s, J s → P s)
    (hexact : ∀ s m s', J s → step s m = some s' → P s' → good s m) (hs : J s)
    (hrun : run step s moves = some s') :
    Along step good s moves ↔ ∀ k s₁, run step s (moves.take k) = some s₁ → P s₁ := by
  constructor
  · intro halong k s₁ hs₁
    exact hP s₁ (inv_run hgood hs (halong.take k) hs₁)
  · intro h
    induction moves generalizing s with
    | nil => trivial
    | cons m moves ih =>
      obtain ⟨s₁, hstep, hrun⟩ := run_cons.mp hrun
      have hm : good s m := hexact s m s₁ hs hstep (h 1 s₁ (run_cons.mpr ⟨s₁, hstep, rfl⟩))
      apply along_cons hm hstep
      exact ih (hgood s m s₁ hs hm hstep) hrun fun k s₂ hs₂ =>
        h (k + 1) s₂ (run_cons.mpr ⟨s₁, hstep, hs₂⟩)

variable (step) in
def Persists (q : μ) (P : σ → Prop) (s : σ) : Prop :=
  ∀ n s', run step s (List.replicate n q) = some s' → P s'

variable {q : μ} {P : σ → Prop}

theorem persists_of_inv (hgood : ∀ s m s', J s → good s m → step s m = some s' → J s')
    (hq : ∀ s, good s q) (hP : ∀ s, J s → P s) (hs : J s) : Persists step q P s := by
  intro n s' hrun
  induction n generalizing s with
  | zero =>
    cases hrun
    exact hP _ hs
  | succ n ih =>
    obtain ⟨s₁, hstep, hrun⟩ := run_cons.mp hrun
    exact ih (hgood _ q s₁ hs (hq _) hstep) hrun

/-- The condition is exact: good moves, among them `q`, keep the invariant, from which the property
follows; and a move after which the property persists under `q` is good. -/
theorem along_iff_persists (hgood : ∀ s m s', J s → good s m → step s m = some s' → J s')
    (hq : ∀ s, good s q) (hP : ∀ s, J s → P s)
    (hexact : ∀ s m s', J s → step s m = some s' → Persists step q P s' → good s m) (hs : J s)
    (hrun : run step s moves = some s') :
    Along step good s moves ↔
      ∀ k n s₁, run step s (moves.take k ++ List.replicate n q) = some s₁ → P s₁ := by
  constructor
  · intro halong k n s₁ hs₁
    obtain ⟨s₂, hrun₁, hrun₂⟩ := run_append.mp hs₁
    have hs₂ : J s₂ := inv_run hgood hs (halong.take k) hrun₁
    exact persists_of_inv hgood hq hP hs₂ n s₁ hrun₂
  · intro h
    induction moves generalizing s with
    | nil => trivial
    | cons m moves ih =>
      obtain ⟨s₁, hstep, hrun⟩ := run_cons.mp hrun
      have hm : good s m := hexact s m s₁ hs hstep fun n s₂ hs₂ =>
        h 1 n s₂ (run_cons.mpr ⟨s₁, hstep, hs₂⟩)
      apply along_cons hm hstep
      exact ih (hgood s m s₁ hs hm hstep) hrun fun k n s₃ hs₃ =>
        h (k + 1) n s₃ (run_cons.mpr ⟨s₁, hstep, hs₃⟩)

end KafkaEdgeRouter.Steps
