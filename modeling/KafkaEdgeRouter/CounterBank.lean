import KafkaEdgeRouter.StepRuns
import Mathlib.Algebra.BigOperators.Group.List.Basic
import Mathlib.Algebra.Ring.Nat
import Mathlib.Logic.Function.Basic

/-!
# Wrapping counters with many writers and one reader

A bank of counters is written by any number of writers, each of which makes its additions one by
one, and is loaded counter by counter by one reader. All additions and loads may interleave. Every
writer remembers which of its additions came before the load of their counter: what the reader gets
from a counter is the sum of those, wrapped.
-/

namespace KafkaEdgeRouter

/-- One call that adds to counters: what it was called with, the additions that it has made and has
still to make, and those that were made before the reader loaded their counter. -/
structure Writer (ι κ : Type) where
  input : ι
  made : List (κ × ℕ)
  rest : List (κ × ℕ)
  caught : List (κ × ℕ)

/-- The counters, the calls so far, the loads still to come and the values loaded. -/
structure CounterBank (ι κ : Type) where
  value : κ → ℕ
  writers : List (Writer ι κ)
  unread : List κ
  loaded : κ → ℕ

def amount {κ : Type} [DecidableEq κ] (c : κ) (adds : List (κ × ℕ)) : ℕ :=
  ((adds.filter fun a => a.1 = c).map Prod.snd).sum

section Amounts

variable {κ : Type} [DecidableEq κ] {c c' : κ} {n : ℕ} {adds adds' : List (κ × ℕ)}

@[simp] theorem amount_nil : amount c [] = 0 := rfl

@[simp] theorem amount_append : amount c (adds ++ adds') = amount c adds + amount c adds' := by
  simp [amount]

@[simp] theorem amount_single : amount c [(c', n)] = if c' = c then n else 0 := by
  by_cases h : c' = c <;> simp [amount, h]

end Amounts

namespace Writer

variable {ι κ : Type} [DecidableEq κ]

def advance (unread : List κ) (w : Writer ι κ) (c : κ) (n : ℕ) (rest : List (κ × ℕ)) :
    Writer ι κ :=
  { w with
    made := w.made ++ [(c, n)]
    rest := rest
    caught := if c ∈ unread then w.caught ++ [(c, n)] else w.caught }

/-- The writer follows its program, and the reader sees all that it adds to unread counters. -/
structure Sound (program : ι → List (κ × ℕ)) (unread : List κ) (w : Writer ι κ) : Prop where
  follows : w.made ++ w.rest = program w.input
  caught : w.caught.Sublist w.made
  unread : ∀ c ∈ unread, amount c w.caught = amount c w.made

variable {program : ι → List (κ × ℕ)} {unread unread' : List κ} {w : Writer ι κ} {c c' : κ} {n : ℕ}
  {rest : List (κ × ℕ)}

theorem amount_made_advance :
    amount c' (w.advance unread c n rest).made = amount c' w.made + if c = c' then n else 0 := by
  simp [advance]

theorem amount_caught_advance : amount c' (w.advance unread c n rest).caught =
    amount c' w.caught + if c = c' ∧ c ∈ unread then n else 0 := by
  by_cases hc : c ∈ unread <;> simp [advance, hc]

theorem Sound.mono (h : w.Sound program unread) (hsub : unread' ⊆ unread) :
    w.Sound program unread' :=
  ⟨h.follows, h.caught, fun c hc => h.unread c (hsub hc)⟩

theorem sound_new (i : ι) : (⟨i, [], program i, []⟩ : Writer ι κ).Sound program unread :=
  ⟨rfl, .slnil, fun _ _ => rfl⟩

theorem Sound.advance (h : w.Sound program unread) (hrest : w.rest = (c, n) :: rest) :
    (w.advance unread c n rest).Sound program unread where
  follows := by
    have hfollows := h.follows
    rw [hrest, List.append_cons] at hfollows
    exact hfollows
  caught := by
    unfold Writer.advance
    dsimp only
    split
    · exact h.caught.append_right _
    · exact h.caught.trans (List.sublist_append_left _ _)
  unread := by
    intro c' hc'
    rw [amount_made_advance, amount_caught_advance, h.unread c' hc']
    by_cases hc : c = c'
    · subst hc
      simp [hc']
    · simp [hc]

end Writer

namespace CounterBank

variable {ι κ : Type} [DecidableEq κ]

/-- A new writer appears, the `k`-th writer makes its next addition, or the reader its next load. -/
inductive Move (ι : Type)
  | write (input : ι)
  | add (k : ℕ)
  | load

def add (modulus : ℕ) (b : CounterBank ι κ) (k : ℕ) (w : Writer ι κ) :
    List (κ × ℕ) → Option (CounterBank ι κ)
  | [] => none
  | (c, n) :: rest => some
      { b with
        value := Function.update b.value c ((b.value c + n) % modulus)
        writers := b.writers.set k (w.advance b.unread c n rest) }

def load (b : CounterBank ι κ) : List κ → Option (CounterBank ι κ)
  | [] => none
  | c :: unread =>
      some { b with unread := unread, loaded := Function.update b.loaded c (b.value c) }

/-- The moves on counters that wrap at `modulus`, where a call adds what `program` says. -/
def step (modulus : ℕ) (program : ι → List (κ × ℕ)) (b : CounterBank ι κ) :
    Move ι → Option (CounterBank ι κ)
  | .write i => some { b with writers := b.writers ++ [⟨i, [], program i, []⟩] }
  | .add k => b.writers[k]?.bind fun w => add modulus b k w w.rest
  | .load => load b b.unread

def start (loads : List κ) : CounterBank ι κ := ⟨fun _ => 0, [], loads, fun _ => 0⟩

def total (b : CounterBank ι κ) (c : κ) : ℕ := (b.writers.map fun w => amount c w.made).sum

def visible (b : CounterBank ι κ) (c : κ) : ℕ := (b.writers.map fun w => amount c w.caught).sum

variable {modulus : ℕ} {program : ι → List (κ × ℕ)} {b b' : CounterBank ι κ} {loads : List κ}

theorem step_cases {m : Move ι} (h : step modulus program b m = some b') :
    (∃ i, b' = { b with writers := b.writers ++ [⟨i, [], program i, []⟩] }) ∨
    (∃ w c n rest before after, b.writers = before ++ w :: after ∧ w.rest = (c, n) :: rest ∧
      b' = { b with
        value := Function.update b.value c ((b.value c + n) % modulus)
        writers := before ++ w.advance b.unread c n rest :: after }) ∨
    (∃ c unread, b.unread = c :: unread ∧
      b' = { b with unread := unread, loaded := Function.update b.loaded c (b.value c) }) := by
  cases m with
  | write i => exact .inl ⟨i, (Option.some.inj h).symm⟩
  | add k =>
    obtain ⟨w, hw, hadd⟩ := Option.bind_eq_some_iff.mp h
    obtain ⟨hk, rfl⟩ := List.getElem?_eq_some_iff.mp hw
    refine .inr (.inl ⟨b.writers[k], ?_⟩)
    rcases hrest : b.writers[k].rest with _ | ⟨⟨c, n⟩, rest⟩
    · simp [hrest, add] at hadd
    · rw [hrest] at hadd
      have hsplit : b.writers = b.writers.take k ++ b.writers[k] :: b.writers.drop (k + 1) := by
        rw [List.getElem_cons_drop, List.take_append_drop]
      refine ⟨c, n, rest, _, _, hsplit, rfl, ?_⟩
      rw [← Option.some.inj hadd]
      congr 1
      rw [List.set_eq_take_append_cons_drop, if_pos hk]
  | load =>
    refine .inr (.inr ?_)
    rcases hunread : b.unread with _ | ⟨c, unread⟩
    · simp [step, hunread, load] at h
    · rw [step, hunread] at h
      exact ⟨c, unread, rfl, (Option.some.inj h).symm⟩

/-- The counters hold the additions made so far, and the reader has got what it sees of the counters
that it has loaded. -/
structure Inv (modulus : ℕ) (program : ι → List (κ × ℕ)) (loads : List κ) (b : CounterBank ι κ) :
    Prop where
  value : ∀ c, b.value c = b.total c % modulus
  loaded : ∀ c ∈ loads, c ∉ b.unread → b.loaded c = b.visible c % modulus
  sound : ∀ w ∈ b.writers, w.Sound program b.unread
  nodup : b.unread.Nodup

theorem inv_start (hloads : loads.Nodup) :
    Inv modulus program loads (start loads : CounterBank ι κ) where
  value := by simp [start, total]
  loaded := fun _ hc hnot => absurd hc hnot
  sound := by simp [start]
  nodup := hloads

theorem Inv.visible_eq_total (h : Inv modulus program loads b) {c : κ} (hc : c ∈ b.unread) :
    b.visible c = b.total c :=
  congrArg List.sum (List.map_congr_left fun w hw => (h.sound w hw).unread c hc)

theorem Inv.step_write (h : Inv modulus program loads b) (i : ι) :
    Inv modulus program loads { b with writers := b.writers ++ [⟨i, [], program i, []⟩] } where
  value := fun c => by simpa [total] using h.value c
  loaded := fun c hc hnot => by simpa [visible] using h.loaded c hc hnot
  sound := by
    intro w hw
    rcases List.mem_append.mp hw with hw | hw
    · exact h.sound w hw
    · cases List.mem_singleton.mp hw
      exact Writer.sound_new i
  nodup := h.nodup

theorem Inv.step_add (h : Inv modulus program loads b) {w : Writer ι κ} {c : κ} {n : ℕ}
    {rest : List (κ × ℕ)} {before after : List (Writer ι κ)}
    (hwriters : b.writers = before ++ w :: after) (hrest : w.rest = (c, n) :: rest) :
    Inv modulus program loads
      { b with
        value := Function.update b.value c ((b.value c + n) % modulus)
        writers := before ++ w.advance b.unread c n rest :: after } where
  value := by
    intro c'
    have hvalue := h.value c'
    simp only [total, hwriters, List.map_append, List.map_cons, List.sum_append, List.sum_cons,
      Writer.amount_made_advance] at hvalue ⊢
    by_cases hc : c' = c
    · subst hc
      rw [Function.update_self, hvalue, Nat.mod_add_mod, if_pos rfl]
      congr 1
      omega
    · rw [Function.update_of_ne hc, hvalue, if_neg (Ne.symm hc), Nat.add_zero]
  loaded := by
    intro c' hc' hnot
    have hloaded := h.loaded c' hc' hnot
    have hunseen : ¬(c = c' ∧ c ∈ b.unread) := fun hc => hnot (hc.1 ▸ hc.2)
    simp only [visible, hwriters, List.map_append, List.map_cons, List.sum_append, List.sum_cons,
      Writer.amount_caught_advance, if_neg hunseen, Nat.add_zero] at hloaded ⊢
    exact hloaded
  sound := by
    have hsound := h.sound
    simp only [hwriters, List.forall_mem_append, List.forall_mem_cons] at hsound ⊢
    exact ⟨hsound.1, hsound.2.1.advance hrest, hsound.2.2⟩
  nodup := h.nodup

theorem Inv.step_load (h : Inv modulus program loads b) {c : κ} {unread : List κ}
    (hunread : b.unread = c :: unread) : Inv modulus program loads
      { b with unread := unread, loaded := Function.update b.loaded c (b.value c) } where
  value := h.value
  loaded := by
    intro c' hc' hnot
    change Function.update b.loaded c (b.value c) c' = b.visible c' % modulus
    by_cases hc : c' = c
    · subst hc
      have hc' : c' ∈ b.unread := by simp [hunread]
      rw [Function.update_self, h.value, h.visible_eq_total hc']
    · rw [Function.update_of_ne hc]
      exact h.loaded c' hc' (by simpa [hunread, hc] using hnot)
  sound := fun w hw => (h.sound w hw).mono (by simp [hunread])
  nodup := (List.nodup_cons.mp (hunread ▸ h.nodup)).2

theorem Inv.step (h : Inv modulus program loads b) {m : Move ι}
    (hstep : step modulus program b m = some b') : Inv modulus program loads b' := by
  obtain ⟨i, rfl⟩ | ⟨w, c, n, rest, before, after, hwriters, hrest, rfl⟩ |
    ⟨c, unread, hunread, rfl⟩ := step_cases hstep
  · exact h.step_write i
  · exact h.step_add hwriters hrest
  · exact h.step_load hunread

theorem Inv.run (h : Inv modulus program loads b) {moves : List (Move ι)}
    (hrun : Steps.run (CounterBank.step modulus program) b moves = some b') :
    Inv modulus program loads b' := by
  induction moves generalizing b with
  | nil =>
    cases hrun
    exact h
  | cons m moves ih =>
    obtain ⟨b₁, hstep, hrun⟩ := Steps.run_cons.mp hrun
    exact ih (h.step hstep) hrun

/-- The reader alone: it can always go on, and leaves the writers as they are. -/
theorem run_loads (modulus : ℕ) (program : ι → List (κ × ℕ)) (b : CounterBank ι κ) : ∃ b',
    Steps.run (CounterBank.step modulus program) b (List.replicate b.unread.length .load) =
      some b' ∧ b'.unread = [] ∧ b'.writers = b.writers := by
  generalize hunread : b.unread = unread
  induction unread generalizing b with
  | nil => exact ⟨b, rfl, hunread, rfl⟩
  | cons c unread ih =>
    let b₁ := { b with unread := unread, loaded := Function.update b.loaded c (b.value c) }
    have hstep : CounterBank.step modulus program b .load = some b₁ := by
      rw [CounterBank.step, hunread]
      rfl
    obtain ⟨b', hrun, hdone, hwriters⟩ := ih b₁ rfl
    exact ⟨b', Steps.run_cons.mpr ⟨b₁, hstep, hrun⟩, hdone, hwriters⟩

end CounterBank

end KafkaEdgeRouter
