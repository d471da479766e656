import KafkaEdgeRouter.ProgramTraces
import Mathlib.Algebra.BigOperators.Group.Finset.Basic
import Mathlib.Algebra.BigOperators.Intervals
import Mathlib.Data.List.Induction

/-!
# Accounts of a thread pool

A value of the shared state that many threads change. Each thread keeps books on what its own
accesses added to the value, so the value is the sum of the books of all threads, in whatever order
they acted. If a thread that has returned has balanced books, and so has a thread that never changes
the value, then the value is the initial one whenever no other thread is under way.
-/

namespace KafkaEdgeRouter

namespace Prog

variable {σ ι α β G : Type} [AddCommGroup G] {J : σ → Prop} {value : σ → G}

/-- Whatever the others do, as long as they keep `J`: with the balance `b` at the start, the program
ends in a result that `Q` relates to the balance at the end. -/
def Books (J : σ → Prop) (value : σ → G) (Q : α → G → Prop) : Prog σ ι α → G → Prop
  | .ret a, b => Q a b
  | .act e u k, b => ∀ i s, J s → e i s = true →
      (k i s).Books J value Q (b + (value (u i s) - value s))

theorem books_bind {Q : β → G → Prop} {p : Prog σ ι α} {f : α → Prog σ ι β} {b : G}
    (h : p.Books J value (fun a b' => (f a).Books J value Q b') b) :
    (p >>= f).Books J value Q b := by
  induction p generalizing b with
  | ret a => exact h
  | act e u k ih => exact fun i s hJ he => ih i s (h i s hJ he)

theorem books_mono {Q Q' : α → G → Prop} {p : Prog σ ι α} {b : G} (h : p.Books J value Q b)
    (hQ : ∀ a b, Q a b → Q' a b) : p.Books J value Q' b := by
  induction p generalizing b with
  | ret a => exact hQ a b h
  | act e u k ih => exact fun i s hJ he => ih i s (h i s hJ he)

theorem books_access {Q : α → G → Prop} {f : σ → β × σ} {k : β → Prog σ ι α} {b : G}
    (h : ∀ s, J s → (k (f s).1).Books J value Q (b + (value (f s).2 - value s))) :
    (access f >>= k : Prog σ ι α).Books J value Q b :=
  fun _ s hJ _ => h s hJ

theorem books_await_same {Q : α → G → Prop} {e : ι → σ → Bool} {f : ι → σ → β × σ}
    {k : β → Prog σ ι α} {b : G}
    (hsame : ∀ i s, J s → e i s = true → value (f i s).2 = value s)
    (h : ∀ i s, J s → e i s = true → (k (f i s).1).Books J value Q b) :
    (await e f >>= k).Books J value Q b := by
  intro i s hJ he
  have hvalue : value (f i s).2 = value s := hsame i s hJ he
  change (k (f i s).1).Books J value Q (b + (value (f i s).2 - value s))
  rw [hvalue, sub_self, add_zero]
  exact h i s hJ he

theorem books_access_same {Q : α → G → Prop} {f : σ → β × σ} {k : β → Prog σ ι α} {b : G}
    (hsame : ∀ s, J s → value (f s).2 = value s)
    (h : ∀ s, J s → (k (f s).1).Books J value Q b) :
    (access f >>= k : Prog σ ι α).Books J value Q b :=
  books_await_same (fun _ s hJ _ => hsame s hJ) (fun _ s hJ _ => h s hJ)

theorem books_of_always {p : Prog σ ι α} {b : G}
    (h : p.Always (fun s s' => J s → value s' = value s)) :
    p.Books J value (fun _ b' => b' = b) b := by
  induction p with
  | ret a => rfl
  | act e u k ih =>
    intro i s hJ he
    rw [(h i s he).1 hJ, sub_self, add_zero]
    exact ih i s (h i s he).2

theorem books_skip {Q : β → G → Prop} {p : Prog σ ι α} {f : α → Prog σ ι β} {b : G}
    (h : p.Always (fun s s' => J s → value s' = value s))
    (hf : ∀ a, (f a).Books J value Q b) : (p >>= f).Books J value Q b :=
  books_bind (books_mono (books_of_always h) (fun a _ hb => hb ▸ hf a))

end Prog

namespace Pool

variable {σ ι α τ : Type} {code : ℕ → τ → Prog σ ι α} {P P' : Pool σ ι α}

def spawned (moves : List (Move τ ι)) : List τ :=
  moves.filterMap (fun m => match m with
    | .spawn task => some task
    | .act _ _ => none)

theorem run_concat {m : Move τ ι} {moves : List (Move τ ι)} :
    P.run code (moves ++ [m]) = some P' ↔
      ∃ P₁, P.run code moves = some P₁ ∧ P₁.move code m = some P' := by
  rw [run_append]
  simp [run]

theorem spawned_spawn (moves : List (Move τ ι)) (task : τ) :
    spawned (moves ++ [.spawn task]) = spawned moves ++ [task] := by
  simp [spawned]

theorem spawned_act (moves : List (Move τ ι)) (t : ℕ) (i : ι) :
    spawned (moves ++ [.act t i]) = spawned moves := by
  simp [spawned]

theorem thread_of_task {R : ℕ → τ → Prog σ ι α → Prop} (hcode : ∀ t task, R t task (code t task))
    (hact : ∀ t task e u k i s, R t task (.act e u k) → e i s = true → R t task (k i s))
    (hP : P.threads = []) {moves : List (Move τ ι)} (hrun : P.run code moves = some P') :
    P'.threads.length = (spawned moves).length ∧ ∀ t task, (spawned moves)[t]? = some task →
      ∃ p, P'.threads[t]? = some p ∧ R t task p := by
  induction moves using List.reverseRecOn generalizing P' with
  | nil =>
    obtain rfl : P = P' := Option.some.inj hrun
    simp [hP, spawned]
  | append_singleton moves m ih =>
    obtain ⟨P₁, hfirst, hm⟩ := run_concat.mp hrun
    obtain ⟨hlength, hthreads⟩ := ih hfirst
    rcases move_cases code hm with ⟨task, rfl, rfl⟩ | ⟨t', i, e, u, k, rfl, hthread, he, rfl⟩
    · rw [spawned_spawn]
      refine ⟨by simp [hlength], fun t task' ht => ?_⟩
      by_cases hlt : t < (spawned moves).length
      · rw [List.getElem?_append_left hlt] at ht
        obtain ⟨p, hp, hR⟩ := hthreads t task' ht
        exact ⟨p, by rw [List.getElem?_append_left (by omega), hp], hR⟩
      · obtain rfl : t = (spawned moves).length := by
          have hlt' := (List.getElem?_eq_some_iff.mp ht).1
          simp only [List.length_append, List.length_singleton] at hlt'
          omega
        rw [List.getElem?_concat_length] at ht
        obtain rfl : task = task' := Option.some.inj ht
        rw [← hlength]
        exact ⟨_, List.getElem?_concat_length .., hcode _ task⟩
    · rw [spawned_act]
      refine ⟨by simpa using hlength, fun t task ht => ?_⟩
      obtain ⟨p, hp, hR⟩ := hthreads t task ht
      have hlt : t < P₁.threads.length := (List.getElem?_eq_some_iff.mp hp).1
      by_cases htt : t' = t
      · subst t'
        rw [hp] at hthread
        obtain rfl := Option.some.inj hthread
        exact ⟨_, List.getElem?_set_self hlt, hact t task e u k i _ hR he⟩
      · exact ⟨p, by rw [List.getElem?_set_ne htt, hp], hR⟩

/-- What every access of a task preserves holds of every run. -/
theorem run_keeps {K : ℕ → τ → σ → σ → Prop} {I : List τ → σ → Prop}
    (hcode : ∀ t task, (code t task).Always (K t task))
    (hspawn : ∀ tasks task s, I tasks s → I (tasks ++ [task]) s)
    (hact : ∀ tasks t task s s', tasks[t]? = some task → K t task s s' → I tasks s → I tasks s')
    (hP : P.threads = []) (hI : I [] P.shared) {moves : List (Move τ ι)}
    (hrun : P.run code moves = some P') : I (spawned moves) P'.shared := by
  induction moves using List.reverseRecOn generalizing P' with
  | nil =>
    obtain rfl : P = P' := Option.some.inj hrun
    exact hI
  | append_singleton moves m ih =>
    obtain ⟨P₁, hfirst, hm⟩ := run_concat.mp hrun
    rcases move_cases code hm with ⟨task, rfl, rfl⟩ | ⟨t, i, e, u, k, rfl, hthread, he, rfl⟩
    · rw [spawned_spawn]
      have hI₁ := ih hfirst
      exact hspawn _ _ _ hI₁
    · rw [spawned_act]
      obtain ⟨hlength, hthreads⟩ := thread_of_task (R := fun t task p => p.Always (K t task)) hcode
        (fun _ _ _ _ _ i s h he => (h i s he).2) hP hfirst
      have hlt : t < (spawned moves).length :=
        hlength ▸ (List.getElem?_eq_some_iff.mp hthread).1
      obtain ⟨p, hp, halways⟩ := hthreads t _ (List.getElem?_eq_getElem hlt)
      rw [hthread] at hp
      obtain rfl := Option.some.inj hp
      exact hact _ t _ _ _ (List.getElem?_eq_getElem hlt) (halways i _ he).1 (ih hfirst)

section Accounts

variable {G : Type} [AddCommGroup G] {J : σ → Prop} {value : σ → G} {calm : ℕ → τ → Prop}

def Balanced (J : σ → Prop) (value : σ → G) (calm : ℕ → τ → Prop) (t : ℕ) (task : τ)
    (p : Prog σ ι α) (b : G) : Prop :=
  (calm t task → b = 0 ∧ p.Always (fun s s' => J s → value s' = value s)) ∧
    (¬ calm t task → p.Books J value (fun _ b' => b' = 0) b)

theorem Balanced.act {t : ℕ} {task : τ} {e : ι → σ → Bool} {u : ι → σ → σ}
    {k : ι → σ → Prog σ ι α} {b : G} (h : Balanced J value calm t task (.act e u k) b) {i : ι}
    {s : σ} (hJ : J s) (he : e i s = true) :
    Balanced J value calm t task (k i s) (b + (value (u i s) - value s)) := by
  refine ⟨fun hcalm => ?_, fun hcalm => h.2 hcalm i s hJ he⟩
  obtain ⟨rfl, halways⟩ := h.1 hcalm
  refine ⟨?_, (halways i s he).2⟩
  rw [(halways i s he).1 hJ, sub_self, add_zero]

/-- The value is what the books of all threads say. -/
theorem value_eq_sum
    (hkeeps : ∀ t task, (code t task).Always (fun s s' => J s → J s'))
    (hcode : ∀ t task, Balanced J value calm t task (code t task) 0)
    (hP : P.threads = []) (hJ : J P.shared) {moves : List (Move τ ι)}
    (hrun : P.run code moves = some P') :
    ∃ books : ℕ → G,
      value P'.shared = value P.shared + ∑ t ∈ Finset.range (spawned moves).length, books t ∧
      (∀ t, (spawned moves).length ≤ t → books t = 0) ∧
      ∀ t task, (spawned moves)[t]? = some task → ∃ p, P'.threads[t]? = some p ∧
        Balanced J value calm t task p (books t) := by
  induction moves using List.reverseRecOn generalizing P' with
  | nil =>
    obtain rfl : P = P' := Option.some.inj hrun
    exact ⟨fun _ => 0, by simp [spawned], fun _ _ => rfl, by simp [spawned]⟩
  | append_singleton moves m ih =>
    obtain ⟨P₁, hfirst, hm⟩ := run_concat.mp hrun
    obtain ⟨books, hvalue, hzero, hbooks⟩ := ih hfirst
    have hlength : P₁.threads.length = (spawned moves).length :=
      (thread_of_task (R := fun _ _ _ => True) (fun _ _ => trivial)
        (fun _ _ _ _ _ _ _ _ _ => trivial) hP hfirst).1
    rcases move_cases code hm with ⟨task, rfl, rfl⟩ | ⟨t, i, e, u, k, rfl, hthread, he, rfl⟩
    · rw [spawned_spawn]
      refine ⟨books, ?_, fun t ht => hzero t ?_, fun t task' ht => ?_⟩
      · rw [List.length_append, List.length_singleton, Finset.sum_range_succ, hzero _ le_rfl,
          add_zero]
        exact hvalue
      · rw [List.length_append, List.length_singleton] at ht
        omega
      · by_cases hlt : t < (spawned moves).length
        · rw [List.getElem?_append_left hlt] at ht
          obtain ⟨p, hp, hbalanced⟩ := hbooks t task' ht
          exact ⟨p, by rw [List.getElem?_append_left (by omega), hp], hbalanced⟩
        · obtain rfl : t = (spawned moves).length := by
            have hlt' := (List.getElem?_eq_some_iff.mp ht).1
            simp only [List.length_append, List.length_singleton] at hlt'
            omega
          rw [List.getElem?_concat_length] at ht
          obtain rfl : task = task' := Option.some.inj ht
          refine ⟨_, by rw [← hlength]; exact List.getElem?_concat_length .., ?_⟩
          rw [hzero _ le_rfl, hlength]
          exact hcode _ task
    · have hJ₁ : J P₁.shared := run_keeps (I := fun _ s => J s) hkeeps (fun _ _ _ h => h)
        (fun _ _ _ _ _ _ hK h => hK h) hP hJ hfirst
      have hlt : t < (spawned moves).length :=
        hlength ▸ (List.getElem?_eq_some_iff.mp hthread).1
      rw [spawned_act]
      refine ⟨fun t' => books t' + if t' = t then value (u i P₁.shared) - value P₁.shared else 0,
        ?_, fun t' ht' => ?_, fun t' task ht' => ?_⟩
      · rw [Finset.sum_add_distrib, Finset.sum_ite_eq', if_pos (Finset.mem_range.mpr hlt),
          ← add_assoc, ← hvalue, add_sub_cancel]
      · have hne : t' ≠ t := by omega
        simp only [hzero t' ht', if_neg hne, add_zero]
      · obtain ⟨p, hp, hbalanced⟩ := hbooks t' task ht'
        by_cases htt : t' = t
        · subst t'
          rw [hthread] at hp
          obtain rfl := Option.some.inj hp
          simp only [if_pos]
          exact ⟨_, List.getElem?_set_self (by omega), hbalanced.act hJ₁ he⟩
        · simp only [if_neg htt, add_zero]
          exact ⟨p, by rw [List.getElem?_set_ne (Ne.symm htt), hp], hbalanced⟩

/-- When every thread that may change the value has returned, the value is the initial one. -/
theorem value_settled
    (hkeeps : ∀ t task, (code t task).Always (fun s s' => J s → J s'))
    (hcode : ∀ t task, Balanced J value calm t task (code t task) 0)
    (hP : P.threads = []) (hJ : J P.shared) {moves : List (Move τ ι)}
    (hrun : P.run code moves = some P')
    (hidle : ∀ t task, (spawned moves)[t]? = some task → ¬ calm t task →
      ∃ a, P'.threads[t]? = some (.ret a)) : value P'.shared = value P.shared := by
  obtain ⟨books, hvalue, _, hbooks⟩ := value_eq_sum hkeeps hcode hP hJ hrun
  rw [hvalue, Finset.sum_eq_zero, add_zero]
  intro t ht
  have hlt : t < (spawned moves).length := Finset.mem_range.mp ht
  obtain ⟨p, hp, hbalanced⟩ := hbooks t _ (List.getElem?_eq_getElem hlt)
  by_cases hcalm : calm t (spawned moves)[t]
  · exact (hbalanced.1 hcalm).1
  · obtain ⟨a, ha⟩ := hidle t _ (List.getElem?_eq_getElem hlt) hcalm
    rw [ha] at hp
    obtain rfl := Option.some.inj hp
    exact hbalanced.2 hcalm

end Accounts
end Pool
end KafkaEdgeRouter
