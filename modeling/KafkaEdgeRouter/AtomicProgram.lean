import Mathlib.Logic.Relation
import Mathlib.Tactic.Common

/-!
# Programs over a shared state, one atomic access at a time

A program is what is left of one thread's code. Every access of the shared state is one atomic
step, which may wait for a condition and may read an input that the environment chooses. Between
two accesses other threads and the environment act, so a contract names an invariant of the shared
state, the interference a program has to bear and the changes it may make itself. `Sat` is the
weakest precondition of a program under such a contract; the rules below take programs apart along
their binds, and `sat_run` reads a sequential execution as the case without interference.
-/

namespace KafkaEdgeRouter

/-- `act enabled update next` waits for an input and a state that enable it, leaves the updated
state behind and continues according to the input and state it saw. -/
inductive Prog (σ ι α : Type) : Type
  | ret (a : α)
  | act (enabled : ι → σ → Bool) (update : ι → σ → σ) (next : ι → σ → Prog σ ι α)

namespace Prog

variable {σ ι α β : Type}

def bind : Prog σ ι α → (α → Prog σ ι β) → Prog σ ι β
  | .ret a, f => f a
  | .act e u k, f => .act e u (fun i s => (k i s).bind f)

instance : Monad (Prog σ ι) where
  pure := Prog.ret
  bind := Prog.bind

theorem bind_assoc {γ : Type} (p : Prog σ ι α) (f : α → Prog σ ι β) (g : β → Prog σ ι γ) :
    p >>= f >>= g = p >>= fun a => f a >>= g := by
  induction p with
  | ret a => rfl
  | act e u k ih => exact congrArg (Prog.act e u) (funext fun i => funext fun s => ih i s)

/-- One access that may wait and may read an input. -/
def await (enabled : ι → σ → Bool) (f : ι → σ → β × σ) : Prog σ ι β :=
  .act enabled (fun i s => (f i s).2) (fun i s => .ret (f i s).1)

def access (f : σ → β × σ) : Prog σ ι β := await (fun _ _ => true) (fun _ s => f s)

def modify (f : σ → σ) : Prog σ ι Unit := access (fun s => ((), f s))

def read (f : σ → β) : Prog σ ι β := access (fun s => (f s, s))

/-- Execution without interference. It is undefined when the program waits in vain. -/
def run : Prog σ ι α → (ℕ → ι) → σ → Option (α × σ)
  | .ret a, _, s => some (a, s)
  | .act e u k, input, s =>
    if e (input 0) s then (k (input 0) s).run (fun n => input (n + 1)) (u (input 0) s) else none

theorem run_bind_same (p : Prog σ ι α) (f : α → Prog σ ι β) (i : ι) (s : σ) :
    (p >>= f).run (fun _ => i) s =
      (p.run (fun _ => i) s).bind (fun r => (f r.1).run (fun _ => i) r.2) := by
  induction p generalizing s with
  | ret a => rfl
  | act e u k ih =>
    change (if e i s then (k i s >>= f).run (fun _ => i) (u i s) else none) =
      (if e i s then (k i s).run (fun _ => i) (u i s) else none).bind _
    split_ifs with he
    · exact ih i s (u i s)
    · rfl

end Prog

/-- What a thread may assume of the shared state and of the others, and what it promises. -/
structure Contract (σ : Type) where
  inv : σ → Prop
  interference : σ → σ → Prop
  guarantee : σ → σ → Prop

namespace Contract

variable {σ : Type} (C : Contract σ)

def disturbs (s s' : σ) : Prop := C.inv s ∧ C.inv s' ∧ C.interference s s'

def rely : σ → σ → Prop := Relation.ReflTransGen C.disturbs

theorem rely_refl (s : σ) : C.rely s s := Relation.ReflTransGen.refl

theorem rely_trans {s s' s'' : σ} (h : C.rely s s') (h' : C.rely s' s'') : C.rely s s'' :=
  Relation.ReflTransGen.trans h h'

def Stable (P : σ → Prop) : Prop :=
  ∀ s s', C.inv s → C.inv s' → C.interference s s' → P s → P s'

theorem Stable.rely {C : Contract σ} {P : σ → Prop} (hP : C.Stable P) {s s' : σ}
    (h : C.rely s s') (hs : P s) : P s' := by
  induction h with
  | refl => exact hs
  | tail _ hd ih => exact hP _ _ hd.1 hd.2.1 hd.2.2 ih

theorem Stable.and {C : Contract σ} {P P' : σ → Prop} (hP : C.Stable P) (hP' : C.Stable P') :
    C.Stable (fun s => P s ∧ P' s) :=
  fun s s' hi hi' hd h => ⟨hP s s' hi hi' hd h.1, hP' s s' hi hi' hd h.2⟩

end Contract

namespace Prog

variable {σ ι α β : Type} {C : Contract σ} {Q Q' : α → σ → Prop}

/-- From `s`, whatever the others do, every step keeps the invariant and the guarantee, and the
result satisfies `Q` in whatever state the others leave. -/
def Sat (C : Contract σ) (Q : α → σ → Prop) : Prog σ ι α → σ → Prop
  | .ret a, s => ∀ s', C.inv s' → C.rely s s' → Q a s'
  | .act e u k, s => ∀ i s', C.inv s' → C.rely s s' → e i s' = true →
      C.inv (u i s') ∧ C.guarantee s' (u i s') ∧ (k i s').Sat C Q (u i s')

theorem sat_rely {p : Prog σ ι α} {s s' : σ} (h : p.Sat C Q s) (hr : C.rely s s') :
    p.Sat C Q s' := by
  cases p with
  | ret a => exact fun s'' hi hr' => h s'' hi (C.rely_trans hr hr')
  | act e u k => exact fun i s'' hi hr' he => h i s'' hi (C.rely_trans hr hr') he

theorem sat_mono {p : Prog σ ι α} {s : σ} (h : p.Sat C Q s)
    (hQ : ∀ a s, C.inv s → Q a s → Q' a s) : p.Sat C Q' s := by
  induction p generalizing s with
  | ret a => exact fun s' hi hr => hQ a s' hi (h s' hi hr)
  | act e u k ih =>
    intro i s' hi hr he
    obtain ⟨hinv, hguar, hnext⟩ := h i s' hi hr he
    exact ⟨hinv, hguar, ih i s' hnext⟩

theorem sat_bind {p : Prog σ ι α} {f : α → Prog σ ι β} {R : β → σ → Prop} {s : σ}
    (hs : C.inv s) (h : p.Sat C (fun a s' => (f a).Sat C R s') s) : (p >>= f).Sat C R s := by
  induction p generalizing s with
  | ret a => exact h s hs (C.rely_refl s)
  | act e u k ih =>
    intro i s' hi hr he
    obtain ⟨hinv, hguar, hnext⟩ := h i s' hi hr he
    exact ⟨hinv, hguar, ih i s' hinv hnext⟩

theorem sat_ret {a : α} {s : σ} (hQ : C.Stable (Q a)) (h : Q a s) :
    (Prog.ret a : Prog σ ι α).Sat C Q s :=
  fun _ _ hr => hQ.rely hr h

/-- The rule for one access: its precondition has to survive the others, and in every state it
meets, it has to keep the contract and to hand on to the continuation. -/
theorem sat_await {P : σ → Prop} {e : ι → σ → Bool} {f : ι → σ → β × σ}
    {k : β → Prog σ ι α} {s : σ} (hP : C.Stable P) (hs : P s)
    (h : ∀ i s', C.inv s' → P s' → e i s' = true →
      C.inv (f i s').2 ∧ C.guarantee s' (f i s').2 ∧ (k (f i s').1).Sat C Q (f i s').2) :
    (await e f >>= k).Sat C Q s :=
  fun i s' hi hr he => h i s' hi (hP.rely hr hs) he

theorem sat_atomic {P : σ → Prop} {e : ι → σ → Bool} {f : ι → σ → α × σ} {s : σ}
    (hP : C.Stable P) (hQ : ∀ a, C.Stable (Q a)) (hs : P s)
    (h : ∀ i s', C.inv s' → P s' → e i s' = true →
      C.inv (f i s').2 ∧ C.guarantee s' (f i s').2 ∧ Q (f i s').1 (f i s').2) :
    (await e f).Sat C Q s := by
  intro i s' hi hr he
  obtain ⟨hinv, hguar, hpost⟩ := h i s' hi (hP.rely hr hs) he
  exact ⟨hinv, hguar, sat_ret (hQ _) hpost⟩

theorem sat_access {P : σ → Prop} {f : σ → β × σ} {k : β → Prog σ ι α} {s : σ}
    (hP : C.Stable P) (hs : P s)
    (h : ∀ s', C.inv s' → P s' →
      C.inv (f s').2 ∧ C.guarantee s' (f s').2 ∧ (k (f s').1).Sat C Q (f s').2) :
    (access f >>= k : Prog σ ι α).Sat C Q s :=
  sat_await hP hs (fun _ s' hi hp _ => h s' hi hp)

theorem sat_run {p : Prog σ ι α} {s s' : σ} {a : α} {input : ℕ → ι} (hs : C.inv s)
    (h : p.Sat C Q s) (hrun : p.run input s = some (a, s')) : C.inv s' ∧ Q a s' := by
  induction p generalizing s input with
  | ret b =>
    obtain ⟨rfl, rfl⟩ : b = a ∧ s = s' := by simpa [run] using hrun
    exact ⟨hs, h s hs (C.rely_refl s)⟩
  | act e u k ih =>
    simp only [run] at hrun
    split_ifs at hrun with he
    obtain ⟨hinv, _, hnext⟩ := h (input 0) s hs (C.rely_refl s) he
    exact ih (input 0) s hinv hnext hrun

/-- Alone and with any inputs, the program never waits in vain and ends in `Q`. -/
def Completes (Q : α → σ → Prop) : Prog σ ι α → σ → Prop
  | .ret a, s => Q a s
  | .act e u k, s => ∀ i, e i s = true ∧ (k i s).Completes Q (u i s)

theorem completes_bind {p : Prog σ ι α} {f : α → Prog σ ι β} {R : β → σ → Prop} {s : σ}
    (h : p.Completes (fun a s' => (f a).Completes R s') s) : (p >>= f).Completes R s := by
  induction p generalizing s with
  | ret a => exact h
  | act e u k ih => exact fun i => ⟨(h i).1, ih i s (h i).2⟩

theorem completes_await {e : ι → σ → Bool} {f : ι → σ → β × σ} {k : β → Prog σ ι α} {s : σ}
    (he : ∀ i, e i s = true) (h : ∀ i, (k (f i s).1).Completes Q (f i s).2) :
    (await e f >>= k : Prog σ ι α).Completes Q s :=
  fun i => ⟨he i, h i⟩

theorem completes_access {f : σ → β × σ} {k : β → Prog σ ι α} {s : σ}
    (h : (k (f s).1).Completes Q (f s).2) : (access f >>= k : Prog σ ι α).Completes Q s :=
  completes_await (fun _ => rfl) (fun _ => h)

theorem completes_mono {p : Prog σ ι α} {s : σ} (h : p.Completes Q s)
    (hQ : ∀ a s, Q a s → Q' a s) : p.Completes Q' s := by
  induction p generalizing s with
  | ret a => exact hQ a s h
  | act e u k ih => exact fun i => ⟨(h i).1, ih i s (h i).2⟩

theorem completes_run {p : Prog σ ι α} {s : σ} (h : p.Completes Q s) (input : ℕ → ι) :
    ∃ a s', p.run input s = some (a, s') ∧ Q a s' := by
  induction p generalizing s input with
  | ret a => exact ⟨a, s, rfl, h⟩
  | act e u k ih =>
    obtain ⟨he, hk⟩ := h (input 0)
    obtain ⟨a, s', hrun, hQ⟩ := ih (input 0) s hk (fun n => input (n + 1))
    exact ⟨a, s', by simp only [run, he, if_true, hrun], hQ⟩

end Prog
end KafkaEdgeRouter
