import KafkaEdgeRouter.CrashRestart
import Mathlib.Algebra.Ring.Nat

/-!
# Processes that end once they are told to

A demand is raised at some moment and then stays raised. A program is prompt when it makes a bounded
number of accesses and, while the demand is raised, never waits for something that need not come. If
every pass of a loop is prompt and a pass that starts under the demand lowers a rank, then the
process returns within a number of moves that is known from the moment the demand is raised.
-/

namespace KafkaEdgeRouter

/-- What is demanded of a program, and the inputs that it can count on then. -/
structure Demand (σ ι : Type) where
  raised : σ → Prop
  offered : ι → Prop

namespace Prog

variable {σ ι α β : Type} {C : Contract σ} {D : Demand σ ι} {Q Q' : α → σ → Prop} {m n : ℕ}

/-- `Sat` with at most `n` accesses, none of which is stuck under the demand. The program neither
raises the demand nor takes it back. -/
def Prompt (C : Contract σ) (D : Demand σ ι) (Q : α → σ → Prop) : ℕ → Prog σ ι α → σ → Prop
  | _, .ret a, s => ∀ s', C.inv s' → C.rely s s' → Q a s'
  | 0, .act _ _ _, _ => False
  | n + 1, .act e u k, s => ∀ s', C.inv s' → C.rely s s' →
      (D.raised s' → ∃ i, D.offered i ∧ e i s' = true) ∧
      ∀ i, e i s' = true → C.inv (u i s') ∧ C.guarantee s' (u i s') ∧
        (D.raised (u i s') ↔ D.raised s') ∧ (k i s').Prompt C D Q n (u i s')

theorem prompt_rely {p : Prog σ ι α} {s s' : σ} (h : p.Prompt C D Q n s) (hr : C.rely s s') :
    p.Prompt C D Q n s' := by
  cases p with
  | ret a => cases n <;> exact fun s'' hi hr' => h s'' hi (C.rely_trans hr hr')
  | act e u k =>
    cases n with
    | zero => exact h
    | succ n => exact fun s'' hi hr' => h s'' hi (C.rely_trans hr hr')

theorem prompt_ret {a : α} {s : σ} (hQ : C.Stable (Q a)) (h : Q a s) :
    (Prog.ret a : Prog σ ι α).Prompt C D Q n s := by
  cases n <;> exact fun s' _ hr => hQ.rely hr h

theorem prompt_mono {p : Prog σ ι α} {s : σ} (h : p.Prompt C D Q m s) (hle : m ≤ n)
    (hQ : ∀ a s, C.inv s → Q a s → Q' a s) : p.Prompt C D Q' n s := by
  induction p generalizing m n s with
  | ret a =>
    have h' : ∀ s', C.inv s' → C.rely s s' → Q a s' := by cases m <;> exact h
    cases n <;> exact fun s' hi hr => hQ a s' hi (h' s' hi hr)
  | act e u k ih =>
    cases m with
    | zero => exact h.elim
    | succ m =>
      obtain ⟨n, rfl⟩ : ∃ n', n = n' + 1 := ⟨n - 1, by omega⟩
      intro s' hi hr
      obtain ⟨hoffered, hstep⟩ := h s' hi hr
      refine ⟨hoffered, fun i he => ?_⟩
      obtain ⟨hinv, hguar, hraised, hnext⟩ := hstep i he
      exact ⟨hinv, hguar, hraised, ih i s' hnext (by omega)⟩

theorem prompt_bind {p : Prog σ ι α} {f : α → Prog σ ι β} {R : β → σ → Prop} {s : σ}
    (hs : C.inv s) (h : p.Prompt C D (fun a s' => (f a).Prompt C D R n s') m s) :
    (p >>= f).Prompt C D R (m + n) s := by
  induction p generalizing m s with
  | ret a =>
    have h' : (f a).Prompt C D R n s := by cases m <;> exact h s hs (C.rely_refl s)
    exact prompt_mono h' (by omega) (fun _ _ _ h => h)
  | act e u k ih =>
    cases m with
    | zero => exact h.elim
    | succ m =>
      rw [Nat.succ_add]
      intro s' hi hr
      obtain ⟨hoffered, hstep⟩ := h s' hi hr
      refine ⟨hoffered, fun i he => ?_⟩
      obtain ⟨hinv, hguar, hraised, hnext⟩ := hstep i he
      exact ⟨hinv, hguar, hraised, ih i s' hinv hnext⟩

theorem prompt_await {P : σ → Prop} {e : ι → σ → Bool} {f : ι → σ → β × σ} {k : β → Prog σ ι α}
    {s : σ} (hP : C.Stable P) (hs : P s)
    (hoffered : ∀ s', C.inv s' → P s' → D.raised s' → ∃ i, D.offered i ∧ e i s' = true)
    (h : ∀ i s', C.inv s' → P s' → e i s' = true →
      C.inv (f i s').2 ∧ C.guarantee s' (f i s').2 ∧ (D.raised (f i s').2 ↔ D.raised s') ∧
        (k (f i s').1).Prompt C D Q n (f i s').2) :
    (await e f >>= k).Prompt C D Q (n + 1) s :=
  fun s' hi hr => ⟨hoffered s' hi (hP.rely hr hs), fun i he => h i s' hi (hP.rely hr hs) he⟩

theorem prompt_atomic {P : σ → Prop} {e : ι → σ → Bool} {f : ι → σ → α × σ} {s : σ}
    (hP : C.Stable P) (hQ : ∀ a, C.Stable (Q a)) (hs : P s)
    (hoffered : ∀ s', C.inv s' → P s' → D.raised s' → ∃ i, D.offered i ∧ e i s' = true)
    (h : ∀ i s', C.inv s' → P s' → e i s' = true →
      C.inv (f i s').2 ∧ C.guarantee s' (f i s').2 ∧ (D.raised (f i s').2 ↔ D.raised s') ∧
        Q (f i s').1 (f i s').2) :
    (await e f).Prompt C D Q 1 s := by
  refine prompt_await (k := Prog.ret) hP hs hoffered (fun i s' hi hp he => ?_)
  obtain ⟨hinv, hguar, hraised, hpost⟩ := h i s' hi hp he
  exact ⟨hinv, hguar, hraised, prompt_ret (hQ _) hpost⟩

theorem sat_of_prompt {p : Prog σ ι α} {s : σ} (h : p.Prompt C D Q n s) : p.Sat C Q s := by
  induction p generalizing n s with
  | ret a => cases n <;> exact h
  | act e u k ih =>
    cases n with
    | zero => exact h.elim
    | succ n =>
      intro i s' hi hr he
      obtain ⟨hinv, hguar, _, hnext⟩ := (h s' hi hr).2 i he
      exact ⟨hinv, hguar, ih i s' hnext⟩

theorem prompt_tryThen {τ δ : Type} {p : Prog σ ι (Except δ β)}
    {next : β → Prog σ ι (Next τ (Except δ α))} {Q : Next τ (Except δ α) → σ → Prop} {s : σ}
    (hs : C.inv s) (hstable : ∀ e, C.Stable (Q (.done (.error e))))
    (h : p.Prompt C D (fun r s' => match r with
      | .ok b => (next b).Prompt C D Q n s'
      | .error e => Q (.done (.error e)) s') m s) : (p.tryThen next).Prompt C D Q (m + n) s := by
  apply prompt_bind hs
  apply prompt_mono h (Nat.le_refl m)
  intro r s' _ hr
  cases r with
  | ok b => exact hr
  | error e => exact prompt_ret (hstable e) hr

end Prog

inductive Funded {α : Type} (cost : α → ℕ → Prop) : List α → ℕ → Prop
  | nil : Funded cost [] 0
  | cons {a : α} {l : List α} {n b : ℕ} : cost a n → Funded cost l b → Funded cost (a :: l) (n + b)

namespace Funded

variable {α : Type} {cost : α → ℕ → Prop} {l : List α} {b : ℕ}

theorem of_forall {f : α → ℕ} (h : ∀ a ∈ l, cost a (f a)) : Funded cost l (l.map f).sum := by
  induction l with
  | nil => exact .nil
  | cons a l ih =>
    exact .cons (h a List.mem_cons_self) (ih (fun a' ha' => h a' (List.mem_cons_of_mem a ha')))

theorem map {f : α → α} (h : Funded cost l b) (hf : ∀ a ∈ l, ∀ n, cost a n → cost (f a) n) :
    Funded cost (l.map f) b := by
  induction h with
  | nil => exact .nil
  | @cons a l n b ha _ ih =>
    exact .cons (hf a List.mem_cons_self n ha)
      (ih (fun a' ha' => hf a' (List.mem_cons_of_mem a ha')))

theorem set {k d : ℕ} {a a' : α} (h : Funded cost l b) (hk : l[k]? = some a)
    (ha : ∀ n, cost a n → ∃ n', n' + d ≤ n ∧ cost a' n') :
    ∃ b', b' + d ≤ b ∧ Funded cost (l.set k a') b' := by
  induction h generalizing k with
  | nil => cases hk
  | @cons a₁ l n b ha₁ hl ih =>
    cases k with
    | zero =>
      obtain rfl : a₁ = a := Option.some.inj hk
      obtain ⟨n', hn', ha'⟩ := ha n ha₁
      exact ⟨n' + b, by omega, .cons ha' hl⟩
    | succ k =>
      obtain ⟨b', hb', hl'⟩ := ih hk
      exact ⟨n + b', by omega, .cons ha₁ hl'⟩

end Funded

namespace System

variable {σ ι ε τ α : Type} (S : System σ ι ε τ α) (inv : σ → Prop) (D : Demand σ ι)

/-- Within `n` moves the process returns, and until then a move is possible. -/
def Ends : ℕ → Prog σ ι (Next τ α) → σ → Prop
  | _, .ret (.done _), _ => True
  | 0, _, _ => False
  | n + 1, .ret (.again t), s => ∀ s', inv s' → (S.contract inv).rely s s' → Ends n (S.pass t) s'
  | n + 1, .act e u k, s => ∀ s', inv s' → (S.contract inv).rely s s' →
      (∃ i, D.offered i ∧ e i s' = true) ∧ ∀ i, e i s' = true → Ends n (k i s') (u i s')

/-- Every pass is prompt, and under the demand it lowers the rank. -/
structure Obeys (bound : ℕ) (rank : τ → ℕ) (point : τ → σ → Prop) (result : α → σ → Prop) :
    Prop where
  environment : ∀ e s s', inv s → S.environment e s = some s' →
    inv s' ∧ (D.raised s → D.raised s')
  boot : ∀ s, inv s → inv (S.boot s) ∧ point S.entry (S.boot s)
  pass : ∀ t s, inv s → point t s → (S.pass t).Prompt (S.contract inv) D
    (Leaves (fun t' s' => point t' s' ∧ (D.raised s → rank t' < rank t)) result) bound s

variable {S inv D} {bound : ℕ} {rank : τ → ℕ} {point : τ → σ → Prop} {result : α → σ → Prop}

theorem Obeys.stable_raised (h : S.Obeys inv D bound rank point result) :
    (S.contract inv).Stable D.raised := by
  rintro s s' hi _ ⟨e, he⟩ hr
  exact (h.environment e s s' hi he).2 hr

theorem Ends.rely {p : Prog σ ι (Next τ α)} {n : ℕ} {s s' : σ} (h : S.Ends inv D n p s)
    (hr : (S.contract inv).rely s s') : S.Ends inv D n p s' := by
  rcases p with ⟨t | a⟩ | ⟨e, u, k⟩
  · cases n with
    | zero => exact h
    | succ n => exact fun s'' hi hr' => h s'' hi ((S.contract inv).rely_trans hr hr')
  · cases n <;> exact trivial
  · cases n with
    | zero => exact h
    | succ n => exact fun s'' hi hr' => h s'' hi ((S.contract inv).rely_trans hr hr')

theorem Ends.mono {p : Prog σ ι (Next τ α)} {m n : ℕ} {s : σ} (h : S.Ends inv D m p s)
    (hle : m ≤ n) : S.Ends inv D n p s := by
  induction m generalizing n p s with
  | zero =>
    rcases p with ⟨t | a⟩ | ⟨e, u, k⟩
    · exact h.elim
    · cases n <;> exact trivial
    · exact h.elim
  | succ m ih =>
    obtain ⟨n, rfl⟩ : ∃ n', n = n' + 1 := ⟨n - 1, by omega⟩
    rcases p with ⟨t | a⟩ | ⟨e, u, k⟩
    · exact fun s' hi hr => ih (h s' hi hr) (by omega)
    · exact trivial
    · exact fun s' hi hr => ⟨(h s' hi hr).1, fun i he => ih ((h s' hi hr).2 i he) (by omega)⟩

theorem ends_of_prompt (hstable : (S.contract inv).Stable D.raised)
    {Q : Next τ α → σ → Prop} {p : Prog σ ι (Next τ α)} {m n : ℕ} {s : σ} (hs : inv s)
    (hraised : D.raised s) (h : p.Prompt (S.contract inv) D Q m s)
    (hQ : ∀ next s', inv s' → D.raised s' →
      (∀ s'', inv s'' → (S.contract inv).rely s' s'' → Q next s'') →
        S.Ends inv D n (.ret next) s') :
    S.Ends inv D (m + n) p s := by
  induction p generalizing m s with
  | ret next =>
    have h' : ∀ s', inv s' → (S.contract inv).rely s s' → Q next s' := by cases m <;> exact h
    exact (hQ next s hs hraised h').mono (by omega)
  | act e u k ih =>
    cases m with
    | zero => exact h.elim
    | succ m =>
      rw [Nat.succ_add]
      intro s' hi hr
      obtain ⟨hoffered, hstep⟩ := h s' hi hr
      have hraised' : D.raised s' := hstable.rely hr hraised
      refine ⟨hoffered hraised', fun i he => ?_⟩
      obtain ⟨hinv, _, hkeeps, hnext⟩ := hstep i he
      exact ih i s' hinv (hkeeps.mpr hraised') hnext

/-- Under the demand, every pass that is still to come lowers the rank. -/
theorem Obeys.ends_again (h : S.Obeys inv D bound rank point result) (t : τ) {s : σ}
    (hraised : D.raised s)
    (hpoint : ∀ s', inv s' → (S.contract inv).rely s s' → point t s') :
    S.Ends inv D ((bound + 1) * (rank t + 1)) (.ret (.again t)) s := by
  induction hn : rank t using Nat.strongRecOn generalizing t s with
  | ind n ih =>
    have hlength : (bound + 1) * (n + 1) = bound + (bound + 1) * n + 1 := by
      rw [Nat.mul_succ]
      omega
    rw [hlength]
    intro s' hi hr
    have hraised' : D.raised s' := h.stable_raised.rely hr hraised
    apply ends_of_prompt h.stable_raised hi hraised' (h.pass t s' hi (hpoint s' hi hr))
    intro next s₁ hi₁ hraised₁ hnext
    cases next with
    | done a => cases (bound + 1) * n <;> exact trivial
    | again t' =>
      have hlt : rank t' < n := hn ▸ (hnext s₁ hi₁ ((S.contract inv).rely_refl s₁)).2 hraised'
      have hends := ih (rank t') hlt t' hraised₁ (fun s₂ hi₂ hr₂ => (hnext s₂ hi₂ hr₂).1) rfl
      exact hends.mono (Nat.mul_le_mul_left _ hlt)

/-- The node is sound, and the rest of its pass is prompt. -/
structure Heeding (S : System σ ι ε τ α) (inv : σ → Prop) (D : Demand σ ι) (bound : ℕ)
    (point : τ → σ → Prop) (result : α → σ → Prop) (n : Node σ ι τ α) : Prop where
  durable : inv n.durable
  process : ∀ p, n.process = some p →
    p.Prompt (S.contract inv) D (Leaves point result) bound n.durable

theorem Obeys.prompt_pass (h : S.Obeys inv D bound rank point result) {t : τ} {s : σ}
    (hs : inv s) (hpoint : point t s) :
    (S.pass t).Prompt (S.contract inv) D (Leaves point result) bound s := by
  refine Prog.prompt_mono (h.pass t s hs hpoint) (Nat.le_refl _) ?_
  intro next s' _ hnext
  cases next with
  | again t' => exact hnext.1
  | done a => exact hnext

theorem heeding_move (h : S.Obeys inv D bound rank point result) {n n' : Node σ ι τ α}
    {m : NodeMove ε ι} (hn : S.Heeding inv D bound point result n) (hm : S.move n m = some n') :
    S.Heeding inv D bound point result n' := by
  obtain ⟨s, process⟩ := n
  cases m with
  | environment e =>
    obtain ⟨s', hs', rfl⟩ := Option.map_eq_some_iff.mp hm
    have hinv := (h.environment e _ s' hn.durable hs').1
    refine ⟨hinv, fun p hp => Prog.prompt_rely (hn.process p hp) ?_⟩
    exact Relation.ReflTransGen.single ⟨hn.durable, hinv, e, hs'⟩
  | start =>
    cases process with
    | some p => cases hm
    | none =>
      cases hm
      obtain ⟨hinv, hentry⟩ := h.boot s hn.durable
      refine ⟨hinv, fun p hp => ?_⟩
      cases hp
      exact h.prompt_pass hinv hentry
  | crash =>
    cases hm
    exact ⟨hn.durable, fun p hp => by cases hp⟩
  | act i =>
    rcases process with _ | ⟨_ | ⟨e, u, k⟩⟩
    · cases hm
    · cases hm
    · simp only [move] at hm
      split_ifs at hm with he
      cases hm
      have hprompt := hn.process _ rfl
      cases bound with
      | zero => exact hprompt.elim
      | succ bound =>
        obtain ⟨hinv, _, _, hnext⟩ :=
          (hprompt s hn.durable (Contract.rely_refl _ s)).2 i he
        refine ⟨hinv, fun p hp => ?_⟩
        cases hp
        exact Prog.prompt_mono hnext (by omega) (fun _ _ _ hQ => hQ)
  | again =>
    rcases process with _ | ⟨⟨t⟩ | ⟨a⟩⟩ | _
    · cases hm
    · cases hm
      have hsat := Prog.sat_of_prompt (hn.process _ rfl)
      refine ⟨hn.durable, fun p hp => ?_⟩
      cases hp
      exact h.prompt_pass hn.durable (hsat s hn.durable (Contract.rely_refl _ s))
    · cases hm
    · cases hm

theorem Heeding.raised_act {n n' : Node σ ι τ α} {i : ι}
    (hn : S.Heeding inv D bound point result n) (hm : S.move n (.act i) = some n') :
    D.raised n'.durable ↔ D.raised n.durable := by
  obtain ⟨s, _ | ⟨_ | ⟨e, u, k⟩⟩⟩ := n
  · cases hm
  · cases hm
  · simp only [move] at hm
    split_ifs at hm with he
    cases hm
    have hprompt := hn.process _ rfl
    cases bound with
    | zero => exact hprompt.elim
    | succ bound => exact ((hprompt s hn.durable (Contract.rely_refl _ s)).2 i he).2.2.1

theorem Heeding.leaves {n : Node σ ι τ α} (hn : S.Heeding inv D bound point result n)
    {next : Next τ α} (hnext : n.process = some (.ret next)) :
    Leaves point result next n.durable :=
  Prog.sat_of_prompt (hn.process _ hnext) n.durable hn.durable (Contract.rely_refl _ _)

/-- Once the demand is raised, the process has so many moves left. -/
theorem Obeys.ends (h : S.Obeys inv D bound rank point result) {top : ℕ}
    (htop : ∀ t, rank t ≤ top) {n : Node σ ι τ α} (hn : S.Heeding inv D bound point result n)
    (hraised : D.raised n.durable) {p : Prog σ ι (Next τ α)} (hp : n.process = some p) :
    S.Ends inv D (bound + (bound + 1) * (top + 1)) p n.durable := by
  apply ends_of_prompt h.stable_raised hn.durable hraised (hn.process p hp)
  intro next s hi hraised' hnext
  cases next with
  | done a => cases (bound + 1) * (top + 1) <;> exact trivial
  | again t =>
    apply (h.ends_again t hraised' hnext).mono
    exact Nat.mul_le_mul_left _ (by have := htop t; omega)

end System
end KafkaEdgeRouter
