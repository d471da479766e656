import KafkaEdgeRouter.ThreadPool

/-!
# What a program does whatever the others do

Properties of a program that need no assumption about the state: what every access does, which
results are possible, and what a program has done by the time it returns a result of some kind. They
are read off the code, one rule per way of building a program, and they hold of the thread that runs
the program in every pool. A contract that every access keeps on its own is kept by the program.
-/

namespace KafkaEdgeRouter

namespace Prog

variable {σ ι α β : Type} {K K' : σ → σ → Prop}

/-- Every access relates the state it meets and the one it leaves. -/
def Always (K : σ → σ → Prop) : Prog σ ι α → Prop
  | .ret _ => True
  | .act e u k => ∀ i s, e i s = true → K s (u i s) ∧ (k i s).Always K

def Yields (G : α → Prop) : Prog σ ι α → Prop
  | .ret a => G a
  | .act e _ k => ∀ i s, e i s = true → (k i s).Yields G

/-- By the time the program returns a result in `B`, every access of it was in `K`. -/
def Spares (K : σ → σ → Prop) (B : α → Prop) : Prog σ ι α → Prop
  | .ret _ => True
  | .act e u k => ∀ i s, e i s = true →
      K s (u i s) ∧ (k i s).Spares K B ∨ (k i s).Yields (fun a => ¬ B a)

theorem always_ret (a : α) : (Prog.ret a : Prog σ ι α).Always K := trivial

theorem always_bind {p : Prog σ ι α} {f : α → Prog σ ι β} (hp : p.Always K)
    (hf : ∀ a, (f a).Always K) : (p >>= f).Always K := by
  induction p with
  | ret a => exact hf a
  | act e u k ih => exact fun i s he => ⟨(hp i s he).1, ih i s (hp i s he).2⟩

theorem always_bind_yields {G : α → Prop} {p : Prog σ ι α} {f : α → Prog σ ι β}
    (hp : p.Always K) (hG : p.Yields G) (hf : ∀ a, G a → (f a).Always K) :
    (p >>= f).Always K := by
  induction p with
  | ret a => exact hf a hG
  | act e u k ih => exact fun i s he => ⟨(hp i s he).1, ih i s (hp i s he).2 (hG i s he)⟩

theorem always_await {e : ι → σ → Bool} {f : ι → σ → β × σ}
    (h : ∀ i s, e i s = true → K s (f i s).2) : (await e f).Always K :=
  fun i s he => ⟨h i s he, trivial⟩

theorem always_access {f : σ → β × σ} (h : ∀ s, K s (f s).2) :
    (access f : Prog σ ι β).Always K :=
  always_await (fun _ s _ => h s)

theorem always_mono {p : Prog σ ι α} (h : p.Always K) (hK : ∀ s s', K s s' → K' s s') :
    p.Always K' := by
  induction p with
  | ret a => trivial
  | act e u k ih => exact fun i s he => ⟨hK _ _ (h i s he).1, ih i s (h i s he).2⟩

/-- Accesses that keep a contract and an assertion, both from the state alone. -/
theorem sat_of_always {C : Contract σ} {P : σ → Prop} (hP : C.Stable P) {p : Prog σ ι α}
    (h : p.Always (fun s s' => C.inv s → P s → C.inv s' ∧ C.guarantee s s' ∧ P s')) {s : σ}
    (hs : P s) : p.Sat C (fun _ => P) s := by
  induction p generalizing s with
  | ret a => exact sat_ret hP hs
  | act e u k ih =>
    intro i s' hinv hrely he
    obtain ⟨hstep, hnext⟩ := h i s' he
    obtain ⟨hinv', hguar, hs'⟩ := hstep hinv (hP.rely hrely hs)
    exact ⟨hinv', hguar, ih i s' hnext hs'⟩

theorem yields_bind {G : β → Prop} {p : Prog σ ι α} {f : α → Prog σ ι β}
    (h : p.Yields (fun a => (f a).Yields G)) : (p >>= f).Yields G := by
  induction p with
  | ret a => exact h
  | act e u k ih => exact fun i s he => ih i s (h i s he)

theorem yields_mono {G G' : α → Prop} {p : Prog σ ι α} (h : p.Yields G)
    (hG : ∀ a, G a → G' a) : p.Yields G' := by
  induction p with
  | ret a => exact hG a h
  | act e u k ih => exact fun i s he => ih i s (h i s he)

theorem yields_of_forall {G : α → Prop} (h : ∀ a, G a) (p : Prog σ ι α) : p.Yields G := by
  induction p with
  | ret a => exact h a
  | act e u k ih => exact fun i s _ => ih i s

theorem yields_tail {G : β → Prop} (p : Prog σ ι α) {f : α → Prog σ ι β}
    (h : ∀ a, (f a).Yields G) : (p >>= f).Yields G :=
  yields_bind (yields_of_forall h p)

theorem Yields.spares {B : α → Prop} {p : Prog σ ι α} (h : p.Yields (fun a => ¬ B a)) :
    p.Spares K B := by
  cases p with
  | ret a => trivial
  | act e u k => exact fun i s he => Or.inr (h i s he)

/-- What follows a result outside `B'` does not come back to `B`. -/
theorem spares_bind {B : β → Prop} {B' : α → Prop} {p : Prog σ ι α} {f : α → Prog σ ι β}
    (hp : p.Spares K B') (hf : ∀ a, (f a).Spares K B)
    (hgood : ∀ a, ¬ B' a → (f a).Yields (fun b => ¬ B b)) : (p >>= f).Spares K B := by
  induction p with
  | ret a => exact hf a
  | act e u k ih =>
    intro i s he
    rcases hp i s he with ⟨hK, hk⟩ | hk
    · exact Or.inl ⟨hK, ih i s hk⟩
    · exact Or.inr (yields_bind (yields_mono hk hgood))

theorem spares_access {B : α → Prop} {f : σ → β × σ} {k : β → Prog σ ι α}
    (h : ∀ s, K s (f s).2 ∧ (k (f s).1).Spares K B ∨ (k (f s).1).Yields (fun a => ¬ B a)) :
    (access f >>= k : Prog σ ι α).Spares K B :=
  fun _ s _ => h s

theorem spares_await {B : α → Prop} {e : ι → σ → Bool} {f : ι → σ → β × σ} {k : β → Prog σ ι α}
    (h : ∀ i s, e i s = true →
      K s (f i s).2 ∧ (k (f i s).1).Spares K B ∨ (k (f i s).1).Yields (fun a => ¬ B a)) :
    (await e f >>= k : Prog σ ι α).Spares K B := h

end Prog

namespace Pool

variable {σ ι α τ : Type} {code : ℕ → τ → Prog σ ι α} {P P' : Pool σ ι α}

theorem run_cons_eq_some {m : Move τ ι} {moves : List (Move τ ι)}
    (h : P.run code (m :: moves) = some P') :
    ∃ P₁, P.move code m = some P₁ ∧ P₁.run code moves = some P' :=
  Option.bind_eq_some_iff.mp h

theorem run_cons {m : Move τ ι} {moves : List (Move τ ι)} {P₁ : Pool σ ι α}
    (hm : P.move code m = some P₁) (hrest : P₁.run code moves = some P') :
    P.run code (m :: moves) = some P' := by
  rw [run, hm]
  exact hrest

theorem run_append {moves moves' : List (Move τ ι)} :
    P.run code (moves ++ moves') = some P' ↔
      ∃ P₁, P.run code moves = some P₁ ∧ P₁.run code moves' = some P' := by
  induction moves generalizing P with
  | nil => simp [run]
  | cons m moves ih =>
    rw [List.cons_append]
    constructor
    · intro h
      obtain ⟨P₂, hm, hrest⟩ := run_cons_eq_some h
      obtain ⟨P₁, hrun, hrun'⟩ := ih.mp hrest
      exact ⟨P₁, run_cons hm hrun, hrun'⟩
    · rintro ⟨P₁, hrun, hrun'⟩
      obtain ⟨P₂, hm, hrest⟩ := run_cons_eq_some hrun
      exact run_cons hm (ih.mpr ⟨P₁, hrest, hrun'⟩)

theorem move_thread {m : Move τ ι} (h : P.move code m = some P') {t : ℕ} {p : Prog σ ι α}
    (hp : P.threads[t]? = some p) :
    P'.threads[t]? = some p ∧ (∀ i, m ≠ .act t i) ∨
    ∃ i e u k, m = .act t i ∧ p = .act e u k ∧ e i P.shared = true ∧
      P'.shared = u i P.shared ∧ P'.threads[t]? = some (k i P.shared) := by
  have hlt : t < P.threads.length := by
    by_contra hge
    rw [List.getElem?_eq_none (Nat.not_lt.mp hge)] at hp
    cases hp
  rcases move_cases code h with ⟨task, rfl, rfl⟩ | ⟨t', i, e, u, k, rfl, hthread, he, rfl⟩
  · exact Or.inl ⟨by rw [List.getElem?_append_left hlt, hp], by simp⟩
  · by_cases htt : t' = t
    · subst t'
      rw [hp] at hthread
      exact Or.inr ⟨i, e, u, k, rfl, Option.some.inj hthread, he, rfl,
        List.getElem?_set_self hlt⟩
    · exact Or.inl ⟨by rw [List.getElem?_set_ne htt, hp], by simp [htt]⟩

theorem yields_run {G : α → Prop} {moves : List (Move τ ι)} (hrun : P.run code moves = some P')
    {t : ℕ} {p : Prog σ ι α} (hp : P.threads[t]? = some p) (hG : p.Yields G) :
    ∃ p', P'.threads[t]? = some p' ∧ p'.Yields G := by
  induction moves generalizing P p with
  | nil => exact ⟨p, Option.some.inj hrun ▸ hp, hG⟩
  | cons m moves ih =>
    obtain ⟨P₁, hm, hrest⟩ := run_cons_eq_some hrun
    rcases move_thread hm hp with ⟨hp₁, _⟩ | ⟨i, e, u, k, rfl, rfl, he, _, hp₁⟩
    · exact ih hrest hp₁ hG
    · exact ih hrest hp₁ (hG i P.shared he)

def Kept (code : ℕ → τ → Prog σ ι α) (K : σ → σ → Prop) (t : ℕ) : Pool σ ι α →
    List (Move τ ι) → Prop
  | _, [] => True
  | P, m :: moves => ∀ P₁, P.move code m = some P₁ →
      ((∃ i, m = .act t i) → K P.shared P₁.shared) ∧ Kept code K t P₁ moves

theorem kept_of_spares {K : σ → σ → Prop} {B : α → Prop} {moves : List (Move τ ι)}
    (hrun : P.run code moves = some P') {t : ℕ} {p : Prog σ ι α} (hp : P.threads[t]? = some p)
    (hspares : p.Spares K B) {b : α} (hb : P'.threads[t]? = some (.ret b)) (hB : B b) :
    Kept code K t P moves := by
  induction moves generalizing P p with
  | nil => trivial
  | cons m moves ih =>
    intro P₁ hm
    obtain ⟨P₁', hm', hrest⟩ := run_cons_eq_some hrun
    obtain rfl : P₁' = P₁ := Option.some.inj (hm'.symm.trans hm)
    rcases move_thread hm hp with ⟨hp₁, hne⟩ | ⟨i, e, u, k, rfl, rfl, he, hs, hp₁⟩
    · exact ⟨fun ⟨i, hi⟩ => absurd hi (hne i), ih hrest hp₁ hspares⟩
    · rcases hspares i P.shared he with ⟨hK, hk⟩ | hk
      · exact ⟨fun _ => by rw [hs]; exact hK, ih hrest hp₁ hk⟩
      · obtain ⟨p', hp', hyields⟩ := yields_run hrest hp₁ hk
        rw [hb] at hp'
        rw [← Option.some.inj hp'] at hyields
        exact absurd hB hyields

/-- A thread that is spawned in the run has a program that spares. -/
theorem kept_of_code {K : σ → σ → Prop} {B : α → Prop} {moves : List (Move τ ι)}
    (hcode : ∀ t task, (code t task).Spares K B) (hrun : P.run code moves = some P') {t : ℕ}
    (ht : P.threads.length ≤ t) {b : α} (hb : P'.threads[t]? = some (.ret b)) (hB : B b) :
    Kept code K t P moves := by
  induction moves generalizing P with
  | nil => trivial
  | cons m moves ih =>
    intro P₁ hm
    obtain ⟨P₁', hm', hrest⟩ := run_cons_eq_some hrun
    obtain rfl : P₁' = P₁ := Option.some.inj (hm'.symm.trans hm)
    rcases move_cases code hm with ⟨task, rfl, rfl⟩ | ⟨t', i, e, u, k, rfl, hthread, he, rfl⟩
    · refine ⟨by simp, ?_⟩
      by_cases htt : t = P.threads.length
      · subst t
        exact kept_of_spares hrest (List.getElem?_concat_length ..) (hcode _ task) hb hB
      · refine ih hrest ?_
        simp only [List.length_append, List.length_singleton]
        omega
    · refine ⟨fun ⟨i', hi⟩ => ?_, ih hrest (by simpa using ht)⟩
      obtain ⟨rfl, _⟩ := Move.act.inj hi
      rw [List.getElem?_eq_none ht] at hthread
      cases hthread

end Pool
end KafkaEdgeRouter
