import KafkaEdgeRouter.AtomicProgram

/-!
# Thread pools and their protocols

A pool runs any number of threads over one shared state, one atomic step at a time in any order,
and may spawn a new thread at any moment. A protocol names an invariant of the shared state, what a
step of each thread may change, and what a thread that is not there yet may count on. If every
program keeps the protocol against the others, then so does every reachable pool.
-/

namespace KafkaEdgeRouter

def Prog.isRet {σ ι α : Type} : Prog σ ι α → Bool
  | .ret _ => true
  | .act _ _ _ => false

structure Pool (σ ι α : Type) where
  shared : σ
  threads : List (Prog σ ι α)

inductive Move (τ ι : Type)
  | spawn (task : τ)
  | act (thread : ℕ) (input : ι)

namespace Pool

variable {σ ι α τ : Type} (code : ℕ → τ → Prog σ ι α)

/-- A spawned thread is numbered by its place; a thread acts when the next access is enabled. -/
def move (P : Pool σ ι α) : Move τ ι → Option (Pool σ ι α)
  | .spawn task => some ⟨P.shared, P.threads ++ [code P.threads.length task]⟩
  | .act t i =>
    match P.threads[t]? with
    | some (.act e u k) =>
      if e i P.shared then some ⟨u i P.shared, P.threads.set t (k i P.shared)⟩ else none
    | _ => none

def run (P : Pool σ ι α) : List (Move τ ι) → Option (Pool σ ι α)
  | [] => some P
  | m :: moves => (P.move code m).bind (fun P' => P'.run moves)

def Reaches (P P' : Pool σ ι α) : Prop := ∃ moves, P.run code moves = some P'

theorem move_cases {P P' : Pool σ ι α} {m : Move τ ι} (h : P.move code m = some P') :
    (∃ task, m = .spawn task ∧ P' = ⟨P.shared, P.threads ++ [code P.threads.length task]⟩) ∨
    ∃ t i e u k, m = .act t i ∧ P.threads[t]? = some (.act e u k) ∧ e i P.shared = true ∧
      P' = ⟨u i P.shared, P.threads.set t (k i P.shared)⟩ := by
  cases m with
  | spawn task => exact Or.inl ⟨task, rfl, (Option.some.inj h).symm⟩
  | act t i =>
    simp only [move] at h
    split at h
    · rename_i e u k hthread
      split_ifs at h with he
      exact Or.inr ⟨t, i, e, u, k, rfl, hthread, he, (Option.some.inj h).symm⟩
    · cases h

end Pool

structure Protocol (σ : Type) where
  inv : σ → Prop
  guar : ℕ → σ → σ → Prop
  fresh : ℕ → σ → Prop

namespace Protocol

variable {σ ι α τ : Type}

/-- What thread `t` of a pool under the protocol promises and has to bear. -/
def contract (R : Protocol σ) (t : ℕ) : Contract σ where
  inv := R.inv
  interference s s' := ∃ u, u ≠ t ∧ R.guar u s s'
  guarantee := R.guar t

/-- Every thread can still keep its contract, and nobody has used a number to come. The threads
of the pool have the numbers that `number` gives them; other numbers act outside of the pool. -/
structure Holds (R : Protocol σ) (number : ℕ → ℕ) (Q : ℕ → α → σ → Prop) (P : Pool σ ι α) :
    Prop where
  inv : R.inv P.shared
  sat : ∀ k (p : Prog σ ι α), P.threads[k]? = some p →
    p.Sat (R.contract (number k)) (Q k) P.shared
  fresh : ∀ k, P.threads.length ≤ k → R.fresh (number k) P.shared

variable {R : Protocol σ} {number : ℕ → ℕ} {Q : ℕ → α → σ → Prop} {code : ℕ → τ → Prog σ ι α}

theorem Holds.spawn
    (hcode : ∀ k task s, R.inv s → R.fresh (number k) s →
      (code k task).Sat (R.contract (number k)) (Q k) s)
    {P : Pool σ ι α} (hP : R.Holds number Q P) (task : τ) :
    R.Holds number Q ⟨P.shared, P.threads ++ [code P.threads.length task]⟩ := by
  refine ⟨hP.inv, fun k p hp => ?_, fun k hk => hP.fresh k ?_⟩
  · rcases Nat.lt_trichotomy k P.threads.length with hlt | rfl | hgt
    · rw [List.getElem?_append_left hlt] at hp
      exact hP.sat k p hp
    · rw [List.getElem?_concat_length] at hp
      rw [← Option.some.inj hp]
      exact hcode _ task _ hP.inv (hP.fresh _ (Nat.le_refl _))
    · rw [List.getElem?_eq_none (by simpa using Nat.succ_le_of_lt hgt)] at hp
      cases hp
  · simp only [List.length_append, List.length_singleton] at hk
    omega

theorem Holds.outside (hfresh : ∀ t, (R.contract t).Stable (R.fresh t)) {P : Pool σ ι α}
    (hP : R.Holds number Q P) {t : ℕ} (ht : ∀ k, number k ≠ t) {s : σ} (hinv : R.inv s)
    (hguar : R.guar t P.shared s) : R.Holds number Q ⟨s, P.threads⟩ := by
  have hdisturb : ∀ k, (R.contract (number k)).disturbs P.shared s :=
    fun k => ⟨hP.inv, hinv, t, (ht k).symm, hguar⟩
  refine ⟨hinv, fun k p hp => ?_, fun k hk => ?_⟩
  · exact Prog.sat_rely (hP.sat k p hp) (Relation.ReflTransGen.single (hdisturb k))
  · exact hfresh (number k) _ _ hP.inv hinv (hdisturb k).2.2 (hP.fresh k hk)

theorem Holds.act (hnumber : Function.Injective number)
    (hfresh : ∀ t, (R.contract t).Stable (R.fresh t)) {P : Pool σ ι α}
    (hP : R.Holds number Q P) {t : ℕ} {i : ι} {e : ι → σ → Bool} {u : ι → σ → σ}
    {k : ι → σ → Prog σ ι α} (hthread : P.threads[t]? = some (.act e u k))
    (he : e i P.shared = true) :
    R.guar (number t) P.shared (u i P.shared) ∧
      R.Holds number Q ⟨u i P.shared, P.threads.set t (k i P.shared)⟩ := by
  obtain ⟨hinv, hguar, hnext⟩ :=
    hP.sat t _ hthread i P.shared hP.inv ((R.contract _).rely_refl _) he
  have hlt : t < P.threads.length := by
    by_contra hge
    rw [List.getElem?_eq_none (Nat.not_lt.mp hge)] at hthread
    cases hthread
  have hdisturb : ∀ t', t' ≠ t → (R.contract (number t')).disturbs P.shared (u i P.shared) :=
    fun t' hne => ⟨hP.inv, hinv, number t, fun heq => hne (hnumber heq).symm, hguar⟩
  refine ⟨hguar, hinv, fun t' p hp => ?_, fun t' ht' => ?_⟩
  · by_cases hne : t' = t
    · subst t'
      rw [List.getElem?_set_self hlt] at hp
      rwa [← Option.some.inj hp]
    · rw [List.getElem?_set_ne (Ne.symm hne)] at hp
      exact Prog.sat_rely (hP.sat t' p hp) (Relation.ReflTransGen.single (hdisturb t' hne))
  · rw [List.length_set] at ht'
    have hne : t' ≠ t := by omega
    exact hfresh _ _ _ hP.inv hinv (hdisturb t' hne).2.2 (hP.fresh t' ht')

theorem holds_move (hnumber : Function.Injective number)
    (hfresh : ∀ t, (R.contract t).Stable (R.fresh t))
    (hcode : ∀ k task s, R.inv s → R.fresh (number k) s →
      (code k task).Sat (R.contract (number k)) (Q k) s)
    {P P' : Pool σ ι α} {m : Move τ ι} (hP : R.Holds number Q P) (hm : P.move code m = some P') :
    R.Holds number Q P' := by
  rcases Pool.move_cases code hm with
    ⟨task, _, rfl⟩ | ⟨t, i, e, u, k, _, hthread, he, rfl⟩
  · exact hP.spawn hcode task
  · exact (hP.act hnumber hfresh hthread he).2

theorem holds_run (hnumber : Function.Injective number)
    (hfresh : ∀ t, (R.contract t).Stable (R.fresh t))
    (hcode : ∀ k task s, R.inv s → R.fresh (number k) s →
      (code k task).Sat (R.contract (number k)) (Q k) s)
    {P P' : Pool σ ι α} (hP : R.Holds number Q P) (hrun : P.Reaches code P') :
    R.Holds number Q P' := by
  obtain ⟨moves, hmoves⟩ := hrun
  induction moves generalizing P with
  | nil => rwa [← Option.some.inj hmoves]
  | cons m moves ih =>
    obtain ⟨P₁, hm, hrest⟩ := Option.bind_eq_some_iff.mp hmoves
    exact ih (holds_move hnumber hfresh hcode hP hm) hrest

end Protocol
end KafkaEdgeRouter
