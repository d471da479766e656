import KafkaEdgeRouter.ProgramNotes

/-!
# Threads that take turns under a lock

A program runs in sections: outside of the lock it may wait, for the lock or for something that is
worth waiting for; inside it never waits, and it gives the lock back. In a pool of such programs the
owner of the lock can always go on. So if no thread can act, the lock is free and every thread has
ended or waits for something other than the lock. And a thread that has nothing but the lock left to
wait for can be run to its end.
-/

namespace KafkaEdgeRouter

structure LockDiscipline (σ ι : Type) where
  owner : σ → Option ℕ
  /-- What a thread outside of the lock may wait for. -/
  waits : (ι → σ → Bool) → Prop

variable {σ σ' ι ι' α β τ ξ : Type} {D : LockDiscipline σ ι} {t : ℕ}

/-- The same lock, and nothing else to wait for. -/
def LockDiscipline.prompt (D : LockDiscipline σ ι) : LockDiscipline σ ι :=
  { D with waits := fun _ => False }

/-- An access inside of the lock, and whether the thread is inside after it. -/
structure LockDiscipline.Inside (D : LockDiscipline σ ι) (t : ℕ) (e : ι → σ → Bool)
    (u : ι → σ → σ) (next : Bool → ι → σ → Prop) : Prop where
  enabled : ∀ s, D.owner s = some t → ∃ i, e i s = true
  step : ∀ i s, D.owner s = some t → e i s = true →
    D.owner (u i s) = some t ∧ next true i s ∨ D.owner (u i s) = none ∧ next false i s

structure LockDiscipline.Outside (D : LockDiscipline σ ι) (t : ℕ) (e : ι → σ → Bool)
    (u : ι → σ → σ) (next : Bool → ι → σ → Prop) : Prop where
  waits : ∀ s, D.owner s = none → (∃ i, e i s = true) ∨ D.waits e
  step : ∀ i s, D.owner s ≠ some t → e i s = true →
    D.owner (u i s) = D.owner s ∧ next false i s ∨
      D.owner s = none ∧ D.owner (u i s) = some t ∧ next true i s

namespace Prog

/-- The program starts inside of the lock if `held` says so and ends inside if `after` does. -/
def Sections (D : LockDiscipline σ ι) (t : ℕ) (after : Bool) : Prog σ ι α → Bool → Prop
  | .ret _, held => held = after
  | .act e u k, true => D.Inside t e u (fun held i s => (k i s).Sections D t after held)
  | .act e u k, false => D.Outside t e u (fun held i s => (k i s).Sections D t after held)

variable {held mid after : Bool}

theorem sections_ret (D : LockDiscipline σ ι) (t : ℕ) (held : Bool) (a : α) :
    (Prog.ret a : Prog σ ι α).Sections D t held held := rfl

theorem sections_bind {p : Prog σ ι α} {f : α → Prog σ ι β} (hp : p.Sections D t mid held)
    (hf : ∀ a, (f a).Sections D t after mid) : (p >>= f).Sections D t after held := by
  induction p generalizing held with
  | ret a =>
    obtain rfl : held = mid := hp
    exact hf a
  | act e u k ih =>
    cases held with
    | true =>
      obtain ⟨henabled, hstep⟩ : D.Inside t e u _ := hp
      refine ⟨henabled, fun i s hs he => ?_⟩
      exact (hstep i s hs he).imp (fun h => ⟨h.1, ih i s h.2⟩) (fun h => ⟨h.1, ih i s h.2⟩)
    | false =>
      obtain ⟨hwaits, hstep⟩ : D.Outside t e u _ := hp
      refine ⟨hwaits, fun i s hs he => ?_⟩
      exact (hstep i s hs he).imp (fun h => ⟨h.1, ih i s h.2⟩) (fun h => ⟨h.1, h.2.1, ih i s h.2.2⟩)

theorem sections_of_prompt {p : Prog σ ι α} (hp : p.Sections D.prompt t after held) :
    p.Sections D t after held := by
  induction p generalizing held with
  | ret a => exact hp
  | act e u k ih =>
    cases held with
    | true =>
      obtain ⟨henabled, hstep⟩ : D.prompt.Inside t e u _ := hp
      refine ⟨henabled, fun i s hs he => ?_⟩
      exact (hstep i s hs he).imp (fun h => ⟨h.1, ih i s h.2⟩) (fun h => ⟨h.1, ih i s h.2⟩)
    | false =>
      obtain ⟨hwaits, hstep⟩ : D.prompt.Outside t e u _ := hp
      refine ⟨fun s hs => (hwaits s hs).imp_right False.elim, fun i s hs he => ?_⟩
      exact (hstep i s hs he).imp (fun h => ⟨h.1, ih i s h.2⟩) (fun h => ⟨h.1, h.2.1, ih i s h.2.2⟩)

theorem sections_await {e : ι → σ → Bool} {f : ι → σ → β × σ} (hfree : ∀ s, ∃ i, e i s = true)
    (howner : ∀ i s, D.owner (f i s).2 = D.owner s) : (await e f).Sections D t held held := by
  cases held with
  | true => exact ⟨fun s _ => hfree s, fun i s hs _ => Or.inl ⟨(howner i s).trans hs, rfl⟩⟩
  | false => exact ⟨fun s _ => Or.inl (hfree s), fun i s _ _ => Or.inl ⟨howner i s, rfl⟩⟩

theorem sections_access [Nonempty ι] {f : σ → β × σ} (howner : ∀ s, D.owner (f s).2 = D.owner s) :
    (access f : Prog σ ι β).Sections D t held held :=
  sections_await (fun _ => ⟨Classical.arbitrary ι, rfl⟩) (fun _ s => howner s)

theorem sections_wait {e : ι → σ → Bool} {f : ι → σ → β × σ} (hwaits : D.waits e)
    (howner : ∀ i s, D.owner (f i s).2 = D.owner s) : (await e f).Sections D t false false :=
  ⟨fun _ _ => Or.inr hwaits, fun i s _ _ => Or.inl ⟨howner i s, rfl⟩⟩

theorem sections_lock {e : ι → σ → Bool} {f : ι → σ → β × σ}
    (hfree : ∀ s, D.owner s = none → ∃ i, e i s = true)
    (htaken : ∀ i s, e i s = true → D.owner s = none ∧ D.owner (f i s).2 = some t) :
    (await e f).Sections D t true false :=
  ⟨fun s hs => Or.inl (hfree s hs), fun i s _ he =>
    Or.inr ⟨(htaken i s he).1, (htaken i s he).2, rfl⟩⟩

theorem sections_unlock [Nonempty ι] {f : σ → β × σ} (hgiven : ∀ s, D.owner (f s).2 = none) :
    (access f : Prog σ ι β).Sections D t false true :=
  ⟨fun _ _ => ⟨Classical.arbitrary ι, rfl⟩, fun _ s _ _ => Or.inr ⟨hgiven s, rfl⟩⟩

theorem sections_zoom {D' : LockDiscipline σ' ι'} {V : View σ' σ} {input : ι' → ι}
    (hinput : Function.Surjective input) (howner : ∀ s, D'.owner s = D.owner (V.get s))
    (hwaits : ∀ e, ¬ D.waits e) {p : Prog σ ι α} (hp : p.Sections D t after held) :
    (p.zoom V input).Sections D' t after held := by
  induction p generalizing held with
  | ret a => exact hp
  | act e u k ih =>
    cases held with
    | true =>
      obtain ⟨henabled, hstep⟩ : D.Inside t e u _ := hp
      refine ⟨fun s hs => ?_, fun i s hs he => ?_⟩
      · obtain ⟨i, he⟩ := henabled (V.get s) (howner s ▸ hs)
        obtain ⟨i', rfl⟩ := hinput i
        exact ⟨i', he⟩
      · rw [howner, V.get_set]
        exact (hstep (input i) (V.get s) (howner s ▸ hs) he).imp
          (fun h => ⟨h.1, ih _ _ h.2⟩) (fun h => ⟨h.1, ih _ _ h.2⟩)
    | false =>
      obtain ⟨hwait, hstep⟩ : D.Outside t e u _ := hp
      refine ⟨fun s hs => Or.inl ?_, fun i s hs he => ?_⟩
      · obtain ⟨i, he⟩ := (hwait (V.get s) (howner s ▸ hs)).resolve_right (hwaits e)
        obtain ⟨i', rfl⟩ := hinput i
        exact ⟨i', he⟩
      · rw [howner, howner, V.get_set]
        exact (hstep (input i) (V.get s) (howner s ▸ hs) he).imp
          (fun h => ⟨h.1, ih _ _ h.2⟩) (fun h => ⟨h.1, h.2.1, ih _ _ h.2.2⟩)

theorem sections_follow [Inhabited α] {turn : τ → ξ → Prog σ ι (Next τ α)}
    (hend : D.waits (fun _ _ => false))
    (hturn : ∀ point next, (turn point next).Sections D t false false) (script : List ξ)
    (point : τ) : (follow turn point script).Sections D t false false := by
  induction script generalizing point with
  | nil => exact sections_wait hend (fun _ _ => rfl)
  | cons next rest ih =>
    refine sections_bind (hturn point next) (fun result => ?_)
    cases result with
    | again point' => exact ih point'
    | done a => exact sections_ret D t false a

end Prog

/-- Every thread is in a section that fits the owner of the lock. -/
structure Pool.Disciplined (D : LockDiscipline σ ι) (P : Pool σ ι α) : Prop where
  sections : ∀ t p, P.threads[t]? = some p →
    ∃ held, (held = true ↔ D.owner P.shared = some t) ∧ p.Sections D t false held
  owner : ∀ t, D.owner P.shared = some t → t < P.threads.length

namespace Pool

variable {code : ℕ → τ → Prog σ ι α} {P P' : Pool σ ι α}

theorem Disciplined.spawn (h : P.Disciplined D) {p : Prog σ ι α}
    (hp : p.Sections D P.threads.length false false) :
    (⟨P.shared, P.threads ++ [p]⟩ : Pool σ ι α).Disciplined D := by
  refine ⟨fun t q hq => ?_, fun t ht => ?_⟩
  · rcases Nat.lt_or_ge t P.threads.length with hlt | hge
    · rw [List.getElem?_append_left hlt] at hq
      exact h.sections t q hq
    · obtain ⟨rfl, rfl⟩ : t = P.threads.length ∧ p = q := by
        rw [List.getElem?_append_right hge] at hq
        obtain ⟨hlt, heq⟩ := List.getElem?_eq_some_iff.mp hq
        rw [List.length_singleton] at hlt
        exact ⟨by omega, by simpa using heq⟩
      refine ⟨false, ⟨fun hf => absurd hf Bool.false_ne_true, fun howner => ?_⟩, hp⟩
      exact absurd (h.owner _ howner) (Nat.lt_irrefl _)
  · rw [List.length_append]
    exact Nat.lt_add_right _ (h.owner t ht)

theorem Disciplined.access (h : P.Disciplined D) {e : ι → σ → Bool} {u : ι → σ → σ}
    {k : ι → σ → Prog σ ι α} {i : ι} (hthread : P.threads[t]? = some (.act e u k))
    (he : e i P.shared = true) :
    (∀ v, v ≠ t → (D.owner (u i P.shared) = some v ↔ D.owner P.shared = some v)) ∧
    ∃ held, (held = true ↔ D.owner (u i P.shared) = some t) ∧
      (k i P.shared).Sections D t false held := by
  obtain ⟨held, hheld, hsections⟩ := h.sections t _ hthread
  cases held with
  | true =>
    have howner := hheld.mp rfl
    obtain ⟨_, hstep⟩ : D.Inside t e u _ := hsections
    rcases hstep i P.shared howner he with ⟨hkept, hnext⟩ | ⟨hgiven, hnext⟩
    · exact ⟨fun v _ => by rw [hkept, howner], true, by simp [hkept], hnext⟩
    · exact ⟨fun v hv => by simp [hgiven, howner, hv.symm], false, by simp [hgiven], hnext⟩
  | false =>
    have howner : D.owner P.shared ≠ some t := fun ht => absurd (hheld.mpr ht) Bool.false_ne_true
    obtain ⟨_, hstep⟩ : D.Outside t e u _ := hsections
    rcases hstep i P.shared howner he with ⟨hkept, hnext⟩ | ⟨hnone, htaken, hnext⟩
    · exact ⟨fun v _ => by rw [hkept], false, by simp [hkept, howner], hnext⟩
    · exact ⟨fun v hv => by simp [hnone, htaken, hv.symm], true, by simp [htaken], hnext⟩

theorem disciplined_move (hcode : ∀ t task, (code t task).Sections D t false false)
    (h : P.Disciplined D) {m : Move τ ι} (hm : P.move code m = some P') : P'.Disciplined D := by
  rcases move_cases code hm with ⟨task, _, rfl⟩ | ⟨t, i, e, u, k, _, hthread, he, rfl⟩
  · exact h.spawn (hcode _ task)
  · obtain ⟨hothers, held, hheld, hsections⟩ := h.access hthread he
    obtain ⟨hlt, _⟩ := List.getElem?_eq_some_iff.mp hthread
    refine ⟨fun v q hq => ?_, fun v hv => ?_⟩
    · by_cases hvt : v = t
      · subst v
        rw [List.getElem?_set_self hlt] at hq
        cases hq
        exact ⟨held, hheld, hsections⟩
      · rw [List.getElem?_set_ne (Ne.symm hvt)] at hq
        obtain ⟨held', hheld', hsections'⟩ := h.sections v q hq
        exact ⟨held', hheld'.trans (hothers v hvt).symm, hsections'⟩
    · rw [List.length_set]
      by_cases hvt : v = t
      · rw [hvt]
        exact hlt
      · exact h.owner v ((hothers v hvt).mp hv)

theorem disciplined_run (hcode : ∀ t task, (code t task).Sections D t false false)
    (h : P.Disciplined D) {moves : List (Move τ ι)} (hrun : P.run code moves = some P') :
    P'.Disciplined D := by
  induction moves generalizing P with
  | nil =>
    cases hrun
    exact h
  | cons m moves ih =>
    obtain ⟨P₁, hm, hrest⟩ := Option.bind_eq_some_iff.mp hrun
    exact ih (disciplined_move hcode h hm) hrest

variable (code)

theorem move_act {e : ι → σ → Bool} {u : ι → σ → σ} {k : ι → σ → Prog σ ι α} {i : ι}
    (hthread : P.threads[t]? = some (.act e u k)) (he : e i P.shared = true) :
    P.move code (.act t i) = some ⟨u i P.shared, P.threads.set t (k i P.shared)⟩ := by
  simp only [move, hthread, he, if_true]

theorem Disciplined.owner_moves (h : P.Disciplined D) (howner : D.owner P.shared = some t) :
    ∃ i P', P.move code (.act t i) = some P' := by
  obtain ⟨p, hp⟩ : ∃ p, P.threads[t]? = some p :=
    ⟨_, List.getElem?_eq_getElem (h.owner t howner)⟩
  obtain ⟨held, hheld, hsections⟩ := h.sections t p hp
  obtain rfl : held = true := hheld.mpr howner
  cases p with
  | ret a => exact absurd hsections.symm Bool.false_ne_true
  | act e u k =>
    obtain ⟨henabled, _⟩ : D.Inside t e u _ := hsections
    obtain ⟨i, he⟩ := henabled P.shared howner
    exact ⟨i, _, move_act code hp he⟩

/-- Nobody waits for the lock in a pool that is stuck. -/
theorem Disciplined.stuck (h : P.Disciplined D)
    (hstuck : ∀ t i, P.move code (.act t i) = none) :
    D.owner P.shared = none ∧ ∀ (t : ℕ) (p : Prog σ ι α), P.threads[t]? = some p →
      p.isRet = true ∨ ∃ e u k, p = .act e u k ∧ D.waits e ∧ ∀ i, e i P.shared = false := by
  have hfree : D.owner P.shared = none := by
    refine Option.eq_none_iff_forall_ne_some.mpr (fun t ht => ?_)
    obtain ⟨i, P', hm⟩ := h.owner_moves code ht
    rw [hstuck t i] at hm
    cases hm
  refine ⟨hfree, fun t p hp => ?_⟩
  cases p with
  | ret a => exact Or.inl rfl
  | act e u k =>
    have hblocked : ∀ i, e i P.shared = false := by
      intro i
      by_contra he
      have hm := move_act code hp (Bool.of_not_eq_false he)
      rw [hstuck t i] at hm
      cases hm
    obtain ⟨held, hheld, hsections⟩ := h.sections t _ hp
    cases held with
    | true => exact absurd (hheld.mp rfl) (by simp [hfree])
    | false =>
      obtain ⟨hwaits, _⟩ : D.Outside t e u _ := hsections
      refine Or.inr ⟨e, u, k, rfl, (hwaits P.shared hfree).resolve_left ?_, hblocked⟩
      rintro ⟨i, he⟩
      rw [hblocked i] at he
      cases he

/-- The owner of the lock can be run until it has given the lock back. -/
theorem releases {p : Prog σ ι α} (hp : P.threads[t]? = some p)
    (howner : D.owner P.shared = some t) (hsections : p.Sections D t false true) :
    ∃ moves P', P.run code moves = some P' ∧ D.owner P'.shared = none ∧
      ∀ v, v ≠ t → P'.threads[v]? = P.threads[v]? := by
  induction p generalizing P with
  | ret a => exact absurd hsections.symm Bool.false_ne_true
  | act e u k ih =>
    obtain ⟨henabled, hstep⟩ : D.Inside t e u _ := hsections
    obtain ⟨i, he⟩ := henabled P.shared howner
    obtain ⟨hlt, _⟩ := List.getElem?_eq_some_iff.mp hp
    have hm := move_act code hp he
    have hothers : ∀ v, v ≠ t → (P.threads.set t (k i P.shared))[v]? = P.threads[v]? :=
      fun v hv => List.getElem?_set_ne (Ne.symm hv)
    rcases hstep i P.shared howner he with ⟨hkept, hnext⟩ | ⟨hgiven, _⟩
    · obtain ⟨moves, P', hrun, hfree, hsame⟩ :=
        ih i P.shared (P := ⟨u i P.shared, P.threads.set t (k i P.shared)⟩)
          (List.getElem?_set_self hlt) hkept hnext
      exact ⟨_, P', run_cons hm hrun, hfree, fun v hv => (hsame v hv).trans (hothers v hv)⟩
    · exact ⟨[.act t i], _, run_cons hm rfl, hgiven, hothers⟩

theorem Disciplined.frees (h : P.Disciplined D) :
    ∃ moves P', P.run code moves = some P' ∧ D.owner P'.shared = none ∧
      ∀ v, D.owner P.shared ≠ some v → P'.threads[v]? = P.threads[v]? := by
  cases howner : D.owner P.shared with
  | none => exact ⟨[], P, rfl, howner, fun _ _ => rfl⟩
  | some t =>
    obtain ⟨p, hp⟩ : ∃ p, P.threads[t]? = some p :=
      ⟨_, List.getElem?_eq_getElem (h.owner t howner)⟩
    obtain ⟨held, hheld, hsections⟩ := h.sections t p hp
    obtain rfl : held = true := hheld.mpr howner
    obtain ⟨moves, P', hrun, hfree, hothers⟩ := releases code hp howner hsections
    exact ⟨moves, P', hrun, hfree, fun v hv => hothers v fun heq => hv (heq ▸ rfl)⟩

/-- The thread can be run to its end, after which the lock is free. -/
def Finishes (D : LockDiscipline σ ι) (P : Pool σ ι α) (t : ℕ) : Prop :=
  ∃ moves P' a, P.run code moves = some P' ∧ P'.threads[t]? = some (.ret a) ∧
    D.owner P'.shared = none

variable {code}

theorem Finishes.of_run {moves : List (Move τ ι)} (hrun : P.run code moves = some P')
    (h : P'.Finishes code D t) : P.Finishes code D t := by
  obtain ⟨moves', P'', a, hrun', hend⟩ := h
  exact ⟨moves ++ moves', P'', a, run_append.mpr ⟨P', hrun, hrun'⟩, hend⟩

/-- A thread that waits for nothing but the lock finishes. -/
theorem Disciplined.finishes (hcode : ∀ t task, (code t task).Sections D t false false)
    (h : P.Disciplined D) {p : Prog σ ι α} (hp : P.threads[t]? = some p) {held : Bool}
    (hheld : held = true ↔ D.owner P.shared = some t)
    (hsections : p.Sections D.prompt t false held) : P.Finishes code D t := by
  induction p generalizing P held with
  | ret a =>
    obtain rfl : held = false := hsections
    obtain ⟨moves, P', hrun, hfree, hothers⟩ := h.frees code
    refine ⟨moves, P', a, hrun, (hothers t fun ht => ?_).trans hp, hfree⟩
    exact absurd (hheld.mpr ht) Bool.false_ne_true
  | act e u k ih =>
    have hgo : ∀ {Q : Pool σ ι α} {i : ι} {held' : Bool}, Q.Disciplined D →
        Q.threads[t]? = some (.act e u k) → e i Q.shared = true →
        (held' = true ↔ D.owner (u i Q.shared) = some t) →
        (k i Q.shared).Sections D.prompt t false held' → Q.Finishes code D t := by
      intro Q i held' hQ hq he hheld' hnext
      have hm := move_act code hq he
      obtain ⟨hlt, _⟩ := List.getElem?_eq_some_iff.mp hq
      have hrun : Q.run code [.act t i] = some _ := run_cons hm rfl
      exact .of_run hrun (ih i Q.shared (disciplined_move hcode hQ hm)
        (List.getElem?_set_self hlt) hheld' hnext)
    cases held with
    | true =>
      have howner := hheld.mp rfl
      obtain ⟨henabled, hstep⟩ : D.prompt.Inside t e u _ := hsections
      obtain ⟨i, he⟩ := henabled P.shared howner
      rcases hstep i P.shared howner he with ⟨hkept, hnext⟩ | ⟨hgiven, hnext⟩
      · exact hgo h hp he ⟨fun _ => hkept, fun _ => rfl⟩ hnext
      · refine hgo h hp he ⟨fun hf => absurd hf Bool.false_ne_true, fun ht => ?_⟩ hnext
        exact absurd (hgiven.symm.trans ht) (by simp)
    | false =>
      obtain ⟨hwaits, hstep⟩ : D.prompt.Outside t e u _ := hsections
      obtain ⟨moves, P₁, hrun, hfree, hothers⟩ := h.frees code
      have hp₁ : P₁.threads[t]? = some (.act e u k) :=
        (hothers t fun ht => absurd (hheld.mpr ht) Bool.false_ne_true).trans hp
      have h₁ := disciplined_run hcode h hrun
      have howner : D.owner P₁.shared ≠ some t := by simp [hfree]
      obtain ⟨i, he⟩ := (hwaits P₁.shared hfree).resolve_right id
      refine .of_run hrun ?_
      rcases hstep i P₁.shared howner he with ⟨hkept, hnext⟩ | ⟨_, htaken, hnext⟩
      · refine hgo h₁ hp₁ he ⟨fun hf => absurd hf Bool.false_ne_true, fun ht => ?_⟩ hnext
        exact absurd (hkept.symm.trans ht) howner
      · exact hgo h₁ hp₁ he ⟨fun _ => htaken, fun _ => rfl⟩ hnext

end Pool
end KafkaEdgeRouter
