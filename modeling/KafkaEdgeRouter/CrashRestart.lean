import KafkaEdgeRouter.AtomicProgram

/-!
# Processes that crash and restart

A node is a durable state and at most one process that works on it. The process is a loop: every
pass is a program that either names the point from which the next pass starts or ends the process.
It may crash before any of its accesses, keeps nothing but the durable state and may be started
again any number of times, while an environment changes the durable state at any moment. A system
upholds an invariant when the environment, every start and every pass of the loop do; then the
invariant holds in every node that can be reached.
-/

namespace KafkaEdgeRouter

inductive Next (τ α : Type)
  | again (point : τ)
  | done (result : α)

structure Node (σ ι τ α : Type) where
  durable : σ
  process : Option (Prog σ ι (Next τ α))

def Node.returned {σ ι τ α : Type} (n : Node σ ι τ α) : Option α :=
  match n.process with
  | some (.ret (.done a)) => some a
  | _ => none

theorem Node.process_of_returned {σ ι τ α : Type} {n : Node σ ι τ α} {a : α}
    (h : n.returned = some a) : n.process = some (.ret (.done a)) := by
  unfold Node.returned at h
  split at h
  · rename_i a' hprocess
    rw [hprocess, Option.some.inj h]
  · cases h

def Node.point {σ ι τ α : Type} (n : Node σ ι τ α) : Option τ :=
  match n.process with
  | some (.ret (.again t)) => some t
  | _ => none

theorem Node.process_of_point {σ ι τ α : Type} {n : Node σ ι τ α} {t : τ}
    (h : n.point = some t) : n.process = some (.ret (.again t)) := by
  unfold Node.point at h
  split at h
  · rename_i t' hprocess
    rw [hprocess, Option.some.inj h]
  · cases h

inductive NodeMove (ε ι : Type)
  | environment (event : ε)
  | start
  | crash
  | act (input : ι)
  | again

structure System (σ ι ε τ α : Type) where
  environment : ε → σ → Option σ
  boot : σ → σ
  entry : τ
  pass : τ → Prog σ ι (Next τ α)

/-- Go on with the value, or end the process with the failure. -/
def Prog.tryThen {σ ι τ α β δ : Type} (p : Prog σ ι (Except δ β))
    (next : β → Prog σ ι (Next τ (Except δ α))) : Prog σ ι (Next τ (Except δ α)) :=
  p >>= fun
    | .ok b => next b
    | .error e => .ret (.done (.error e))

theorem Prog.sat_tryThen {σ ι τ α β δ : Type} {C : Contract σ} {p : Prog σ ι (Except δ β)}
    {next : β → Prog σ ι (Next τ (Except δ α))} {Q : Next τ (Except δ α) → σ → Prop} {s : σ}
    (hs : C.inv s) (hstable : ∀ e, C.Stable (Q (.done (.error e))))
    (h : p.Sat C (fun r s' => match r with
      | .ok b => (next b).Sat C Q s'
      | .error e => Q (.done (.error e)) s') s) : (p.tryThen next).Sat C Q s := by
  apply Prog.sat_bind hs
  apply Prog.sat_mono h
  intro r s' _ hr
  cases r with
  | ok b => exact hr
  | error e => exact Prog.sat_ret (hstable e) hr

namespace System

variable {σ ι ε τ α : Type} (S : System σ ι ε τ α)

def move (n : Node σ ι τ α) : NodeMove ε ι → Option (Node σ ι τ α)
  | .environment e => (S.environment e n.durable).map (fun s => ⟨s, n.process⟩)
  | .start =>
    match n.process with
    | none => some ⟨S.boot n.durable, some (S.pass S.entry)⟩
    | some _ => none
  | .crash => some ⟨n.durable, none⟩
  | .act i =>
    match n.process with
    | some (.act e u k) =>
      if e i n.durable then some ⟨u i n.durable, some (k i n.durable)⟩ else none
    | _ => none
  | .again =>
    match n.process with
    | some (.ret (.again t)) => some ⟨n.durable, some (S.pass t)⟩
    | _ => none

def run (n : Node σ ι τ α) : List (NodeMove ε ι) → Option (Node σ ι τ α)
  | [] => some n
  | m :: moves => (S.move n m).bind (fun n' => run n' moves)

def final (n : Node σ ι τ α) (moves : List (NodeMove ε ι)) : Node σ ι τ α :=
  (S.run n moves).getD n

def contract (inv : σ → Prop) : Contract σ where
  inv := inv
  interference s s' := ∃ e, S.environment e s = some s'
  guarantee _ _ := True

/-- What a pass leaves behind: the next pass can start, or the process has ended well. -/
def Leaves (point : τ → σ → Prop) (result : α → σ → Prop) : Next τ α → σ → Prop
  | .again t => point t
  | .done a => result a

structure Upholds (inv : σ → Prop) (point : τ → σ → Prop) (result : α → σ → Prop) : Prop where
  environment : ∀ e s s', inv s → S.environment e s = some s' → inv s'
  boot : ∀ s, inv s → inv (S.boot s) ∧ point S.entry (S.boot s)
  pass : ∀ t s, inv s → point t s → (S.pass t).Sat (S.contract inv) (Leaves point result) s

/-- The durable state is sound, and the process can go on from where it is. -/
structure Sound (inv : σ → Prop) (point : τ → σ → Prop) (result : α → σ → Prop)
    (n : Node σ ι τ α) : Prop where
  durable : inv n.durable
  process : ∀ p, n.process = some p →
    p.Sat (S.contract inv) (Leaves point result) n.durable

variable {S} {inv : σ → Prop} {point : τ → σ → Prop} {result : α → σ → Prop}

theorem sound_move (hS : S.Upholds inv point result) {n n' : Node σ ι τ α} {m : NodeMove ε ι}
    (hn : S.Sound inv point result n) (hm : S.move n m = some n') :
    S.Sound inv point result n' := by
  obtain ⟨s, process⟩ := n
  cases m with
  | environment e =>
    obtain ⟨s', hs', rfl⟩ := Option.map_eq_some_iff.mp hm
    have hinv := hS.environment e _ s' hn.durable hs'
    constructor
    · exact hinv
    · intro p hp
      apply Prog.sat_rely (hn.process p hp)
      exact Relation.ReflTransGen.single ⟨hn.durable, hinv, e, hs'⟩
  | start =>
    cases process with
    | some p => cases hm
    | none =>
      cases hm
      obtain ⟨hinv, hentry⟩ := hS.boot s hn.durable
      constructor
      · exact hinv
      · intro p hp
        cases hp
        exact hS.pass _ _ hinv hentry
  | crash =>
    cases hm
    constructor
    · exact hn.durable
    · intro p hp
      cases hp
  | act i =>
    rcases process with _ | ⟨_ | ⟨e, u, k⟩⟩
    · cases hm
    · cases hm
    · simp only [move] at hm
      split_ifs at hm with he
      cases hm
      have hsat := hn.process _ rfl i s hn.durable (Contract.rely_refl _ s) he
      constructor
      · exact hsat.1
      · intro p hp
        cases hp
        exact hsat.2.2
  | again =>
    rcases process with _ | ⟨⟨t⟩ | ⟨a⟩⟩ | _
    · cases hm
    · cases hm
      have hpoint := hn.process _ rfl s hn.durable (Contract.rely_refl _ s)
      constructor
      · exact hn.durable
      · intro p hp
        cases hp
        exact hS.pass t s hn.durable hpoint
    · cases hm
    · cases hm

theorem sound_run (hS : S.Upholds inv point result) {n n' : Node σ ι τ α}
    {moves : List (NodeMove ε ι)} (hn : S.Sound inv point result n)
    (hrun : S.run n moves = some n') :
    S.Sound inv point result n' := by
  induction moves generalizing n with
  | nil => rwa [← Option.some.inj hrun]
  | cons m moves ih =>
    obtain ⟨n₁, hm, hrest⟩ := Option.bind_eq_some_iff.mp hrun
    exact ih (sound_move hS hn hm) hrest

theorem sound_idle {s : σ} (hs : inv s) : S.Sound inv point result ⟨s, none⟩ := by
  constructor
  · exact hs
  · intro p hp
    cases hp

/-- From a state with nothing running, every state that can be reached keeps the invariant. -/
theorem inv_run (hS : S.Upholds inv point result) {s : σ} {n : Node σ ι τ α}
    {moves : List (NodeMove ε ι)} (hs : inv s) (hrun : S.run ⟨s, none⟩ moves = some n) :
    inv n.durable :=
  (sound_run hS (sound_idle hs) hrun).durable

/-- What a pass has left behind holds until the next one. -/
theorem leaves_run (hS : S.Upholds inv point result) {s : σ} {n : Node σ ι τ α}
    {moves : List (NodeMove ε ι)} (hs : inv s) (hrun : S.run ⟨s, none⟩ moves = some n)
    {next : Next τ α} (hnext : n.process = some (.ret next)) :
    Leaves point result next n.durable := by
  have hsound := sound_run hS (sound_idle hs) hrun
  exact hsound.process _ hnext n.durable hsound.durable (Contract.rely_refl _ _)

theorem run_append {n n₁ n₂ : Node σ ι τ α} {moves moves' : List (NodeMove ε ι)}
    (h : S.run n moves = some n₁) (h' : S.run n₁ moves' = some n₂) :
    S.run n (moves ++ moves') = some n₂ := by
  induction moves generalizing n with
  | nil => rwa [← Option.some.inj h] at h'
  | cons m moves ih =>
    obtain ⟨n', hm, hrest⟩ := Option.bind_eq_some_iff.mp h
    exact Option.bind_eq_some_iff.mpr ⟨n', hm, ih hrest⟩

/-- A pass that can be executed can be made move by move. -/
theorem exists_acts {p : Prog σ ι (Next τ α)} {input : ℕ → ι} {s s' : σ} {next : Next τ α}
    (h : p.run input s = some (next, s')) :
    ∃ moves, S.run ⟨s, some p⟩ moves = some ⟨s', some (.ret next)⟩ := by
  induction p generalizing input s with
  | ret a =>
    cases h
    exact ⟨[], rfl⟩
  | act e u k ih =>
    simp only [Prog.run] at h
    split_ifs at h with he
    obtain ⟨moves, hmoves⟩ := ih _ _ h
    refine ⟨.act (input 0) :: moves, ?_⟩
    simp only [run, move, he, if_true, Option.bind_some, hmoves]

end System
end KafkaEdgeRouter
