import KafkaEdgeRouter.CrashRestart
import KafkaEdgeRouter.ProgramTraces
import KafkaEdgeRouter.ProgramViews

/-!
# Scripts, notes, and contracts put together

A loop follows a script of turns and waits for ever when the script has come to its end, so that a
finite part of any run of the loop is a run with some script. A program on a part of the state may
leave a note in the rest at the very access that returns its result. What a program promises under
one contract can be narrowed by what is known of each of its accesses, and extended by what it
achieves under a contract that promises nothing but has to bear less.
-/

namespace KafkaEdgeRouter.Prog

variable {σ σ' ι ι' α β τ ξ : Type} {C D : Contract σ} {Q R : α → σ → Prop} {P : σ → Prop}
  {K : σ → σ → Prop}

def follow [Inhabited α] (turn : τ → ξ → Prog σ ι (Next τ α)) : τ → List ξ → Prog σ ι α
  | _, [] => await (fun _ _ => false) (fun _ s => (default, s))
  | point, next :: rest => turn point next >>= fun
    | .again point => follow turn point rest
    | .done result => .ret result

def LoopPost (I : τ → σ → Prop) (Q : α → σ → Prop) : Next τ α → σ → Prop
  | .again point => I point
  | .done result => Q result

/-- The rule for loops: every turn keeps the invariant or ends in the postcondition. -/
theorem sat_follow [Inhabited α] {turn : τ → ξ → Prog σ ι (Next τ α)} {I : τ → σ → Prop}
    (hQ : ∀ a, C.Stable (Q a))
    (hturn : ∀ point next s, C.inv s → I point s → (turn point next).Sat C (LoopPost I Q) s)
    (script : List ξ) (point : τ) {s : σ} (hs : C.inv s) (hI : I point s) :
    (follow turn point script).Sat C Q s := by
  induction script generalizing point s with
  | nil => exact fun _ _ _ _ he => absurd he Bool.false_ne_true
  | cons next rest ih =>
    refine sat_bind hs (sat_mono (hturn point next s hs hI) (fun result s' hs' hpost => ?_))
    cases result with
    | again point' => exact ih point' hs' hpost
    | done a => exact sat_ret (hQ a) hpost

theorem always_follow [Inhabited α] {turn : τ → ξ → Prog σ ι (Next τ α)}
    (hturn : ∀ point next, (turn point next).Always K) (script : List ξ) (point : τ) :
    (follow turn point script).Always K := by
  induction script generalizing point with
  | nil => exact fun _ _ he => absurd he Bool.false_ne_true
  | cons next rest ih =>
    refine always_bind (hturn point next) fun result => ?_
    cases result with
    | again point' => exact ih point'
    | done a => exact always_ret a

theorem always_zoom {V : View σ' σ} {input : ι' → ι} {K' : σ' → σ' → Prop} {p : Prog σ ι α}
    (h : p.Always K) (hK : ∀ s x, K (V.get s) x → K' s (V.set x s)) :
    (p.zoom V input).Always K' := by
  induction p with
  | ret a => trivial
  | act e u k ih => exact fun i s he => ⟨hK _ _ (h _ _ he).1, ih _ _ (h _ _ he).2⟩

def annotate (V : View σ' σ) (input : ι' → ι) (note : α → σ' → σ') : Prog σ ι α → Prog σ' ι' α
  | .ret a => .ret a
  | .act e u k => .act (fun i s => e (input i) (V.get s))
      (fun i s => match k (input i) (V.get s) with
        | .ret a => note a (V.set (u (input i) (V.get s)) s)
        | .act _ _ _ => V.set (u (input i) (V.get s)) s)
      (fun i s => (k (input i) (V.get s)).annotate V input note)

theorem annotate_await (V : View σ' σ) (input : ι' → ι) (note : α → σ' → σ')
    (e : ι → σ → Bool) (f : ι → σ → α × σ) :
    (await e f).annotate V input note = await (fun i s => e (input i) (V.get s))
      (fun i s => ((f (input i) (V.get s)).1,
        note (f (input i) (V.get s)).1 (V.set (f (input i) (V.get s)).2 s))) :=
  rfl

theorem rely_of_disturbs (h : ∀ s s', D.disturbs s s' → C.disturbs s s') {s s' : σ}
    (hr : D.rely s s') : C.rely s s' :=
  Relation.ReflTransGen.mono h s s' hr

/-- A contract that a program keeps, narrowed by an assertion that survives the others and by what
every access of the program does. -/
theorem sat_narrow {p : Prog σ ι α} {s : σ} (hp : p.Sat C Q s) (hK : p.Always K)
    (hinv : ∀ s, D.inv s → C.inv s) (hdisturb : ∀ s s', D.disturbs s s' → C.disturbs s s')
    (hP : D.Stable P)
    (hstep : ∀ s s', D.inv s → P s → C.inv s' → C.guarantee s s' → K s s' →
      D.inv s' ∧ D.guarantee s s' ∧ P s') (hs : P s) :
    p.Sat D (fun a s' => P s' ∧ Q a s') s := by
  induction p generalizing s with
  | ret a =>
    intro s' hi hr
    exact ⟨hP.rely hr hs, hp s' (hinv s' hi) (rely_of_disturbs hdisturb hr)⟩
  | act e u k ih =>
    intro i s' hi hr he
    obtain ⟨hinv', hguar, hnext⟩ := hp i s' (hinv s' hi) (rely_of_disturbs hdisturb hr) he
    obtain ⟨hi', hguar', hs'⟩ :=
      hstep s' _ hi (hP.rely hr hs) hinv' hguar (hK i s' he).1
    exact ⟨hi', hguar', ih i s' hnext (hK i s' he).2 hs'⟩

theorem sat_inform (hD : ∀ s, D.inv s)
    (hdisturb : ∀ s s', C.disturbs s s' → D.interference s s')
    {p : Prog σ ι α} {s : σ} (hp : p.Sat C Q s) (hp' : p.Sat D R s) :
    p.Sat C (fun a s' => Q a s' ∧ R a s') s := by
  have hrely : ∀ s s', C.disturbs s s' → D.disturbs s s' :=
    fun s s' h => ⟨hD s, hD s', hdisturb s s' h⟩
  induction p generalizing s with
  | ret a =>
    intro s' hi hr
    exact ⟨hp s' hi hr, hp' s' (hD s') (rely_of_disturbs hrely hr)⟩
  | act e u k ih =>
    intro i s' hi hr he
    obtain ⟨hinv', hguar, hnext⟩ := hp i s' hi hr he
    obtain ⟨_, _, hnext'⟩ := hp' i s' (hD s') (rely_of_disturbs hrely hr) he
    exact ⟨hinv', hguar, ih i s' hnext hnext'⟩

end KafkaEdgeRouter.Prog
