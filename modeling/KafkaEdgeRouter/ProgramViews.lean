import KafkaEdgeRouter.AtomicProgram

/-!
# Programs on a part of the state

A program for one part of a state also runs on the whole. What it promises under a contract for the
part, it promises under every contract for the whole that is no harder on the part, and assertions
about the rest are kept. Two contracts that a program keeps separately it also keeps together, so
what it computes when nothing interferes can be combined with what it owes to others.
-/

namespace KafkaEdgeRouter

/-- A part of a larger state. -/
structure View (σ' σ : Type) where
  get : σ' → σ
  set : σ → σ' → σ'
  get_set : ∀ x s, get (set x s) = x

def View.comp {σ σ' σ'' : Type} (V : View σ' σ) (U : View σ'' σ') : View σ'' σ where
  get s := V.get (U.get s)
  set x s := U.set (V.set x (U.get s)) s
  get_set x s := by rw [U.get_set, V.get_set]

def Prog.zoom {σ σ' ι ι' α : Type} (V : View σ' σ) (input : ι' → ι) : Prog σ ι α → Prog σ' ι' α
  | .ret a => .ret a
  | .act e u k => .act (fun i s => e (input i) (V.get s))
      (fun i s => V.set (u (input i) (V.get s)) s)
      (fun i s => (k (input i) (V.get s)).zoom V input)

namespace Contract

variable {σ : Type}

def free : Contract σ := ⟨fun _ => True, fun _ _ => True, fun _ _ => True⟩

def alone : Contract σ := ⟨fun _ => True, fun _ _ => False, fun _ _ => True⟩

def meet (C D : Contract σ) : Contract σ where
  inv s := C.inv s ∧ D.inv s
  interference s s' := C.interference s s' ∧ D.interference s s'
  guarantee s s' := C.guarantee s s' ∧ D.guarantee s s'

theorem stable_alone (P : σ → Prop) : alone.Stable P := fun _ _ _ _ h _ => h.elim

theorem rely_meet {C D : Contract σ} {s s' : σ} (h : (C.meet D).rely s s') :
    C.rely s s' ∧ D.rely s s' := by
  induction h with
  | refl => exact ⟨C.rely_refl _, D.rely_refl _⟩
  | tail _ hd ih =>
    obtain ⟨⟨hi, hi'⟩, ⟨hj, hj'⟩, hc, hd⟩ := hd
    exact ⟨ih.1.tail ⟨hi, hj, hc⟩, ih.2.tail ⟨hi', hj', hd⟩⟩

theorem rely_view {σ' : Type} {V : View σ' σ} {C : Contract σ} {C' : Contract σ'} {P : σ' → Prop}
    (hP : C'.Stable P)
    (hdisturb : ∀ s s', C'.inv s → C'.inv s' → P s → C'.interference s s' →
      C.rely (V.get s) (V.get s')) {s s' : σ'} (h : C'.rely s s') (hs : P s) :
    C.rely (V.get s) (V.get s') := by
  induction h with
  | refl => exact C.rely_refl _
  | tail hr hd ih =>
    exact C.rely_trans ih (hdisturb _ _ hd.1 hd.2.1 (hP.rely hr hs) hd.2.2)

end Contract

namespace Prog

variable {σ σ' ι ι' α β : Type} {Q : α → σ → Prop}

theorem zoom_await (V : View σ' σ) (input : ι' → ι) (e : ι → σ → Bool) (f : ι → σ → α × σ) :
    (await e f).zoom V input = await (fun i s => e (input i) (V.get s))
      (fun i s => ((f (input i) (V.get s)).1, V.set (f (input i) (V.get s)).2 s)) :=
  rfl

theorem zoom_zoom {σ'' ι'' : Type} (V : View σ' σ) (U : View σ'' σ') (f : ι' → ι) (g : ι'' → ι')
    (p : Prog σ ι α) : (p.zoom V f).zoom U g = p.zoom (V.comp U) (fun i => f (g i)) := by
  induction p with
  | ret a => rfl
  | act e u k ih => exact congrArg (Prog.act _ _) (funext fun i => funext fun s => ih _ _)

theorem sat_free (p : Prog σ ι α) (s : σ) : p.Sat Contract.free (fun _ _ => True) s := by
  induction p generalizing s with
  | ret a => exact fun _ _ _ => trivial
  | act e u k ih => exact fun i s' _ _ _ => ⟨trivial, trivial, ih i s' _⟩

theorem sat_alone {e : ι → σ → Bool} {f : ι → σ → β × σ} {k : β → Prog σ ι α} {s : σ}
    (h : ∀ i, e i s = true → (k (f i s).1).Sat Contract.alone Q (f i s).2) :
    (await e f >>= k).Sat Contract.alone Q s := by
  refine sat_await (Contract.stable_alone (fun s' => s' = s)) rfl ?_
  rintro i s' _ rfl he
  exact ⟨trivial, trivial, h i he⟩

theorem sat_meet {C D : Contract σ} {R : α → σ → Prop} {p : Prog σ ι α} {s : σ}
    (h : p.Sat C Q s) (h' : p.Sat D R s) : p.Sat (C.meet D) (fun a s => Q a s ∧ R a s) s := by
  induction p generalizing s with
  | ret a =>
    intro s' hi hr
    have hrely := Contract.rely_meet hr
    exact ⟨h s' hi.1 hrely.1, h' s' hi.2 hrely.2⟩
  | act e u k ih =>
    intro i s' hi hr he
    have hrely := Contract.rely_meet hr
    obtain ⟨hinv, hguar, hnext⟩ := h i s' hi.1 hrely.1 he
    obtain ⟨hinv', hguar', hnext'⟩ := h' i s' hi.2 hrely.2 he
    exact ⟨⟨hinv, hinv'⟩, ⟨hguar, hguar'⟩, ih i s' hnext hnext'⟩

/-- A program on a part keeps the contract of the whole and every assertion `P` that survives the
others and the changes it may make to its part. -/
theorem sat_zoom {V : View σ' σ} {input : ι' → ι} {C : Contract σ} {C' : Contract σ'}
    {P : σ' → Prop} (hP : C'.Stable P) (hinv : ∀ s, C'.inv s → P s → C.inv (V.get s))
    (hdisturb : ∀ s s', C'.inv s → C'.inv s' → P s → C'.interference s s' →
      C.rely (V.get s) (V.get s'))
    (hstep : ∀ s x, C'.inv s → P s → C.inv x → C.guarantee (V.get s) x →
      C'.inv (V.set x s) ∧ C'.guarantee s (V.set x s) ∧ P (V.set x s))
    {p : Prog σ ι α} {s : σ'} (hs : P s) (h : p.Sat C Q (V.get s)) :
    (p.zoom V input).Sat C' (fun a s' => P s' ∧ Q a (V.get s')) s := by
  induction p generalizing s with
  | ret a =>
    intro s' hi hr
    have hs' : P s' := hP.rely hr hs
    exact ⟨hs', h _ (hinv s' hi hs') (Contract.rely_view hP hdisturb hr hs)⟩
  | act e u k ih =>
    intro i s' hi hr he
    have hs' : P s' := hP.rely hr hs
    obtain ⟨hpart, hguar, hnext⟩ :=
      h (input i) (V.get s') (hinv s' hi hs') (Contract.rely_view hP hdisturb hr hs) he
    obtain ⟨hwhole, hguar', hkept⟩ := hstep s' _ hi hs' hpart hguar
    refine ⟨hwhole, hguar', ih _ _ hkept ?_⟩
    rwa [V.get_set]

/-- A program that nothing is known about only changes its part. -/
theorem sat_frame {V : View σ' σ} {input : ι' → ι} {C' : Contract σ'} {P : σ' → Prop}
    (hP : C'.Stable P)
    (hstep : ∀ s x, C'.inv s → P s →
      C'.inv (V.set x s) ∧ C'.guarantee s (V.set x s) ∧ P (V.set x s))
    (p : Prog σ ι α) {s : σ'} (hs : P s) :
    (p.zoom V input).Sat C' (fun _ s' => P s') s := by
  refine sat_mono (sat_zoom (C := Contract.free) hP (fun _ _ _ => trivial) ?_ ?_ hs
    (sat_free p _)) (fun _ _ _ h => h.1)
  · intro s s' _ _ _ _
    exact Relation.ReflTransGen.single ⟨trivial, trivial, trivial⟩
  · intro s x hi hs _ _
    exact hstep s x hi hs

end Prog
end KafkaEdgeRouter
