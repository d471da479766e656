import KafkaEdgeRouter.ProgramTraces

/-!
# Programs interleaved with an environment

A run of one program in which an environment acts between any two accesses, together with the trace
of what happened in which order. Properties of the trace come from a property of every access;
properties of the result come from taking the program apart along its binds, where the state is only
known up to what the environment has done in the meantime.
-/

namespace KafkaEdgeRouter

/-- One entry of a trace: an operation of the environment, or an access of the program. -/
inductive Entry (ε σ : Type)
  | env (op : ε)
  | own (before after : σ)

namespace Prog

variable {ε σ ι α β : Type} {env : ε → σ → σ}

/-- The program runs from `s` to its result amid the environment, with the trace `l`. -/
inductive Exec (env : ε → σ → σ) : Prog σ ι α → σ → List (Entry ε σ) → α → σ → Prop
  | ret (a : α) (s : σ) : Exec env (.ret a) s [] a s
  | env {p : Prog σ ι α} {s s' : σ} {l : List (Entry ε σ)} {a : α} (op : ε) :
      Exec env p (env op s) l a s' → Exec env p s (.env op :: l) a s'
  | act {e : ι → σ → Bool} {u : ι → σ → σ} {k : ι → σ → Prog σ ι α} {s s' : σ}
      {l : List (Entry ε σ)} {a : α} (i : ι) : e i s = true →
      Exec env (k i s) (u i s) l a s' → Exec env (.act e u k) s (.own s (u i s) :: l) a s'

def Drifts (env : ε → σ → σ) (s s' : σ) : Prop :=
  ∃ ops : List ε, s' = ops.foldl (fun s op => env op s) s

theorem drifts_refl (s : σ) : Drifts env s s := ⟨[], rfl⟩

theorem Drifts.cons {op : ε} {s s' : σ} (h : Drifts env (env op s) s') : Drifts env s s' := by
  obtain ⟨ops, rfl⟩ := h
  exact ⟨op :: ops, rfl⟩

theorem Drifts.trans {s s' s'' : σ} (h : Drifts env s s') (h' : Drifts env s' s'') :
    Drifts env s s'' := by
  obtain ⟨ops, rfl⟩ := h
  obtain ⟨ops', rfl⟩ := h'
  exact ⟨ops ++ ops', (List.foldl_append ..).symm⟩

theorem Drifts.keeps {P : σ → Prop} (hP : ∀ op s, P s → P (env op s)) {s s' : σ}
    (h : Drifts env s s') (hs : P s) : P s' := by
  obtain ⟨ops, rfl⟩ := h
  induction ops generalizing s with
  | nil => exact hs
  | cons op ops ih => exact ih (hP op s hs)

/-- A relation along a trace is established entry by entry. -/
theorem Exec.along {K : σ → σ → Prop} {R : σ → List (Entry ε σ) → σ → Prop}
    (hnil : ∀ s, R s [] s) (henv : ∀ op s l s', R (env op s) l s' → R s (.env op :: l) s')
    (hown : ∀ s s₁ l s', K s s₁ → R s₁ l s' → R s (.own s s₁ :: l) s')
    {p : Prog σ ι α} {s s' : σ} {l : List (Entry ε σ)} {a : α} (h : p.Exec env s l a s')
    (hp : p.Always K) : R s l s' := by
  induction h with
  | ret a s => exact hnil s
  | env op _ ih => exact henv op _ _ _ (ih hp)
  | act i he _ ih => exact hown _ _ _ _ (hp i _ he).1 (ih (hp i _ he).2)

theorem Exec.keeps {K : σ → σ → Prop} {P : σ → Prop} (henv : ∀ op s, P s → P (env op s))
    (hown : ∀ s s', K s s' → P s → P s') {p : Prog σ ι α} {s s' : σ} {l : List (Entry ε σ)} {a : α}
    (h : p.Exec env s l a s') (hp : p.Always K) (hs : P s) : P s' :=
  h.along (R := fun s _ s' => P s → P s') (fun _ hs => hs)
    (fun op s _ _ hrest hs => hrest (henv op s hs))
    (fun s s₁ _ _ hK hrest hs => hrest (hown s s₁ hK hs)) hp hs

/-- An environment that the program has to bear: the program keeps its contract, and with it
whatever the environment and the guarantee preserve. -/
theorem Exec.sat {C : Contract σ} {Q : α → σ → Prop} {P : σ → Prop}
    (henv : ∀ op s, C.inv s → P s → C.disturbs s (env op s) ∧ P (env op s))
    (hown : ∀ s s', C.guarantee s s' → P s → P s') {p : Prog σ ι α} {s s' : σ}
    {l : List (Entry ε σ)} {a : α} (h : p.Exec env s l a s') (hp : p.Sat C Q s) (hinv : C.inv s)
    (hs : P s) : C.inv s' ∧ Q a s' ∧ P s' := by
  induction h with
  | ret a s => exact ⟨hinv, hp s hinv (C.rely_refl s), hs⟩
  | env op _ ih =>
    obtain ⟨hdisturbs, hs'⟩ := henv op _ hinv hs
    exact ih (sat_rely hp (Relation.ReflTransGen.single hdisturbs)) hdisturbs.2.1 hs'
  | act i he _ ih =>
    obtain ⟨hinv', hguar, hnext⟩ := hp i _ hinv (C.rely_refl _) he
    exact ih hnext hinv' (hown _ _ hguar hs)

theorem exec_ret {b a : α} {s s' : σ} {l : List (Entry ε σ)}
    (h : (Prog.ret b : Prog σ ι α).Exec env s l a s') : a = b ∧ Drifts env s s' := by
  generalize hp : (Prog.ret b : Prog σ ι α) = p at h
  induction h with
  | ret a s =>
    cases hp
    exact ⟨rfl, drifts_refl s⟩
  | env op _ ih =>
    obtain ⟨rfl, hdrifts⟩ := ih hp
    exact ⟨rfl, hdrifts.cons⟩
  | act => cases hp

theorem exec_bind {p : Prog σ ι α} {f : α → Prog σ ι β} {s s' : σ} {l : List (Entry ε σ)} {b : β}
    (h : (p >>= f).Exec env s l b s') :
    ∃ l₁ l₂ a s₁, p.Exec env s l₁ a s₁ ∧ (f a).Exec env s₁ l₂ b s' := by
  generalize hq : p >>= f = q at h
  induction h generalizing p with
  | ret b s =>
    cases p with
    | ret a =>
      refine ⟨[], [], a, s, .ret a s, ?_⟩
      rw [show f a = .ret b from hq]
      exact .ret b s
    | act e u k => cases hq
  | env op _ ih =>
    obtain ⟨l₁, l₂, a, s₁, hp, hf⟩ := ih hq
    exact ⟨_, l₂, a, s₁, .env op hp, hf⟩
  | @act e' u' k' s s' l b i he hnext ih =>
    cases p with
    | ret a =>
      have hf : (f a).Exec env s (.own s (u' i s) :: l) b s' := by
        rw [show f a = .act e' u' k' from hq]
        exact .act i he hnext
      exact ⟨[], _, a, s, .ret a s, hf⟩
    | act e u k =>
      injection hq with he' hu' hk'
      subst he' hu' hk'
      obtain ⟨l₁, l₂, a, s₁, hp, hf⟩ := ih rfl
      exact ⟨_, l₂, a, s₁, .act i he hp, hf⟩

theorem exec_await {e : ι → σ → Bool} {f : ι → σ → β × σ} {k : β → Prog σ ι α} {s s' : σ}
    {l : List (Entry ε σ)} {a : α} (h : (await e f >>= k).Exec env s l a s') :
    ∃ i t l', Drifts env s t ∧ e i t = true ∧ (k (f i t).1).Exec env (f i t).2 l' a s' := by
  generalize hq : await e f >>= k = q at h
  induction h with
  | ret b s => cases hq
  | env op _ ih =>
    obtain ⟨i, t, l', hdrifts, he, hnext⟩ := ih hq
    exact ⟨i, t, l', hdrifts.cons, he, hnext⟩
  | @act e' u' k' s s' l b i he hnext _ =>
    injection hq with he' hu' hk'
    subst he' hu' hk'
    exact ⟨i, s, l, drifts_refl s, he, hnext⟩

theorem exec_access {f : σ → β × σ} {k : β → Prog σ ι α} {s s' : σ} {l : List (Entry ε σ)} {a : α}
    (h : (access f >>= k : Prog σ ι α).Exec env s l a s') :
    ∃ t l', Drifts env s t ∧ (k (f t).1).Exec env (f t).2 l' a s' := by
  obtain ⟨_, t, l', hdrifts, _, hnext⟩ := exec_await h
  exact ⟨t, l', hdrifts, hnext⟩

theorem exec_of_run {p : Prog σ ι α} {input : ℕ → ι} {s s' : σ} {a : α}
    (h : p.run input s = some (a, s')) :
    ∃ l, p.Exec env s l a s' ∧ ∀ e ∈ l, ∃ before after, e = .own before after := by
  induction p generalizing s input with
  | ret b =>
    obtain ⟨rfl, rfl⟩ : b = a ∧ s = s' := by simpa [run] using h
    exact ⟨[], .ret b s, by simp⟩
  | act e u k ih =>
    simp only [run] at h
    split_ifs at h with he
    obtain ⟨l, hexec, hown⟩ := ih (input 0) s h
    refine ⟨.own s (u (input 0) s) :: l, .act (input 0) he hexec, fun entry hentry => ?_⟩
    rcases List.mem_cons.mp hentry with rfl | hentry
    · exact ⟨_, _, rfl⟩
    · exact hown entry hentry

theorem Exec.concat {p : Prog σ ι α} {s s' : σ} {l : List (Entry ε σ)} {a : α}
    (h : p.Exec env s l a s') (op : ε) : p.Exec env s (l ++ [.env op]) a (env op s') := by
  induction h with
  | ret a s => exact .env op (.ret a _)
  | env op' _ ih => exact .env op' ih
  | act i he _ ih => exact .act i he ih

end Prog
end KafkaEdgeRouter
