import KafkaEdgeRouter.ProgramTraces

/-!
# Data guarded by a lock

A lock has an owner, and part of the state only changes at the hands of the owner. Under this
discipline an invariant is kept by programs of two kinds. Code outside of the lock leaves the lock
and the guarded data alone. Code of the owner keeps the lock and may rely on what it has read of the
guarded data, until it gives the lock back.
-/

namespace KafkaEdgeRouter

structure Monitor (σ γ : Type) where
  owner : σ → Option ℕ
  guarded : σ → γ

namespace Monitor

variable {σ γ ι α β : Type}

/-- What one access of thread `t` may do. -/
structure Obeys (M : Monitor σ γ) (t : ℕ) (s s' : σ) : Prop where
  owner : M.owner s' = M.owner s ∨ M.owner s = none ∧ M.owner s' = some t ∨
    M.owner s = some t ∧ M.owner s' = none
  guarded : M.owner s ≠ some t → M.guarded s' = M.guarded s

def protocol (M : Monitor σ γ) (I : σ → Prop) : Protocol σ where
  inv := I
  guar := M.Obeys
  fresh t s := M.owner s ≠ some t

abbrev contract (M : Monitor σ γ) (I : σ → Prop) (t : ℕ) : Contract σ := (M.protocol I).contract t

def Outside (M : Monitor σ γ) (t : ℕ) (s : σ) : Prop := M.owner s ≠ some t

def Inside (M : Monitor σ γ) (t : ℕ) (s : σ) : Prop := M.owner s = some t

/-- An access that anybody may make. -/
structure Quiet (M : Monitor σ γ) (I : σ → Prop) (s s' : σ) : Prop where
  owner : M.owner s' = M.owner s
  guarded : M.guarded s' = M.guarded s
  inv : I s → I s'

/-- An access of the owner that keeps the invariant on its own. -/
structure Steady (M : Monitor σ γ) (I : σ → Prop) (s s' : σ) : Prop where
  owner : M.owner s' = M.owner s
  inv : I s → I s'

variable {M : Monitor σ γ} {I : σ → Prop} {t u : ℕ} {s s' : σ}

theorem Quiet.steady (h : M.Quiet I s s') : M.Steady I s s' := ⟨h.owner, h.inv⟩

theorem Obeys.owner_iff (h : M.Obeys u s s') (hne : u ≠ t) :
    M.owner s' = some t ↔ M.owner s = some t := by
  rcases h.owner with heq | ⟨hnone, hsome⟩ | ⟨hsome, hnone⟩
  · rw [heq]
  · simp [hnone, hsome, hne]
  · simp [hnone, hsome, hne]

theorem stable_outside (t : ℕ) : (M.contract I t).Stable (M.Outside t) := by
  rintro s s' _ _ ⟨u, hu, hobeys⟩ hs hs'
  exact hs ((hobeys.owner_iff hu).mp hs')

theorem stable_inside (t : ℕ) : (M.contract I t).Stable (M.Inside t) := by
  rintro s s' _ _ ⟨u, hu, hobeys⟩ hs
  exact (hobeys.owner_iff hu).mpr hs

theorem stable_guarded (t : ℕ) (g : γ) :
    (M.contract I t).Stable (fun s => M.Inside t s ∧ M.guarded s = g) := by
  rintro s s' hi hi' ⟨u, hu, hobeys⟩ ⟨hs, hg⟩
  refine ⟨stable_inside t s s' hi hi' ⟨u, hu, hobeys⟩ hs, (hobeys.guarded ?_).trans hg⟩
  rw [show M.owner s = some t from hs]
  exact fun heq => hu (Option.some.inj heq).symm

theorem sat_outside {p : Prog σ ι α} (h : p.Always (M.Quiet I)) (hs : M.Outside t s) :
    p.Sat (M.contract I t) (fun _ => M.Outside t) s := by
  refine Prog.sat_of_always (stable_outside t) (Prog.always_mono h ?_) hs
  intro s s' hq hinv hs
  refine ⟨hq.inv hinv, ⟨Or.inl hq.owner, fun _ => hq.guarded⟩, ?_⟩
  rw [Outside, hq.owner]
  exact hs

theorem sat_inside {p : Prog σ ι α} (h : p.Always (M.Steady I)) (hs : M.Inside t s) :
    p.Sat (M.contract I t) (fun _ => M.Inside t) s := by
  refine Prog.sat_of_always (stable_inside t) (Prog.always_mono h ?_) hs
  intro s s' hq hinv hs
  exact ⟨hq.inv hinv, ⟨Or.inl hq.owner, fun hne => absurd hs hne⟩, hq.owner.trans hs⟩

theorem sat_owner {e : ι → σ → Bool} {f : ι → σ → β × σ} {k : β → Prog σ ι α}
    {Q : α → σ → Prop} {g : γ} (hs : M.Inside t s) (hg : M.guarded s = g)
    (h : ∀ i s', I s' → M.Inside t s' → M.guarded s' = g → e i s' = true →
      I (f i s').2 ∧ M.owner (f i s').2 = M.owner s' ∧
      (k (f i s').1).Sat (M.contract I t) Q (f i s').2) :
    (Prog.await e f >>= k).Sat (M.contract I t) Q s := by
  refine Prog.sat_await (stable_guarded t g) ⟨hs, hg⟩ ?_
  rintro i s' hinv ⟨hs', hg'⟩ he
  obtain ⟨hinv', howner, hnext⟩ := h i s' hinv hs' hg' he
  exact ⟨hinv', ⟨Or.inl howner, fun hne => absurd hs' hne⟩, hnext⟩

theorem sat_owner_read {f : σ → β} {k : β → Prog σ ι α} {Q : α → σ → Prop} {g : γ}
    (hs : M.Inside t s) (hg : M.guarded s = g)
    (h : ∀ s', I s' → M.Inside t s' → M.guarded s' = g →
      (k (f s')).Sat (M.contract I t) Q s') :
    (Prog.read f >>= k).Sat (M.contract I t) Q s :=
  sat_owner hs hg (fun _ s' hinv hs' hg' _ => ⟨hinv, rfl, h s' hinv hs' hg'⟩)

/-- A section takes the free lock, runs its body as the owner and gives the lock back. -/
theorem sat_section {e : ι → σ → Bool} {enter : σ → σ} {body : Prog σ ι α} {leave : α → σ → σ}
    (hfree : ∀ i s, e i s = true → M.owner s = none)
    (hent : ∀ s, M.owner (enter s) = some t ∧ M.guarded (enter s) = M.guarded s ∧
      (I s → I (enter s)))
    (hleave : ∀ a s, M.owner (leave a s) = none ∧ (I s → I (leave a s)))
    (hbody : ∀ s, I s → M.Inside t s → body.Sat (M.contract I t) (fun _ => M.Inside t) s)
    (hs : M.Outside t s) :
    (Prog.await e (fun _ s => ((), enter s)) >>= fun _ => body >>= fun a =>
      Prog.modify (leave a) >>= fun _ => (pure a : Prog σ ι α)).Sat (M.contract I t)
      (fun _ => M.Outside t) s := by
  refine Prog.sat_await (stable_outside t) hs (fun i s₁ hinv₁ hs₁ he => ?_)
  obtain ⟨howner, hguarded, hkeeps⟩ := hent s₁
  refine ⟨hkeeps hinv₁, ⟨Or.inr (Or.inl ⟨hfree i s₁ he, howner⟩), fun _ => hguarded⟩, ?_⟩
  refine Prog.sat_bind (hkeeps hinv₁)
    (Prog.sat_mono (hbody (enter s₁) (hkeeps hinv₁) howner) (fun a s₂ _ hs₂ => ?_))
  refine Prog.sat_access (stable_inside t) hs₂ (fun s₃ hinv₃ hs₃ => ?_)
  obtain ⟨hnone, hkeeps₃⟩ := hleave a s₃
  refine ⟨hkeeps₃ hinv₃, ⟨Or.inr (Or.inr ⟨hs₃, hnone⟩), fun hne => absurd hs₃ hne⟩, ?_⟩
  refine Prog.sat_ret (stable_outside t) ?_
  rw [Outside, hnone]
  simp

end Monitor
end KafkaEdgeRouter
