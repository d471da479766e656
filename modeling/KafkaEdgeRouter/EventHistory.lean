import Mathlib.Data.List.Basic
import Mathlib.Data.List.Induction
import Mathlib.Data.List.TakeWhile
import Mathlib.Data.Nat.Notation
import Mathlib.Tactic.Common

/-!
# Histories of events

A history grows at its end. Statements about what must have happened before an event are written
as a justification of the event by the events before it; `justified_concat` reduces keeping them to
the last event. `prior` is the part of a history before the first event of a kind, and `Standing`
says that an event happened and nothing has put an end to it since.
-/

namespace KafkaEdgeRouter.History

variable {E : Type}

/-- Every event is justified by the events before it. -/
def Justified (J : List E → E → Prop) (h : List E) : Prop :=
  ∀ before e after, h = before ++ e :: after → J before e

theorem justified_nil (J : List E → E → Prop) : Justified J [] := by
  intro before e after h
  simp at h

theorem justified_concat {J : List E → E → Prop} {h : List E} {e : E} :
    Justified J (h ++ [e]) ↔ Justified J h ∧ J h e := by
  constructor
  · intro hj
    refine ⟨fun before e' after heq => hj before e' (after ++ [e]) ?_, hj h e [] rfl⟩
    rw [heq, List.append_assoc, List.cons_append]
  · rintro ⟨hj, he⟩ before e' after heq
    rcases List.eq_nil_or_concat' after with rfl | ⟨after', last, rfl⟩
    · obtain ⟨rfl, hlast⟩ := List.append_inj' heq rfl
      rwa [← List.singleton_inj.mp hlast]
    · rw [← List.cons_append, ← List.append_assoc] at heq
      exact hj before e' after' (List.append_inj' heq rfl).1

theorem justified_iff_take {J : List E → E → Prop} {h : List E} :
    Justified J h ↔ ∀ i : Fin h.length, J (h.take i) h[i] := by
  constructor
  · intro hj i
    refine hj (h.take i) h[i] (h.drop (i + 1)) ?_
    rw [Fin.getElem_fin, List.getElem_cons_drop, List.take_append_drop]
  · rintro hj before e after rfl
    simpa using hj ⟨before.length, by simp⟩

instance {J : List E → E → Prop} [∀ before e, Decidable (J before e)] (h : List E) :
    Decidable (Justified J h) :=
  decidable_of_iff _ justified_iff_take.symm

theorem Justified.of_mem {J : List E → E → Prop} {h : List E} (hj : Justified J h) {e : E}
    (he : e ∈ h) : ∃ before after, h = before ++ e :: after ∧ J before e := by
  obtain ⟨before, after, heq⟩ := List.append_of_mem he
  exact ⟨before, after, heq, hj before e after heq⟩

/-- Events that are justified only when none of their kind came before happen at most once. -/
theorem Justified.filter_length_le_one {J : List E → E → Prop} {p : E → Bool} {h : List E}
    (hj : Justified J h) (hp : ∀ before e, J before e → p e = true → ∀ e' ∈ before, p e' = false) :
    (h.filter p).length ≤ 1 := by
  induction h using List.reverseRecOn with
  | nil => simp
  | append_singleton h e ih =>
    obtain ⟨hh, he⟩ := justified_concat.mp hj
    rw [List.filter_append, List.length_append]
    by_cases hpe : p e = true
    · have hnil : h.filter p = [] := by
        rw [List.filter_eq_nil_iff]
        intro e' he'
        rw [hp h e he hpe e' he']
        exact Bool.false_ne_true
      simp [hnil, hpe]
    · simpa [hpe] using ih hh

def prior (p : E → Bool) (h : List E) : List E := h.takeWhile (fun e => !p e)

def since (p : E → Bool) (h : List E) : List E := h.dropWhile (fun e => !p e)

theorem prior_append_since (p : E → Bool) (h : List E) : prior p h ++ since p h = h :=
  List.takeWhile_append_dropWhile

theorem prior_append {p : E → Bool} {h : List E} (hp : ∃ e ∈ h, p e = true) (l : List E) :
    prior p (h ++ l) = prior p h := by
  obtain ⟨e, he, hpe⟩ := hp
  induction h with
  | nil => cases he
  | cons a h ih =>
    by_cases ha : p a = true
    · simp [prior, ha]
    · have hmem : e ∈ h := by
        rcases List.mem_cons.mp he with rfl | hmem
        · exact absurd hpe ha
        · exact hmem
      have htail := ih hmem
      simp only [prior] at htail ⊢
      simp [ha, htail]

theorem since_append {p : E → Bool} {h : List E} (hp : ∃ e ∈ h, p e = true) (l : List E) :
    since p (h ++ l) = since p h ++ l := by
  have hall := prior_append_since p (h ++ l)
  rw [prior_append hp l] at hall
  have heq : prior p h ++ since p (h ++ l) = prior p h ++ (since p h ++ l) := by
    rw [hall, ← List.append_assoc, prior_append_since]
  exact List.append_cancel_left heq

theorem prior_eq_self {p : E → Bool} {h : List E} (hp : ∀ e ∈ h, p e = false) : prior p h = h := by
  rw [prior, List.takeWhile_eq_self_iff]
  intro e he
  rw [hp e he]
  rfl

theorem prior_isPrefix (p : E → Bool) (h l : List E) : prior p h <+: prior p (h ++ l) := by
  by_cases hp : ∃ e ∈ h, p e = true
  · exact ⟨[], by rw [prior_append hp l, List.append_nil]⟩
  · have hall : ∀ e ∈ h, p e = false := by
      intro e he
      rw [Bool.eq_false_iff]
      exact fun hpe => hp ⟨e, he, hpe⟩
    rw [prior_eq_self hall, prior,
      List.takeWhile_append_of_pos (fun e he => by rw [hall e he]; rfl)]
    exact ⟨_, rfl⟩

/-- What has happened after the last event of a kind. -/
def current (p : E → Bool) (h : List E) : List E :=
  h.foldl (fun recent e => if p e then [] else recent ++ [e]) []

theorem current_concat (p : E → Bool) (h : List E) (e : E) :
    current p (h ++ [e]) = if p e then [] else current p h ++ [e] := by
  simp [current]

theorem mem_current {p : E → Bool} {h : List E} {e : E} (he : e ∈ current p h) : e ∈ h := by
  induction h using List.reverseRecOn with
  | nil => cases he
  | append_singleton h e' ih =>
    rw [current_concat] at he
    split_ifs at he with hp
    · cases he
    · rcases List.mem_append.mp he with he | he
      · exact List.mem_append_left _ (ih he)
      · exact List.mem_append_right _ he

/-- The events that the ones before them select, in order. -/
def select (p : List E → E → Bool) (h : List E) : List E :=
  (h.foldl (fun acc e => (acc.1 ++ [e], if p acc.1 e then acc.2 ++ [e] else acc.2)) ([], [])).2

theorem select_concat (p : List E → E → Bool) (h : List E) (e : E) :
    select p (h ++ [e]) = if p h e then select p h ++ [e] else select p h := by
  have hfst : ∀ h : List E, (h.foldl (fun acc e =>
      (acc.1 ++ [e], if p acc.1 e then acc.2 ++ [e] else acc.2))
      (([], []) : List E × List E)).1 = h := by
    intro h
    induction h using List.reverseRecOn with
    | nil => rfl
    | append_singleton h e ih => rw [List.foldl_concat, ih]
  rw [select, List.foldl_concat, hfst, ← select]

theorem select_append {p : List E → E → Bool} {h l : List E}
    (hl : ∀ e ∈ l, ∀ before, p before e = false) : select p (h ++ l) = select p h := by
  induction l generalizing h with
  | nil => rw [List.append_nil]
  | cons e l ih =>
    rw [List.append_cons, ih (fun e' he' => hl e' (List.mem_cons_of_mem _ he')), select_concat,
      hl e (List.mem_cons_self ..) h, if_neg Bool.false_ne_true]

theorem select_sublist (p : List E → E → Bool) (h : List E) : (select p h).Sublist h := by
  induction h using List.reverseRecOn with
  | nil => exact List.Sublist.refl _
  | append_singleton h e ih =>
    rw [select_concat]
    split_ifs
    · exact ih.append (List.Sublist.refl _)
    · exact ih.trans (List.sublist_append_left _ _)

theorem mem_select {p : List E → E → Bool} {h : List E} {e : E} :
    e ∈ select p h ↔ ∃ before after, h = before ++ e :: after ∧ p before e = true := by
  induction h using List.reverseRecOn with
  | nil => simp [select]
  | append_singleton h e' ih =>
    have hsplit : (∃ before after, h ++ [e'] = before ++ e :: after ∧ p before e = true) ↔
        (∃ before after, h = before ++ e :: after ∧ p before e = true) ∨
          e = e' ∧ p h e = true := by
      constructor
      · rintro ⟨before, after, heq, hp⟩
        rcases List.eq_nil_or_concat' after with rfl | ⟨after', last, rfl⟩
        · obtain ⟨rfl, hlast⟩ := List.append_inj' heq rfl
          exact Or.inr ⟨(List.singleton_inj.mp hlast).symm, hp⟩
        · rw [← List.cons_append, ← List.append_assoc] at heq
          exact Or.inl ⟨before, after', (List.append_inj' heq rfl).1, hp⟩
      · rintro (⟨before, after, rfl, hp⟩ | ⟨rfl, hp⟩)
        · exact ⟨before, after ++ [e'], by simp, hp⟩
        · exact ⟨h, [], rfl, hp⟩
    rw [hsplit, select_concat, ← ih]
    by_cases hp : p h e' = true
    · rw [if_pos hp, List.mem_append, List.mem_singleton]
      exact or_congr_right ⟨fun heq => ⟨heq, heq ▸ hp⟩, fun hboth => hboth.1⟩
    · rw [if_neg hp]
      exact ⟨Or.inl, fun hor => hor.resolve_right fun hboth => hp (hboth.1 ▸ hboth.2)⟩

theorem mem_select_append {p : List E → E → Bool} {h l : List E} {e : E}
    (he : e ∈ select p (h ++ l)) : e ∈ select p h ∨ e ∈ l := by
  induction l using List.reverseRecOn with
  | nil => exact Or.inl (by rwa [List.append_nil] at he)
  | append_singleton l e' ih =>
    rw [← List.append_assoc, select_concat] at he
    split_ifs at he
    · rcases List.mem_append.mp he with he | he
      · exact (ih he).imp_right (List.mem_append_left _)
      · exact Or.inr (List.mem_append_right _ he)
    · exact (ih he).imp_right (List.mem_append_left _)

/-- The event has happened, and no event since has stopped it. -/
def Standing (start : E) (stop : E → Prop) (h : List E) : Prop :=
  ∃ before after, h = before ++ start :: after ∧ ∀ e ∈ after, ¬ stop e

theorem Standing.mem {start : E} {stop : E → Prop} {h : List E} (hs : Standing start stop h) :
    start ∈ h := by
  obtain ⟨before, after, rfl, _⟩ := hs
  exact List.mem_append_right _ (List.mem_cons_self ..)

theorem standing_new (start : E) (stop : E → Prop) (h : List E) :
    Standing start stop (h ++ [start]) :=
  ⟨h, [], rfl, by simp⟩

theorem Standing.append {start : E} {stop : E → Prop} {h : List E} (hs : Standing start stop h)
    {l : List E} (hl : ∀ e ∈ l, ¬ stop e) : Standing start stop (h ++ l) := by
  obtain ⟨before, after, rfl, hafter⟩ := hs
  refine ⟨before, after ++ l, by simp, fun e he => ?_⟩
  rcases List.mem_append.mp he with he | he
  · exact hafter e he
  · exact hl e he

/-- A standing event stood in every earlier part of the history that already held it. -/
theorem Standing.of_append {start : E} {stop : E → Prop} {h l : List E}
    (hs : Standing start stop (h ++ l)) : Standing start stop h ∨ start ∈ l := by
  obtain ⟨before, after, heq, hafter⟩ := hs
  rcases List.append_eq_append_iff.mp heq with ⟨mid, rfl, hl⟩ | ⟨mid, rfl, hmid⟩
  · exact Or.inr (by rw [hl]; exact List.mem_append_right _ (List.mem_cons_self ..))
  · cases mid with
    | nil =>
      refine Or.inr ?_
      rw [← List.nil_append l, ← hmid]
      exact List.mem_cons_self ..
    | cons e mid =>
      obtain ⟨rfl, rfl⟩ := List.cons.inj hmid
      exact Or.inl ⟨before, mid, rfl, fun e' he' => hafter e' (List.mem_append_left _ he')⟩

end KafkaEdgeRouter.History
