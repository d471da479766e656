import KafkaEdgeRouter.ReadinessShutdown
import Mathlib.Data.List.Infix

/-!
# Readiness as a function of what was observed

A switch with two thresholds is on when it has seen a full run of good observations and no full run
of bad ones since. This is a statement about the whole sequence of observations; the code keeps a
flag and two counters that stop at the largest number they can hold. Here the two are shown to agree
after every sequence, however long.
-/

namespace KafkaEdgeRouter

/-! ### Switches with two thresholds -/

section Switch

variable {l : List Bool} {b c : Bool} {n up down : ℕ}

/-- A run of `up` good observations, and after it no run of `down` bad ones. -/
def Latched (up down : ℕ) (l : List Bool) : Prop :=
  ∃ before after, l = before ++ List.replicate up true ++ after ∧
    ¬ List.replicate down false <:+: after

def EndsWith (n : ℕ) (b : Bool) (l : List Bool) : Prop := List.replicate n b <:+ l

theorem endsWith_zero : EndsWith 0 b l := List.nil_suffix

theorem endsWith_nil : EndsWith n b [] ↔ n = 0 := by
  rw [EndsWith, List.suffix_nil, List.replicate_eq_nil_iff]

theorem endsWith_concat : EndsWith (n + 1) b (l ++ [c]) ↔ b = c ∧ EndsWith n b l := by
  rw [EndsWith, EndsWith, List.replicate_succ', List.suffix_concat_iff]
  constructor
  · rintro (hnil | ⟨t, heq, hsuffix⟩)
    · simp at hnil
    · obtain ⟨rfl, hc⟩ := List.append_inj' heq rfl
      exact ⟨(List.cons.inj hc).1, hsuffix⟩
  · rintro ⟨rfl, hsuffix⟩
    exact Or.inr ⟨_, rfl, hsuffix⟩

theorem not_endsWith_concat (hn : 1 ≤ n) (hne : b ≠ c) : ¬ EndsWith n b (l ++ [c]) := by
  obtain ⟨n, rfl⟩ := Nat.exists_eq_add_of_le' hn
  rw [endsWith_concat]
  exact fun h => hne h.1

theorem not_latched_nil (hup : 1 ≤ up) : ¬ Latched up down [] := by
  rintro ⟨before, after, heq, _⟩
  have hlength := congrArg List.length heq
  simp at hlength
  omega

theorem latched_concat_true (hdown : 1 ≤ down) :
    Latched up down (l ++ [true]) ↔ EndsWith up true (l ++ [true]) ∨ Latched up down l := by
  constructor
  · rintro ⟨before, after, heq, hafter⟩
    rcases List.eq_nil_or_concat after with rfl | ⟨after, c, rfl⟩
    · exact Or.inl ⟨before, by rw [heq, List.append_nil]⟩
    · rw [List.concat_eq_append] at heq hafter
      rw [← List.append_assoc] at heq
      obtain ⟨rfl, _⟩ := List.append_inj' heq rfl
      exact Or.inr ⟨before, after, rfl, fun h => hafter (h.trans ⟨[], [c], rfl⟩)⟩
  · rintro (⟨before, heq⟩ | ⟨before, after, rfl, hafter⟩)
    · refine ⟨before, [], by rw [heq, List.append_nil], fun h => ?_⟩
      rw [List.infix_nil, List.replicate_eq_nil_iff] at h
      omega
    · refine ⟨before, after ++ [true], by simp, fun h => ?_⟩
      rcases List.infix_concat_iff.mp h with hsuffix | hinfix
      · exact not_endsWith_concat hdown (by simp) hsuffix
      · exact hafter hinfix

/-- After a good observation, a run of bad ones lies in what has followed. -/
theorem infix_of_endsWith {before after : List Bool} (hdown : EndsWith n false
    (before ++ true :: after)) : List.replicate n false <:+: after := by
  have htrue : true ∉ List.replicate n false := by simp
  rcases List.suffix_or_suffix_of_suffix hdown (List.suffix_append before (true :: after)) with
    hshort | hlong
  · rcases List.suffix_cons_iff.mp hshort with heq | hsuffix
    · exact absurd (heq ▸ List.mem_cons_self) htrue
    · exact hsuffix.isInfix
  · exact absurd (hlong.subset List.mem_cons_self) htrue

theorem latched_concat_false (hup : 1 ≤ up) :
    Latched up down (l ++ [false]) ↔
      Latched up down l ∧ ¬ EndsWith down false (l ++ [false]) := by
  obtain ⟨up, rfl⟩ := Nat.exists_eq_add_of_le' hup
  constructor
  · rintro ⟨before, after, heq, hafter⟩
    refine ⟨?_, fun hends => ?_⟩
    · rcases List.eq_nil_or_concat after with rfl | ⟨after, c, rfl⟩
      · rw [List.append_nil, List.replicate_succ', ← List.append_assoc] at heq
        have hlast := (List.append_inj' heq rfl).2
        simp at hlast
      · rw [List.concat_eq_append] at heq hafter
        rw [← List.append_assoc] at heq
        obtain ⟨rfl, _⟩ := List.append_inj' heq rfl
        exact ⟨before, after, rfl, fun h => hafter (h.trans ⟨[], [c], rfl⟩)⟩
    · rw [heq, List.replicate_succ', ← List.append_assoc, List.append_assoc _ [true]] at hends
      exact hafter (infix_of_endsWith hends)
  · rintro ⟨⟨before, after, rfl, hafter⟩, hends⟩
    refine ⟨before, after ++ [false], by simp, fun h => ?_⟩
    rcases List.infix_concat_iff.mp h with hsuffix | hinfix
    · apply hends
      rw [List.append_assoc]
      exact hsuffix.trans (List.suffix_append _ _)
    · exact hafter hinfix

end Switch

/-! ### The code -/

namespace ReadinessHysteresis

variable {l : List Bool} {h : ReadinessHysteresis} {up down : ℕ}

def observeAll (h : ReadinessHysteresis) (l : List Bool) : ReadinessHysteresis :=
  l.foldl (fun h healthy => h.observe healthy) h

/-- What the flag and the counters say of the observations. A counter is exact up to the largest
number of its type. -/
structure Reflects (up down : ℕ) (l : List Bool) (h : ReadinessHysteresis) : Prop where
  successThreshold : h.successThreshold = up
  failureThreshold : h.failureThreshold = down
  successes : ∀ n ≤ 4294967295, n ≤ h.successes ↔ EndsWith n true l
  failures : ∀ n ≤ 4294967295, n ≤ h.failures ↔ EndsWith n false l
  ready : h.ready = true ↔ Latched up down l

theorem reflects_new (hup : 1 ≤ up) : Reflects up down [] (new up down) where
  successThreshold := rfl
  failureThreshold := rfl
  successes n _ := by
    rw [endsWith_nil]
    exact Nat.le_zero
  failures n _ := by
    rw [endsWith_nil]
    exact Nat.le_zero
  ready := by
    simp [new, not_latched_nil hup]

theorem le_saturatingSucc {counter : ℕ} {b : Bool}
    (hcounter : ∀ n ≤ 4294967295, n ≤ counter ↔ EndsWith n b l) :
    ∀ n ≤ 4294967295, n ≤ saturatingSucc counter ↔ EndsWith n b (l ++ [b]) := by
  intro n hn
  cases n with
  | zero => exact iff_of_true (Nat.zero_le _) endsWith_zero
  | succ n =>
    rw [endsWith_concat, ← hcounter n (by omega), saturatingSucc, and_iff_right rfl]
    omega

theorem le_zero_iff_endsWith {b c : Bool} (hne : b ≠ c) :
    ∀ n ≤ 4294967295, n ≤ 0 ↔ EndsWith n b (l ++ [c]) := by
  intro n _
  cases n with
  | zero => exact iff_of_true (Nat.le_refl 0) endsWith_zero
  | succ n => exact iff_of_false (by omega) (not_endsWith_concat (by omega) hne)

theorem Reflects.observe (hr : Reflects up down l h) (hup : 1 ≤ up) (hup' : up ≤ 4294967295)
    (hdown : 1 ≤ down) (hdown' : down ≤ 4294967295) (healthy : Bool) :
    Reflects up down (l ++ [healthy]) (h.observe healthy) := by
  cases healthy with
  | true =>
    have hsuccesses := le_saturatingSucc hr.successes
    refine ⟨hr.successThreshold, hr.failureThreshold, hsuccesses, le_zero_iff_endsWith (by simp),
      ?_⟩
    rw [latched_concat_true hdown, ← hr.ready, ← hsuccesses up hup']
    simp only [ReadinessHysteresis.observe, if_true, hr.successThreshold]
    split_ifs with hle
    · simp [hle]
    · simp [hle]
  | false =>
    have hfailures := le_saturatingSucc hr.failures
    refine ⟨hr.successThreshold, hr.failureThreshold, le_zero_iff_endsWith (by simp), hfailures,
      ?_⟩
    rw [latched_concat_false hup, ← hr.ready, ← hfailures down hdown']
    simp only [ReadinessHysteresis.observe, Bool.false_eq_true, if_false, hr.failureThreshold]
    split_ifs with hle
    · simp [hle]
    · simp [hle]

theorem reflects_observeAll (hup : 1 ≤ up) (hup' : up ≤ 4294967295) (hdown : 1 ≤ down)
    (hdown' : down ≤ 4294967295) (l : List Bool) :
    Reflects up down l ((new up down).observeAll l) := by
  induction l using List.reverseRecOn with
  | nil => exact reflects_new hup
  | append_singleton l healthy ih =>
    rw [observeAll, List.foldl_append]
    exact ih.observe hup hup' hdown hdown' healthy

/-- After every sequence of observations the value is that of the switch, and it changes exactly at
an observation that completes a run. -/
theorem ready_observeAll_iff (hup : 1 ≤ up) (hup' : up ≤ 4294967295) (hdown : 1 ≤ down)
    (hdown' : down ≤ 4294967295) (l : List Bool) :
    (((new up down).observeAll l).ready = true ↔
      ∃ before after, l = before ++ List.replicate up true ++ after ∧
        ¬ List.replicate down false <:+: after) ∧
    ∀ healthy,
      (((new up down).observeAll l).ready = false →
        (((new up down).observeAll (l ++ [healthy])).ready = true ↔
          List.replicate up true <:+ l ++ [healthy])) ∧
      (((new up down).observeAll l).ready = true →
        (((new up down).observeAll (l ++ [healthy])).ready = false ↔
          List.replicate down false <:+ l ++ [healthy])) := by
  have hreflects := reflects_observeAll hup hup' hdown hdown'
  refine ⟨(hreflects l).ready, fun healthy => ⟨fun hready => ?_, fun hready => ?_⟩⟩
  · have hlatched : ¬ Latched up down l := by
      rw [← (hreflects l).ready, hready]
      simp
    rw [(hreflects (l ++ [healthy])).ready]
    cases healthy with
    | true =>
      rw [latched_concat_true hdown]
      simp [hlatched, EndsWith]
    | false =>
      rw [latched_concat_false hup]
      exact iff_of_false (fun h => hlatched h.1) (not_endsWith_concat hup (by simp))
  · have hlatched : Latched up down l := (hreflects l).ready.mp hready
    rw [← Bool.not_eq_true, (hreflects (l ++ [healthy])).ready]
    cases healthy with
    | true =>
      rw [latched_concat_true hdown]
      exact iff_of_false (fun h => h (Or.inr hlatched)) (not_endsWith_concat hdown (by simp))
    | false =>
      rw [latched_concat_false hup]
      simp [hlatched, EndsWith]

theorem ready_observeAll_iff_twoThree :
    ((new 2 3).observeAll [true, true, false, false]).ready = true := by
  have hup : 1 ≤ 2 := by decide
  have hdown : 1 ≤ 3 := by decide
  have hiff := (ready_observeAll_iff hup (by decide) hdown (by decide)
    [true, true, false, false]).1
  exact hiff.mpr ⟨[], [false, false], rfl, fun h => by simpa using h.length_le⟩

end ReadinessHysteresis
end KafkaEdgeRouter
