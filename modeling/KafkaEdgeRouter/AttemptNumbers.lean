import KafkaEdgeRouter.DurableSteps
import Mathlib.Data.List.Range

/-!
# How the attempts for a command are numbered

What an attempt changes in a record, and what the process that is running has done for an
identifier: the first record it received, the numbers of the attempts it made, and whether the
identifier has come to an end. A history in which every attempt has the number that is due gives
each process one attempt after the other, and none after the end.
-/

namespace KafkaEdgeRouter.Webhook

/-! ### The content of a record -/

/-- The records agree on everything but the four fields that an attempt changes. -/
def DurableRecord.SameContent (record record' : DurableRecord) : Prop :=
  record = { record' with
    attempt := record.attempt
    nextAttemptAtMs := record.nextAttemptAtMs
    lastErrorClass := record.lastErrorClass
    state := record.state }

theorem DurableRecord.SameContent.trans {record record' record'' : DurableRecord}
    (h : record.SameContent record') (h' : record'.SameContent record'') :
    record.SameContent record'' := by
  unfold SameContent at h h' ⊢
  rw [h'] at h
  exact h

theorem DurableEndpoint.sameContent_retried (endpoint : DurableEndpoint) (record : DurableRecord)
    (failure : FailureClass) (now : ℕ) :
    (endpoint.retried record failure now).SameContent record := rfl

theorem DurableRecord.sameContent_deadLettered (record : DurableRecord) (failure : FailureClass) :
    (record.deadLettered failure).SameContent record := rfl

theorem DurableRecord.sameContent_replayed (record : DurableRecord) (now : ℕ) :
    (record.replayed now).SameContent record := rfl

theorem DurableRecord.SameContent.deliveryId {record record' : DurableRecord}
    (h : record.SameContent record') : record.deliveryId = record'.deliveryId := by
  rw [h]

theorem DurableRecord.SameContent.originalMessageId {record record' : DurableRecord}
    (h : record.SameContent record') : record.originalMessageId = record'.originalMessageId := by
  rw [h]

theorem DurableRecord.SameContent.bodyBase64 {record record' : DurableRecord}
    (h : record.SameContent record') : record.bodyBase64 = record'.bodyBase64 := by
  rw [h]

/-! ### What a process has done for an identifier -/

def Event.attemptOf (id : String) : Event → Option ℕ
  | .attempted _ deliveryId request => if deliveryId = id then some request.attempt else none
  | _ => none

def attemptNumbers (id : String) (l : List Event) : List ℕ := l.filterMap (Event.attemptOf id)

/-- The event starts no process, takes no record, and neither attempts nor ends a command. -/
def Event.silent : Event → Bool
  | .started | .received _ _ | .attempted _ _ _ => false
  | e => e.terminalId.isNone

namespace DurableWorker

variable (W : DurableWorker)

def receiptOf (id : String) : Event → Option DurableRecord
  | .received _ payload => (W.own payload).filter (fun record => record.deliveryId = id)
  | _ => none

def firstReceipt (id : String) (l : List Event) : Option DurableRecord :=
  l.findSome? (W.receiptOf id)

/-- Nothing has been done for the identifier. -/
structure Untouched (id : String) (l : List Event) : Prop where
  unattempted : attemptNumbers id l = []
  unreceived : W.firstReceipt id l = none
  unended : ¬ Terminal l id

/-- The number is the one that the next attempt for the identifier has. -/
def Due (id : String) (number : ℕ) (l : List Event) : Prop :=
  ¬ Terminal l id ∧ ∃ record, W.firstReceipt id l = some record ∧
    number = record.attempt + (attemptNumbers id l).length ∧
    (attemptNumbers id l = [] ∨ number ≤ W.endpoint.maxAttempts)

/-- The number is the one that the last attempt for the identifier had. -/
def Tried (id : String) (number : ℕ) (l : List Event) : Prop :=
  ¬ Terminal l id ∧ ∃ record, W.firstReceipt id l = some record ∧
    number + 1 = record.attempt + (attemptNumbers id l).length

/-- Only the completed identifiers and the one in work have been touched. -/
def Spared (completed : Finset String) (inWork : Option String) (l : List Event) : Prop :=
  ∀ id, id ∉ completed → inWork ≠ some id → W.Untouched id l

/-- An attempt has the number that is due, and an identifier ends once. -/
def Lively (before : List Event) : Event → Prop
  | .attempted _ id request => W.Due id request.attempt (lifetime before)
  | e => ∀ id, e.terminalId = some id → ¬ Terminal (lifetime before) id

variable {W} {id : String} {l : List Event} {e : Event}

theorem not_terminal_of_silent (he : e.silent = true) : e.terminalId = none := by
  cases e with
  | answered deliveryId outcome => exact Option.isNone_iff_eq_none.mp he
  | acknowledged topic deliveryId => exact Option.isNone_iff_eq_none.mp he
  | _ => rfl

theorem attemptOf_of_silent (he : e.silent = true) (id : String) : e.attemptOf id = none := by
  cases e with
  | attempted cursor deliveryId request => cases he
  | _ => rfl

theorem receiptOf_of_silent (he : e.silent = true) (id : String) : W.receiptOf id e = none := by
  cases e with
  | received cursor payload => cases he
  | _ => rfl

theorem ne_started_of_silent (he : e.silent = true) : e ≠ .started := by
  rintro rfl
  cases he

theorem lively_of_silent (he : e.silent = true) (before : List Event) : W.Lively before e := by
  cases e with
  | attempted cursor deliveryId request => cases he
  | _ => exact ends_nothing (not_terminal_of_silent he)

theorem terminal_concat : Terminal (l ++ [e]) id ↔ Terminal l id ∨ e.terminalId = some id := by
  simp [Terminal, or_and_right, exists_or]

theorem attemptNumbers_concat (id : String) (l : List Event) (e : Event) :
    attemptNumbers id (l ++ [e]) = attemptNumbers id l ++ (e.attemptOf id).toList := by
  rw [attemptNumbers, List.filterMap_append]
  cases h : e.attemptOf id <;> simp [attemptNumbers, h]

theorem firstReceipt_concat (id : String) (l : List Event) (e : Event) :
    W.firstReceipt id (l ++ [e]) = (W.firstReceipt id l).or (W.receiptOf id e) := by
  simp [firstReceipt, List.findSome?_append]

/-- Nothing is done for the identifier by the event. -/
structure Passes (W : DurableWorker) (id : String) (e : Event) : Prop where
  attempt : e.attemptOf id = none
  receipt : W.receiptOf id e = none
  terminal : e.terminalId ≠ some id

theorem passes_of_silent (he : e.silent = true) (id : String) : W.Passes id e where
  attempt := attemptOf_of_silent he id
  receipt := receiptOf_of_silent he id
  terminal := by
    rw [not_terminal_of_silent he]
    exact nofun

theorem Passes.numbers (h : W.Passes id e) :
    attemptNumbers id (l ++ [e]) = attemptNumbers id l := by
  rw [attemptNumbers_concat, h.attempt, Option.toList_none, List.append_nil]

theorem Passes.first (h : W.Passes id e) : W.firstReceipt id (l ++ [e]) = W.firstReceipt id l := by
  rw [firstReceipt_concat, h.receipt, Option.or_none]

theorem Passes.ended (h : W.Passes id e) : Terminal (l ++ [e]) id ↔ Terminal l id := by
  rw [terminal_concat]
  exact or_iff_left h.terminal

theorem Untouched.concat (hl : W.Untouched id l) (h : W.Passes id e) :
    W.Untouched id (l ++ [e]) where
  unattempted := h.numbers.trans hl.unattempted
  unreceived := h.first.trans hl.unreceived
  unended := fun ht => hl.unended (h.ended.mp ht)

theorem Due.concat {number : ℕ} (hl : W.Due id number l) (h : W.Passes id e) :
    W.Due id number (l ++ [e]) := by
  unfold Due
  rw [h.numbers, h.first, h.ended]
  exact hl

theorem Tried.concat {number : ℕ} (hl : W.Tried id number l) (h : W.Passes id e) :
    W.Tried id number (l ++ [e]) := by
  unfold Tried
  rw [h.numbers, h.first, h.ended]
  exact hl

theorem Spared.concat {completed : Finset String} {inWork : Option String}
    (hl : W.Spared completed inWork l)
    (h : ∀ id, id ∉ completed → inWork ≠ some id → W.Passes id e) :
    W.Spared completed inWork (l ++ [e]) :=
  fun id hid hwork => (hl id hid hwork).concat (h id hid hwork)

theorem Due.tried {cursor : Cursor} {request : HttpRequest} (h : W.Due id request.attempt l) :
    W.Tried id request.attempt (l ++ [.attempted cursor id request]) := by
  obtain ⟨hopen, record, hfirst, hnumber, _⟩ := h
  refine ⟨?_, record, ?_, ?_⟩
  · rw [terminal_concat]
    exact fun ht => ht.elim hopen nofun
  · rw [firstReceipt_concat, hfirst, Option.some_or]
  · rw [attemptNumbers_concat, List.length_append, hnumber]
    simp [Event.attemptOf]
    omega

theorem Tried.due {number : ℕ} (h : W.Tried id number l)
    (hlimit : number < W.endpoint.maxAttempts) : W.Due id (number + 1) l := by
  obtain ⟨hopen, record, hfirst, hnumber⟩ := h
  exact ⟨hopen, record, hfirst, hnumber, Or.inr hlimit⟩

theorem Untouched.due {cursor : Cursor} {payload : Payload} {record : DurableRecord}
    (h : W.Untouched record.deliveryId l) (hown : W.own payload = some record) :
    W.Due record.deliveryId record.attempt (l ++ [.received cursor payload]) := by
  have hnumbers : attemptNumbers record.deliveryId (l ++ [.received cursor payload]) = [] := by
    rw [attemptNumbers_concat, h.unattempted]
    rfl
  refine ⟨?_, record, ?_, ?_, Or.inl hnumbers⟩
  · rw [terminal_concat]
    exact fun ht => ht.elim h.unended nofun
  · rw [firstReceipt_concat, h.unreceived, Option.none_or, receiptOf, hown]
    simp
  · rw [hnumbers]
    rfl

/-! ### What the numbers come to -/

/-- One end, no attempt after it, and one attempt after the other from the first record received. -/
structure InOrder (W : DurableWorker) (id : String) (l : List Event) : Prop where
  once : (l.filter (fun e => e.terminalId = some id)).length ≤ 1
  last : ∀ before e after, l = before ++ e :: after → e.terminalId = some id →
    attemptNumbers id after = []
  numbers : attemptNumbers id l = [] ∨ ∃ record, W.firstReceipt id l = some record ∧
    attemptNumbers id l = List.range' record.attempt (attemptNumbers id l).length ∧
    (attemptNumbers id l).length ≤ max 1 (W.endpoint.maxAttempts - record.attempt + 1)

theorem inOrder_nil : W.InOrder id [] where
  once := Nat.zero_le 1
  last before e after h := by simp at h
  numbers := Or.inl rfl

theorem InOrder.concat (hl : W.InOrder id l)
    (hterminal : e.terminalId = some id → ¬ Terminal l id)
    (hattempt : ∀ number, e.attemptOf id = some number → W.Due id number l) :
    W.InOrder id (l ++ [e]) where
  once := by
    rw [List.filter_append, List.length_append]
    by_cases he : e.terminalId = some id
    · have hnone : l.filter (fun e => e.terminalId = some id) = [] := by
        rw [List.filter_eq_nil_iff]
        intro e' hmem he'
        exact hterminal he ⟨e', hmem, by simpa using he'⟩
      rw [hnone]
      simp [he]
    · simpa [he] using hl.once
  last before e' after heq he' := by
    rcases List.eq_nil_or_concat' after with rfl | ⟨after', last, rfl⟩
    · rfl
    · rw [← List.cons_append, ← List.append_assoc] at heq
      obtain ⟨hbefore, hlast⟩ := List.append_inj' heq rfl
      rw [attemptNumbers_concat, hl.last before e' after' hbefore he',
        ← List.singleton_inj.mp hlast]
      cases hnumber : e.attemptOf id with
      | none => rfl
      | some number =>
        refine absurd ?_ (hattempt number hnumber).1
        exact ⟨e', by rw [hbefore]; simp, he'⟩
  numbers := by
    rw [attemptNumbers_concat, firstReceipt_concat]
    cases hnumber : e.attemptOf id with
    | none =>
      rw [Option.toList_none, List.append_nil]
      rcases hl.numbers with hnone | ⟨record, hfirst, hrest⟩
      · exact Or.inl hnone
      · exact Or.inr ⟨record, by rw [hfirst, Option.some_or], hrest⟩
    | some number =>
      obtain ⟨_, record, hfirst, hnext, hbound⟩ := hattempt number hnumber
      refine Or.inr ⟨record, by rw [hfirst, Option.some_or], ?_⟩
      rw [Option.toList_some, List.length_append, List.length_singleton]
      rcases hl.numbers with hnone | ⟨record', hfirst', hnumbers, _⟩
      · rw [hnone] at hnext ⊢
        simp only [List.length_nil, Nat.add_zero] at hnext
        rw [hnext]
        exact ⟨rfl, Nat.le_max_left 1 _⟩
      · obtain rfl : record' = record := Option.some.inj (hfirst'.symm.trans hfirst)
        constructor
        · rw [List.range'_1_concat, ← hnumbers, hnext]
        · rcases hbound with hnone | hbound
          · rw [hnone]
            exact Nat.le_max_left 1 _
          · omega

/-- What a history that attempts and ends as it should says of its last process. -/
theorem inOrder_lifetime {h : List Event} (hh : History.Justified W.Lively h) (id : String) :
    W.InOrder id (lifetime h) := by
  induction h using List.reverseRecOn with
  | nil => exact inOrder_nil
  | append_singleton h e ih =>
    obtain ⟨hh, he⟩ := History.justified_concat.mp hh
    by_cases hstarted : e = .started
    · rw [hstarted, lifetime_started]
      exact inOrder_nil
    · rw [lifetime_concat hstarted]
      apply (ih hh).concat
      · intro hterminal
        cases e with
        | attempted cursor deliveryId request => cases hterminal
        | _ => exact he id hterminal
      · intro number hnumber
        cases e with
        | attempted cursor deliveryId request =>
          simp only [Event.attemptOf, Option.ite_none_right_eq_some, Option.some.injEq] at hnumber
          obtain ⟨rfl, rfl⟩ := hnumber
          exact he
        | _ => cases hnumber

end DurableWorker
end KafkaEdgeRouter.Webhook
