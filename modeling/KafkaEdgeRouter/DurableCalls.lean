import KafkaEdgeRouter.DurableSteps

/-!
# The calls of the durable worker

One rule for each call that the worker makes: from which assertions it may be made and what holds
after each of its answers. A failed call leaves a reason to fail behind.
-/

namespace KafkaEdgeRouter.Webhook

theorem Recalls.concat {completed : Finset String} {exempt : Option String} {h : List Event}
    {e : Event} (hr : Recalls completed exempt h) (he : e ≠ .started)
    (hterminal : e.terminalId = none) : Recalls completed exempt (h ++ [e]) := by
  constructor
  · intro id hid
    rw [lifetime_concat he]
    exact (hr.ended id hid).append _
  · rintro id ⟨e', hmem, hid⟩
    rw [lifetime_concat he] at hmem
    rcases List.mem_append.mp hmem with hmem | hmem
    · exact hr.complete id ⟨e', hmem, hid⟩
    · rw [List.mem_singleton.mp hmem, hterminal] at hid
      cases hid

namespace DurableWorker

variable {W : DurableWorker} {w w' s : World} {P : World → Prop} {β : Type}

theorem sat_call {enabled : Input → World → Bool} {f : Input → World → β × World}
    {Q : β → World → Prop} (hP : W.contract.Stable P) (hQ : ∀ b, W.contract.Stable (Q b))
    (hs : P s)
    (h : ∀ i w, W.Inv w → P w → enabled i w = true → W.Inv (f i w).2 ∧ Q (f i w).1 (f i w).2) :
    (Prog.await enabled f).Sat W.contract Q s := by
  apply Prog.sat_atomic hP hQ hs
  intro i w hw hp he
  obtain ⟨hinv, hq⟩ := h i w hw hp he
  exact ⟨hinv, trivial, hq⟩

variable (W) in
/-- What holds after a call that may fail. -/
def Outcome (good : β → World → Prop) : Except String β → World → Prop
  | .ok b => good b
  | .error _ => W.Reason

theorem stable_outcome {good : β → World → Prop} (h : ∀ b, W.contract.Stable (good b))
    (r : Except String β) : W.contract.Stable (W.Outcome good r) := by
  cases r with
  | ok b => exact h b
  | error e => exact persistent_reason.stable

variable (W) in
/-- The program can go on as the loops of the worker have to. -/
def Keeps (p : Pass) (w : World) : Prop := p.Sat W.contract (System.Leaves W.Point W.Verdict) w

theorem keeps_try {p : WorkerProg (Except String β)} {next : β → Pass}
    {good : β → World → Prop} (hs : W.Inv s) (h : p.Sat W.contract (W.Outcome good) s)
    (hnext : ∀ b w, W.Inv w → good b w → W.Keeps (next b) w) :
    W.Keeps (p.tryThen next) s := by
  apply Prog.sat_tryThen hs
  · intro e
    exact stable_leaves _
  · apply Prog.sat_mono h
    intro r w hw hr
    cases r with
    | ok b => exact hnext b w hw hr
    | error e => exact hr

theorem keeps_again {c : Control} (h : W.Point c s) : W.Keeps (Prog.ret (.again c)) s :=
  Prog.sat_ret (stable_leaves _) h

theorem keeps_error {reason : String} (h : W.Reason s) :
    W.Keeps (Prog.ret (.done (.error reason))) s :=
  Prog.sat_ret (stable_leaves (.done (.error reason))) h

theorem keeps_ok (h : Signalled s.history) : W.Keeps (Prog.ret (.done (.ok ()))) s :=
  Prog.sat_ret (stable_leaves (.done (.ok ()))) h

/-! ### Failures -/

theorem reason_failed {call : KafkaCall} (hne : call ≠ .receive)
    (hmem : .failed call ∈ lifetime w.history) : W.Reason w :=
  Or.inr (Or.inl (.kafka call hmem hne))

theorem failed_mem (w : World) (call : KafkaCall) :
    .failed call ∈ lifetime (w.log (.failed call)).history := by
  rw [World.log, lifetime_concat (by simp)]
  exact List.mem_append_right _ (List.mem_singleton_self _)

theorem inv_failed (hw : W.Inv w) (call : KafkaCall) : W.Inv (w.log (.failed call)) := by
  have hx : W.Extension none (.failed call) w (w.log (.failed call)) :=
    extension_log rfl trivial (ends_nothing rfl)
  exact hw.growth hx.toGrowth

/-- A call that fails and changes nothing else. -/
theorem failed_call (hw : W.Inv w) {call : KafkaCall} (hne : call ≠ .receive) :
    W.Inv (w.log (.failed call)) ∧ W.Reason (w.log (.failed call)) :=
  ⟨inv_failed hw call, reason_failed hne (failed_mem w call)⟩

/-! ### The clock and the shutdown channel -/

theorem sat_clock (hP : W.contract.Stable P) (hs : P s) :
    clock.Sat W.contract (fun _ => P) s :=
  sat_call hP (fun _ => hP) hs (fun _ _ hw hp _ => ⟨hw, hp⟩)

theorem sat_borrow {Q : Bool → World → Prop} (hP : W.contract.Stable P)
    (hQ : ∀ b, W.contract.Stable (Q b)) (hs : P s)
    (h : ∀ w, W.Inv w → P w → Q w.shutdown.value w) : borrow.Sat W.contract Q s :=
  sat_call hP hQ hs (fun _ w hw hp _ => ⟨hw, h w hw hp⟩)

theorem extension_changed (w : World) : W.Extension none .noticed w w.changed.2 := by
  refine extension_event rfl rfl rfl rfl rfl trivial (ends_nothing rfl) ?_ Or.inl (fun _ h => h)
  · intro hlive
    left
    simp only [live, World.changed, Watch.changed, World.log, Bool.or_false, Bool.or_eq_true]
      at hlive ⊢
    exact hlive.imp_left Or.inl

theorem signalled_of_canChange (hw : W.Inv w) (h : w.shutdown.canChange = true) :
    Signalled w.history := by
  apply hw.signals
  simp only [Watch.canChange, live, Bool.or_eq_true] at h ⊢
  exact h.elim (fun h => Or.inl (Or.inr h)) Or.inr

theorem signalled_of_value (hw : W.Inv w) (h : w.shutdown.value = true) :
    Signalled w.history := by
  apply hw.signals
  simp [live, h]

theorem reason_signalled (h : Signalled w.history) : W.Reason w := Or.inl h

theorem sat_interrupted (hP : W.Persistent P) (hs : P s) :
    interrupted.Sat W.contract (fun r w => P w ∧ (r ≠ none → Signalled w.history)) s := by
  have hstable : ∀ r : Option Bool,
      W.contract.Stable (fun w => P w ∧ (r ≠ none → Signalled w.history)) := by
    intro r
    apply Persistent.stable
    intro e w w' hw hx h
    exact ⟨hP e w w' hw hx h.1, fun hr => hx.signalled (h.2 hr)⟩
  apply sat_call hP.stable hstable hs
  intro i w hw hp he
  cases hwake : i.wake with
  | changed =>
    simp only [hwake] at he
    have hx : W.Extension none .noticed w w.changed.2 := extension_changed w
    refine ⟨hw.growth hx.toGrowth, hP _ _ _ hw hx hp, fun _ => ?_⟩
    exact hx.signalled (signalled_of_canChange hw he)
  | slept => exact ⟨hw, hp, fun h => absurd rfl h⟩
  | message topic partition =>
    simp only [hwake] at he
    cases he
  | partitionEof partition =>
    simp only [hwake] at he
    cases he
  | receiveError error =>
    simp only [hwake] at he
    cases he

theorem sat_sleepUntil (hP : W.Persistent P) (hw : W.Inv s) (hs : P s) (nextAttemptAtMs : ℕ) :
    (sleepUntil nextAttemptAtMs).Sat W.contract (W.Outcome (fun _ => P)) s := by
  have hstable : ∀ r : Except String Unit, W.contract.Stable (W.Outcome (fun _ => P) r) :=
    stable_outcome (fun _ => hP.stable)
  apply Prog.sat_bind hw
  apply Prog.sat_mono (sat_clock hP.stable hs)
  intro now w hw hp
  split_ifs
  · exact Prog.sat_ret (hstable _) hp
  · apply Prog.sat_bind hw
    apply Prog.sat_mono (sat_interrupted hP hp)
    intro r w hw hr
    match r with
    | some true => exact Prog.sat_ret (hstable _) (reason_signalled (hr.2 (by simp)))
    | none => exact Prog.sat_ret (hstable _) hr.1
    | some false =>
      apply Prog.sat_bind hw
      have hsignalled := hr.2 (by simp)
      have hboth : W.Persistent (fun w => P w ∧ Signalled w.history) :=
        hP.and persistent_signalled
      apply Prog.sat_mono (sat_borrow hboth.stable (fun _ => hboth.stable) ⟨hr.1, hsignalled⟩
        (fun _ _ h => h))
      intro value w hw h
      cases value with
      | true => exact Prog.sat_ret (hstable _) (reason_signalled h.2)
      | false => exact Prog.sat_ret (hstable _) h.1

/-! ### Attempts -/

theorem busy_attempted {c : Control} {job : Job} (hw : W.Inv w) (h : W.Busy c job False w) :
    let w' := w.log (.attempted job.cursor job.record.deliveryId
      ⟨job.body, job.record.originalMessageId, job.record.attempt⟩)
    W.Inv w' ∧ W.Busy c job True w' := by
  intro w'
  have hx : W.Extension (some job.record.deliveryId) (.attempted job.cursor job.record.deliveryId
      ⟨job.body, job.record.originalMessageId, job.record.attempt⟩) w w' :=
    extension_log rfl h.working.cleared (ends_nothing rfl)
  have hbusy := hx.busy hw h
  refine ⟨hw.growth hx.toGrowth, hbusy.phase, hbusy.recalls, hbusy.few, ?_⟩
  have hinput := h.working.input
  refine { hbusy.working with input := ?_ }
  split_ifs at hinput ⊢ with hcommitted
  · exact hx.aligned hinput
  · obtain ⟨record, earlier, later, htaken, hid, hdestination, hfirst, _⟩ := hinput
    refine ⟨record, earlier, _, hx.taken htaken, hid, hdestination, hfirst, fun _ => ?_⟩
    rw [hid]
    exact ⟨_, List.mem_append_right _ (List.mem_singleton_self _)⟩

/-- The job has been attempted, and it has come to an end if the attempt was delivered. -/
def Answered (W : DurableWorker) (c : Control) (job : Job) (outcome : AttemptOutcome)
    (w : World) : Prop :=
  W.Busy c job True w ∧
    ∀ status, outcome = .delivered status → Terminal (lifetime w.history) job.record.deliveryId

theorem persistent_terminal (id : String) :
    W.Persistent (fun w => Terminal (lifetime w.history) id) := by
  intro e w w' _ hx h
  rw [hx.lifetime]
  exact h.append _

theorem sat_sendAttempt {c : Control} {job : Job} (hs : W.Busy c job False s) :
    (sendAttempt job).Sat W.contract (W.Answered c job) s := by
  have hstable : ∀ outcome, W.contract.Stable (W.Answered c job outcome) := by
    intro outcome
    apply Persistent.stable
    intro e w w' hw hx h
    refine ⟨persistent_busy c job True e w w' hw hx h.1, fun status heq => ?_⟩
    exact persistent_terminal _ e w w' hw hx (h.2 status heq)
  apply Prog.sat_access (persistent_busy c job False).stable hs
  intro w hw h
  obtain ⟨hinv, hbusy⟩ := busy_attempted hw h
  refine ⟨hinv, trivial, ?_⟩
  apply sat_call (persistent_busy c job True).stable hstable hbusy
  intro i w hw h _
  have hx : W.Extension (some job.record.deliveryId)
      (.answered job.record.deliveryId (attemptOutcome i.transport)) w
      (w.log (.answered job.record.deliveryId (attemptOutcome i.transport))) := by
    refine extension_log rfl trivial (fun id hid => ?_)
    cases houtcome : attemptOutcome i.transport with
    | delivered status =>
      rw [houtcome] at hid
      cases hid
      rfl
    | failed failure =>
      rw [houtcome] at hid
      cases hid
  refine ⟨hw.growth hx.toGrowth, hx.busy hw h, fun status heq => ?_⟩
  refine ⟨.answered job.record.deliveryId (.delivered status), ?_, rfl⟩
  rw [hx.lifetime, ← heq]
  exact List.mem_append_right _ (List.mem_singleton_self _)

end DurableWorker
end KafkaEdgeRouter.Webhook
