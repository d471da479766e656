import KafkaEdgeRouter.AttemptLedger
import KafkaEdgeRouter.WebhookDelivery

/-!
# Attempts are identical and bounded

The loops of the durable worker keep the ledger. So every attempt for a command sends the body that
was persisted under the key of its message, and since it was started the worker attempts a command
only from the first copy it received, one number after the other, and not again once the command has
come to an end.
-/

namespace KafkaEdgeRouter.Webhook.DurableWorker

variable {W : DurableWorker} {id : String} {l : List Event} {e : Event} {w w' s : World}
  {record : DurableRecord} {completed : Finset String} {job : Job} {c : Control}

/-! ### One record in the hands of the worker -/

theorem passes_other {id' : String} (hid : id' ≠ id) (cursor : Cursor) (request : HttpRequest) :
    W.Passes id' (.attempted cursor id request) where
  attempt := if_neg (Ne.symm hid)
  receipt := rfl
  terminal := nofun

theorem passes_end {id' : String} (hid : id' ≠ id) (hattempt : e.attemptOf id' = none)
    (hreceipt : W.receiptOf id' e = none) (hend : ∀ id', e.terminalId = some id' → id' = id) :
    W.Passes id' e where
  attempt := hattempt
  receipt := hreceipt
  terminal := fun h => hid (hend id' h)

/-- An event that may end the identifier in work. -/
theorem Spared.ended (h : W.Spared completed (some id) l) (hattempt : ∀ id', e.attemptOf id' = none)
    (hreceipt : ∀ id', W.receiptOf id' e = none)
    (hend : ∀ id', e.terminalId = some id' → id' = id) :
    W.Spared completed (some id) (l ++ [e]) := by
  apply h.concat
  intro id' _ hwork
  refine passes_end ?_ (hattempt id') (hreceipt id') hend
  rintro rfl
  exact hwork rfl

theorem entry_event (w : World) (e : Event) : W.Entry e w (w.log e) := entry_log rfl rfl

variable (W) in
/-- The record in hand has been attempted and may be written on. -/
def InHand (completed : Finset String) (job : Job) (w : World) : Prop :=
  W.Employed completed job w ∧
    W.Tried job.record.deliveryId job.record.attempt (lifetime w.history)

theorem lasting_inHand : W.Lasting (W.InHand completed job) :=
  lasting_employed.and (lasting_tried _ _)

/-- The attempt that is due. -/
theorem Employed.attempt (hw : W.Ledger w) (h : W.Employed completed job w)
    (hdue : W.Due job.record.deliveryId job.record.attempt (lifetime w.history)) :
    let w' := w.log (.attempted job.cursor job.record.deliveryId
      ⟨job.body, job.record.originalMessageId, job.record.attempt⟩)
    W.Ledger w' ∧ W.InHand completed job w' := by
  intro w'
  have hentry : W.Entry (.attempted job.cursor job.record.deliveryId
      ⟨job.body, job.record.originalMessageId, job.record.attempt⟩) w w' := entry_event w _
  have hlifetime := hentry.lifetime nofun
  refine ⟨hw.entry hentry hdue ?_, ⟨?_, h.genuine.keep hentry.keeping, h.body⟩, ?_⟩
  · rintro cursor id request heq
    cases heq
    obtain ⟨command, hpersisted, hsame⟩ := h.genuine
    refine ⟨command, hpersisted, hsame.originalMessageId, ?_⟩
    rw [← hsame.bodyBase64]
    exact h.body
  · rw [hlifetime]
    apply h.others.concat
    intro id' _ hwork
    apply passes_other
    rintro rfl
    exact hwork rfl
  · rw [hlifetime]
    exact hdue.tried

variable (W) in
/-- What an answered attempt leaves: the identifier has come to an end, or it can be tried again. -/
def AnsweredFor (completed : Finset String) (job : Job) (outcome : AttemptOutcome) (w : World) :
    Prop :=
  W.Spared completed (some job.record.deliveryId) (lifetime w.history) ∧
    ∀ failure, outcome = .failed failure → W.InHand completed job w

theorem lasting_answeredFor (outcome : AttemptOutcome) :
    W.Lasting (W.AnsweredFor completed job outcome) := by
  intro e w w' hentry he h
  refine ⟨lasting_spared e w w' hentry he h.1, fun failure heq => ?_⟩
  exact lasting_inHand e w w' hentry he (h.2 failure heq)

theorem sat_sendAttempt_answered (hs : W.Employed completed job s ∧
      W.Due job.record.deliveryId job.record.attempt (lifetime s.history)) :
    (sendAttempt job).Sat W.ledgerContract (W.AnsweredFor completed job) s := by
  have hdue : W.Lasting (fun w => W.Employed completed job w ∧
      W.Due job.record.deliveryId job.record.attempt (lifetime w.history)) :=
    lasting_employed.and (lasting_due _ _)
  apply Prog.sat_access hdue.stable hs
  intro w hw h
  obtain ⟨hledger, hinHand⟩ := h.1.attempt hw h.2
  refine ⟨hledger, trivial, ?_⟩
  apply Prog.sat_atomic lasting_inHand.stable (fun r => (lasting_answeredFor r).stable) hinHand
  intro i w hw h _
  have hentry := entry_event (W := W) w
    (.answered job.record.deliveryId (attemptOutcome i.transport))
  cases houtcome : attemptOutcome i.transport with
  | failed failure =>
    rw [houtcome] at hentry
    refine ⟨hw.silent hentry rfl, trivial, ?_⟩
    have hnext := lasting_inHand _ _ _ hentry rfl h
    exact ⟨hnext.1.others, fun _ _ => hnext⟩
  | delivered status =>
    rw [houtcome] at hentry
    refine ⟨hw.entry hentry ?_ nofun, trivial, ?_, nofun⟩
    · intro id hid
      cases hid
      exact h.2.1
    · rw [hentry.lifetime nofun]
      apply h.1.others.ended (fun _ => rfl) (fun _ => rfl)
      intro id hid
      cases hid
      rfl

theorem published_entry (hgenuine : W.Genuine record w) (topic : Topic) (i : Input) :
    ∃ e, W.Entry e w (W.published topic record i w).2 ∧
      (e = .failed .publish ∨ e = .acknowledged topic record.deliveryId) := by
  by_cases hsize : record.size > W.maxRecordBytes
  · simp only [published, DurableRecord.publication, hsize, if_true]
    exact ⟨_, entry_event w _, Or.inl rfl⟩
  · simp only [published, DurableRecord.publication, hsize, if_false]
    cases i.reply with
    | done => exact ⟨_, entry_publish hgenuine, Or.inr rfl⟩
    | failed error applied =>
      cases applied with
      | false => exact ⟨_, entry_event w _, Or.inl rfl⟩
      | true => exact ⟨_, entry_publish hgenuine, Or.inl rfl⟩

theorem sat_publishRetry (hsame : record.SameContent job.record)
    (hs : W.InHand completed job s) :
    (W.publishRecord .retry record).Sat W.ledgerContract (fun _ => W.InHand completed job) s := by
  apply Prog.sat_atomic lasting_inHand.stable (fun _ => lasting_inHand.stable) hs
  intro i w hw h _
  obtain ⟨e, hentry, he⟩ := published_entry (h.1.genuine.same hsame) .retry i
  have hsilent : e.silent = true := by
    rcases he with rfl | rfl <;> rfl
  exact ⟨hw.silent hentry hsilent, trivial, lasting_inHand _ _ _ hentry hsilent h⟩

theorem sat_publishDeadLetter (hsame : record.SameContent job.record)
    (hs : W.InHand completed job s) :
    (W.publishRecord .deadLetter record).Sat W.ledgerContract
      (fun _ w => W.Spared completed (some job.record.deliveryId) (lifetime w.history)) s := by
  apply Prog.sat_atomic lasting_inHand.stable (fun _ => lasting_spared.stable) hs
  intro i w hw h _
  obtain ⟨e, hentry, he⟩ := published_entry (h.1.genuine.same hsame) .deadLetter i
  rcases he with rfl | rfl
  · exact ⟨hw.silent hentry rfl, trivial, lasting_spared _ _ _ hentry rfl h.1.others⟩
  · have hend : ∀ id, Event.terminalId (.acknowledged .deadLetter record.deliveryId) = some id →
        id = job.record.deliveryId := by
      intro id hid
      cases hid
      exact hsame.deliveryId
    refine ⟨hw.entry hentry ?_ nofun, trivial, ?_⟩
    · intro id hid
      rw [hend id hid]
      exact h.2.1
    · rw [hentry.lifetime nofun]
      exact h.1.others.ended (fun _ => rfl) (fun _ => rfl) hend

/-- The identifier in work is remembered, or the worker ends. -/
theorem upkeep_finish (hsame : record.SameContent job.record)
    (hs : W.Spared c.completed (some job.record.deliveryId) (lifetime s.history)) :
    W.Upkeep (W.finish c { job with record }) s := by
  unfold finish
  simp only [hsame.deliveryId, rememberCompleted]
  split_ifs with hfull
  · exact upkeep_done _ s
  · apply upkeep_again
    intro id hid _
    apply hs id
    · exact fun hmem => hid (Finset.mem_insert_of_mem hmem)
    · intro heq
      cases heq
      exact hid (Finset.mem_insert_self _ _)

theorem upkeep_process (hlimit : W.endpoint.maxAttempts ≤ u32Max) (hw : W.Ledger s)
    (hs : W.Employed c.completed job s ∧
      W.Due job.record.deliveryId job.record.attempt (lifetime s.history)) :
    W.Upkeep (W.process c job) s := by
  have hdue : W.Lasting (fun w => W.Employed c.completed job w ∧
      W.Due job.record.deliveryId job.record.attempt (lifetime w.history)) :=
    lasting_employed.and (lasting_due _ _)
  apply upkeep_try hw (sat_mute (always_sleepUntil _) hdue hs)
  intro _ w hw h
  apply Prog.sat_bind hw
  apply Prog.sat_mono (sat_sendAttempt_answered h)
  intro outcome w hw h
  cases outcome with
  | delivered status =>
    apply upkeep_try hw (sat_mute (always_commitInput job) lasting_spared h.1)
    intro _ w hw h
    exact upkeep_finish rfl h
  | failed failure =>
    have hinHand : W.InHand c.completed job w := h.2 failure rfl
    simp only
    split_ifs with hretry
    · apply Prog.sat_bind hw
      apply Prog.sat_mono (sat_mute always_clock lasting_inHand hinHand)
      intro now w hw h
      have hsame := W.endpoint.sameContent_retried job.record failure now
      apply upkeep_try hw (sat_publishRetry hsame h)
      intro _ w hw h
      apply upkeep_try hw (sat_mute (always_commitInput job) lasting_inHand h)
      intro _ w hw h
      apply upkeep_again
      simp only [DurableEndpoint.retries, Bool.and_eq_true, decide_eq_true_eq] at hretry
      have hnumber : (W.endpoint.retried job.record failure now).attempt =
          job.record.attempt + 1 := by
        simp only [DurableEndpoint.retried]
        omega
      refine ⟨⟨h.1.others, h.1.genuine.same hsame, h.1.body⟩, ?_⟩
      rw [hnumber]
      exact h.2.due hretry.2
    · have hsame := job.record.sameContent_deadLettered failure
      apply upkeep_try hw (sat_publishDeadLetter hsame hinHand)
      intro _ w hw h
      apply upkeep_try hw (sat_mute (always_commitInput job) lasting_spared h)
      intro _ w hw h
      exact upkeep_finish hsame h

/-! ### Records received -/

variable (W) in
/-- What a received record leaves to do. -/
structure Offered (completed : Finset String) (payload : Payload) (w : World) : Prop where
  others : W.Spared completed ((W.own payload).map DurableRecord.deliveryId) (lifetime w.history)
  first : ∀ record, W.own payload = some record → W.Genuine record w ∧
    (record.deliveryId ∉ completed → W.Due record.deliveryId record.attempt (lifetime w.history))

variable {payload : Payload} {cursor : Cursor}

theorem lasting_offered : W.Lasting (W.Offered completed payload) := by
  intro e w w' hentry he h
  constructor
  · exact lasting_spared e w w' hentry he h.others
  · intro record hown
    obtain ⟨hgenuine, hdue⟩ := h.first record hown
    exact ⟨hgenuine.keep hentry.keeping, fun hid => lasting_due _ _ e w w' hentry he (hdue hid)⟩

theorem passes_received (hid : (W.own payload).map DurableRecord.deliveryId ≠ some id) :
    W.Passes id (.received cursor payload) where
  attempt := rfl
  receipt := by
    rw [receiptOf]
    cases hown : W.own payload with
    | none => rfl
    | some record =>
      rw [hown] at hid
      exact Option.filter_some_neg (by simpa using hid)
  terminal := nofun

theorem Spared.offered (hw : W.Ledger w) (h : W.Spared completed none (lifetime w.history))
    {topic : Topic} {partition : ℕ} :
    let cursor : Cursor := ⟨topic, partition, w.broker.position (topic, partition)⟩
    let payload := (w.broker.log cursor.key).getD cursor.offset .missing
    let w' := { w with broker := w.broker.receive cursor.key }.log (.received cursor payload)
    W.Ledger w' ∧ W.Offered completed payload w' := by
  intro cursor payload w'
  have hentry : W.Entry (.received cursor payload) w w' := entry_log rfl rfl
  have hlifetime := hentry.lifetime nofun
  refine ⟨hw.entry hentry (ends_nothing rfl) nofun, ?_, ?_⟩
  · rw [hlifetime]
    intro id hid hwork
    exact (h id hid nofun).concat (passes_received hwork)
  · intro record hown
    have hat : w.broker.At cursor.key cursor.offset payload := by
      cases hlookup : (w.broker.log cursor.key)[cursor.offset]? with
      | none =>
        have hmissing : payload = .missing := by
          rw [← Option.getD_none (a := Payload.missing), ← hlookup, ← List.getD_eq_getElem?_getD]
        rw [hmissing] at hown
        cases hown
      | some found =>
        have hfound : payload = found := by
          rw [← Option.getD_some (a := found) (b := Payload.missing), ← hlookup,
            ← List.getD_eq_getElem?_getD]
        rw [hfound]
        exact hlookup
    refine ⟨(hw.content hat hown).keep hentry.keeping, fun hid => ?_⟩
    rw [hlifetime]
    exact (h _ hid nofun).due hown

variable (W) in
/-- What holds after a receive. -/
def GotFor (completed : Finset String) : Received → World → Prop
  | .message _ payload => W.Offered completed payload
  | _ => fun w => W.Spared completed none (lifetime w.history)

theorem lasting_gotFor (r : Received) : W.Lasting (W.GotFor completed r) := by
  cases r with
  | message cursor payload => exact lasting_offered
  | _ => exact lasting_spared

theorem sat_receive_offered (hs : W.Spared completed none (lifetime s.history)) :
    W.receive.Sat W.ledgerContract (W.GotFor completed) s := by
  apply Prog.sat_atomic lasting_spared.stable (fun r => (lasting_gotFor r).stable) hs
  intro i w hw h _
  have hmute : ∀ w', Mute w w' → W.Ledger w' ∧ True ∧
      W.Spared completed none (lifetime w'.history) := by
    intro w' hmute
    obtain ⟨hw', h'⟩ := hmute.keeps lasting_spared hw h
    exact ⟨hw', trivial, h'⟩
  simp only [received]
  cases i.wake with
  | message topic partition =>
    obtain ⟨hw', h'⟩ := h.offered hw
    exact ⟨hw', trivial, h'⟩
  | partitionEof partition => exact hmute w .same
  | receiveError error => exact hmute _ (mute_failed w _)
  | changed => exact hmute _ (mute_changed w)
  | slept => exact hmute _ (mute_changed w)

/-- A record that is not attempted. -/
theorem upkeep_skip (hc : c.job = none) (hw : W.Ledger s) (hs : W.Offered c.completed payload s)
    (hskip : ∀ record, W.own payload = some record → record.deliveryId ∈ c.completed) :
    W.Upkeep ((commitCursor cursor).tryThen fun _ => return .again c) s := by
  apply upkeep_try hw (sat_mute (always_commitCursor cursor) lasting_offered hs)
  intro _ w hw h
  apply upkeep_again
  rw [Station, hc]
  intro id hid _
  apply h.others id hid
  intro hwork
  obtain ⟨record, hown, rfl⟩ := Option.map_eq_some_iff.mp hwork
  exact hid (hskip record hown)

theorem upkeep_accept (hs : W.Offered c.completed payload s) (hown : W.own payload = some record)
    (hfresh : record.deliveryId ∉ c.completed) : W.Upkeep (W.accept c cursor record) s := by
  unfold accept
  cases hbody : Base64.decode record.bodyBase64.toList with
  | none => exact upkeep_done _ s
  | some body =>
    apply upkeep_again
    obtain ⟨hgenuine, hdue⟩ := hs.first record hown
    have hothers := hs.others
    rw [hown] at hothers
    exact ⟨⟨hothers, hgenuine, hbody⟩, hdue hfresh⟩

/-! ### The loops -/

theorem upkeep_subscribe {topics : List Topic} {what : String} {next : Control} (hw : W.Ledger s)
    (hs : W.Spared next.completed none (lifetime s.history)) (hnext : next.job = none) :
    W.Upkeep ((subscribe topics what).tryThen fun _ => return .again next) s := by
  apply upkeep_try hw (sat_mute (always_subscribe topics what) lasting_spared hs)
  intro _ w hw h
  apply upkeep_again
  rw [Station, hnext]
  exact h

theorem own_none_of_other {record : DurableRecord}
    (hmessage : fromMessage W.maxRecordBytes payload = .ok record)
    (hother : record.destinationId ≠ W.endpoint.id) : W.own payload = none := by
  simp only [own, hmessage, hother, if_false]

theorem upkeep_recoverRetries {eofPartitions : Finset ℕ} {recovered : ℕ} (hw : W.Ledger s)
    (hs : W.Spared completed none (lifetime s.history)) :
    W.Upkeep (W.recoverRetries completed eofPartitions recovered) s := by
  apply Prog.sat_bind hw
  apply Prog.sat_mono (sat_mute always_borrow lasting_spared hs)
  intro value w hw h
  split_ifs
  · exact upkeep_subscribe hw h rfl
  · apply Prog.sat_bind hw
    apply Prog.sat_mono (sat_receive_offered h)
    intro r w hw h
    match r with
    | .changed true => exact upkeep_subscribe hw h rfl
    | .changed false =>
      apply Prog.sat_bind hw
      apply Prog.sat_mono (sat_mute always_borrow lasting_spared h)
      intro value w hw h
      split_ifs
      · exact upkeep_subscribe hw h rfl
      · exact upkeep_again h
    | .receiveError error => exact upkeep_done _ w
    | .partitionEof partition =>
      apply upkeep_try hw (sat_mute always_assignment lasting_spared h)
      intro assigned w hw h
      split_ifs
      · exact upkeep_subscribe hw h rfl
      · exact upkeep_again h
    | .message cursor payload =>
      simp only
      cases hmessage : fromMessage W.maxRecordBytes payload with
      | error reason => exact upkeep_done _ w
      | ok record =>
        simp only
        split_ifs with hother hlimit hdone
        · refine upkeep_skip rfl hw h (fun record' hown => ?_)
          rw [own_none_of_other hmessage hother] at hown
          cases hown
        · exact upkeep_done _ w
        · have hown := own_of_fromMessage hmessage (not_not.mp hother)
          refine upkeep_skip rfl hw h (fun record' hown' => ?_)
          rw [hown] at hown'
          cases hown'
          exact hdone
        · exact upkeep_accept h (own_of_fromMessage hmessage (not_not.mp hother)) hdone

theorem upkeep_deliver (hw : W.Ledger s) (hs : W.Spared completed none (lifetime s.history)) :
    W.Upkeep (W.deliver completed) s := by
  apply Prog.sat_bind hw
  apply Prog.sat_mono (sat_mute always_borrow lasting_spared hs)
  intro value w hw h
  split_ifs
  · exact upkeep_done _ w
  · apply Prog.sat_bind hw
    apply Prog.sat_mono (sat_receive_offered h)
    intro r w hw h
    match r with
    | .changed true => exact upkeep_done _ w
    | .changed false =>
      apply Prog.sat_bind hw
      apply Prog.sat_mono (sat_mute always_borrow lasting_spared h)
      intro value w hw h
      split_ifs
      · exact upkeep_done _ w
      · exact upkeep_again h
    | .receiveError error => exact upkeep_again h
    | .partitionEof partition => exact upkeep_again h
    | .message cursor payload =>
      simp only
      cases hmessage : fromMessage W.maxRecordBytes payload with
      | error reason => exact upkeep_done _ w
      | ok record =>
        simp only
        split_ifs with hskip
        · refine upkeep_skip rfl hw h (fun record' hown => ?_)
          obtain ⟨hmessage', hdestination⟩ := own_eq_some hown
          rw [hmessage] at hmessage'
          cases hmessage'
          exact hskip.resolve_left (not_not.mpr hdestination)
        · obtain ⟨hdestination, hfresh⟩ := not_or.mp hskip
          exact upkeep_accept h (own_of_fromMessage hmessage (not_not.mp hdestination)) hfresh

theorem upkeep_run (hlimit : W.endpoint.maxAttempts ≤ u32Max) (hw : W.Ledger s)
    (hs : W.Station c s) : W.Upkeep (W.run c) s := by
  obtain ⟨phase, completed, job⟩ := c
  cases job with
  | some job => exact upkeep_process hlimit hw hs
  | none =>
    cases phase with
    | starting => exact upkeep_subscribe hw hs rfl
    | recovering eofPartitions recovered => exact upkeep_recoverRetries hw hs
    | delivering => exact upkeep_deliver hw hs

theorem station_boot (W : DurableWorker) (w : World) : W.Station ⟨.starting, ∅, none⟩ (boot w) := by
  have hlifetime : lifetime (boot w).history = [] := lifetime_started w.history
  rw [Station, hlifetime]
  intro id _ _
  refine ⟨rfl, rfl, ?_⟩
  rintro ⟨e, hmem, _⟩
  cases hmem

theorem upholds_ledger (hlimit : W.endpoint.maxAttempts ≤ u32Max) :
    W.system.Upholds W.Ledger W.Station (fun _ _ => True) where
  environment _ _ _ hw h := ledger_outside hw h
  boot w hw := ⟨ledger_boot hw, station_boot W w⟩
  pass _ _ hw hs := upkeep_run hlimit hw hs

theorem Reachable.ledger {n : Node World Input Control (Except String Unit)} (h : W.Reachable n)
    (hlimit : W.endpoint.maxAttempts ≤ u32Max) : W.Ledger n.durable := by
  obtain ⟨moves, hrun⟩ := h
  exact System.inv_run (upholds_ledger hlimit) (ledger_new W) hrun

/-! ### Whole runs -/

variable {n : Node World Input Control (Except String Unit)}

theorem Persisted.unique {command command' : DurableRecord} (hw : W.Inv w)
    (h : W.Persisted w id command) (h' : W.Persisted w id command') : command = command' := by
  obtain ⟨offset, hcommanded, hat, _⟩ := h
  obtain ⟨offset', hcommanded', hat', _⟩ := h'
  rw [hw.unique hcommanded' hcommanded] at hat'
  have hpayload := hat.unique hat'
  simp only [DurableRecord.payload, Payload.bytes.injEq, Except.ok.injEq] at hpayload
  exact hpayload.2

theorem Ledger.inOrder (hw : W.Ledger w) {before : List Event} (hbefore : before <+: w.history)
    (id : String) : W.InOrder id (lifetime before) := by
  apply inOrder_lifetime
  obtain ⟨after, happend⟩ := hbefore
  intro earlier e later heq
  apply hw.lively earlier e (later ++ after)
  rw [← happend, heq, List.append_assoc, List.cons_append]

theorem InOrder.pairwise (h : W.InOrder id l) : (attemptNumbers id l).Pairwise (· < ·) := by
  rcases h.numbers with hnone | ⟨record, _, hnumbers, _⟩
  · rw [hnone]
    exact List.Pairwise.nil
  · rw [hnumbers]
    exact List.pairwise_lt_range'

theorem InOrder.bounded (h : W.InOrder id l) (hattempted : attemptNumbers id l ≠ []) :
    ∃ record, W.firstReceipt id l = some record ∧
      (attemptNumbers id l).head? = some record.attempt ∧
      (attemptNumbers id l).length ≤ max 1 (W.endpoint.maxAttempts - record.attempt + 1) := by
  rcases h.numbers with hnone | ⟨record, hfirst, hnumbers, hbound⟩
  · exact absurd hnone hattempted
  · refine ⟨record, hfirst, ?_, hbound⟩
    have hpositive : (attemptNumbers id l).length ≠ 0 := by
      rwa [Ne, List.length_eq_zero_iff]
    rw [hnumbers, List.head?_range', if_neg hpositive]

/-- All records of a command agree with the one that was persisted but for what an attempt changes,
and every attempt sends the body and the key of that one. In every process a command comes to an end
at most once and is not attempted again then, and its attempts count up from the number of the first
record that the process received for it, as far as the attempts that are left. -/
theorem attempts_identical_and_bounded (h : W.Reachable n)
    (hlimit : W.endpoint.maxAttempts ≤ u32Max) (id : String) :
    (∀ command command', W.Persisted n.durable id command → W.Persisted n.durable id command' →
      command = command') ∧
    (∀ key offset payload record, n.durable.broker.At key offset payload →
      W.own payload = some record → record.deliveryId = id →
      ∃ command, W.Persisted n.durable id command ∧ record.SameContent command) ∧
    (∀ cursor request, .attempted cursor id request ∈ n.durable.history →
      ∃ command, W.Persisted n.durable id command ∧
        request.messageId = command.originalMessageId ∧
        Base64.decode command.bodyBase64.toList = some request.body ∧
        ∀ body, command.bodyBase64.toList = Base64.encode body → request.body = body) ∧
    ∀ before, before <+: n.durable.history →
      ((lifetime before).filter (fun e => e.terminalId = some id)).length ≤ 1 ∧
      (∀ earlier e later, lifetime before = earlier ++ e :: later → e.terminalId = some id →
        attemptNumbers id later = []) ∧
      (attemptNumbers id (lifetime before)).Pairwise (· < ·) ∧
      (attemptNumbers id (lifetime before) ≠ [] →
        ∃ record, W.firstReceipt id (lifetime before) = some record ∧
          (attemptNumbers id (lifetime before)).head? = some record.attempt ∧
          (attemptNumbers id (lifetime before)).length ≤
            max 1 (W.endpoint.maxAttempts - record.attempt + 1)) := by
  have hledger := h.ledger hlimit
  refine ⟨?_, ?_, ?_, ?_⟩
  · intro command command' hcommand hcommand'
    exact hcommand.unique h.inv hcommand'
  · rintro key offset payload record hat hown rfl
    exact hledger.content hat hown
  · intro cursor request hmem
    obtain ⟨command, hpersisted, hkey, hbody⟩ := hledger.carried hmem
    refine ⟨command, hpersisted, hkey, hbody, ?_⟩
    intro body hencoded
    rw [hencoded, Base64.decode_encode] at hbody
    exact (Option.some.inj hbody).symm
  · intro before hbefore
    have horder := hledger.inOrder hbefore id
    exact ⟨horder.once, horder.last, horder.pairwise, horder.bounded⟩

theorem attempts_identical_and_bounded_after_crash :
    let W := ordersWorker 1024 8
    let w := (W.final crashAfterRetry).durable
    attemptNumbers "d-1" (lifetime w.history) = [1] ∧
      (∃ command, W.Persisted w "d-1" command ∧ "m-1" = command.originalMessageId ∧
        Base64.decode command.bodyBase64.toList = some [123, 125]) ∧
      ∃ record, W.firstReceipt "d-1" (lifetime w.history) = some record ∧
        [1].length ≤ max 1 (3 - record.attempt + 1) := by
  obtain ⟨hreachable, hhistory⟩ := traces_crashAfterRetry.reachable
  obtain ⟨_, _, hcarried, horder⟩ :=
    attempts_identical_and_bounded hreachable (by decide) "d-1"
  have hnumbers : attemptNumbers "d-1"
      (lifetime ((ordersWorker 1024 8).final crashAfterRetry).durable.history) = [1] := by
    rw [hhistory]
    decide +kernel
  obtain ⟨_, _, _, hbounded⟩ := horder _ (List.prefix_refl _)
  rw [hnumbers] at hbounded
  obtain ⟨record, hfirst, _, hle⟩ := hbounded (by simp)
  obtain ⟨command, hpersisted, hkey, hbody, _⟩ := hcarried ⟨.delivery, 0, 0⟩
    ⟨[123, 125], "m-1", 1⟩ (by rw [hhistory]; decide +kernel)
  exact ⟨hnumbers, ⟨command, hpersisted, hkey, hbody⟩, record, hfirst, hle⟩

end KafkaEdgeRouter.Webhook.DurableWorker
