import KafkaEdgeRouter.SizeLimits
import KafkaEdgeRouter.WorkerLifetime

/-!
# How durable records grow

A failed attempt changes the attempt number, the time of the next attempt, the error class and the
state of a record, and with them the length of its JSON text. The size limit is checked anew every
time the record is published, so a command is safe exactly when the largest record that can come of
it is within the limit.
-/

namespace KafkaEdgeRouter.Webhook

/-! ### What a failed attempt does to the size -/

def FailureClass.size (failure : FailureClass) : ℕ := Json.size (Json.string failure.name)

/-- The bytes of the four values that a failed attempt changes. -/
def DurableRecord.varying (record : DurableRecord) : ℕ :=
  Json.size (Json.natural record.attempt) + Json.size (Json.natural record.nextAttemptAtMs) +
    Json.size (Json.option (fun c => Json.string c.name) record.lastErrorClass) +
    Json.size (Json.string record.state.name)

theorem DurableRecord.size_with (record : DurableRecord) (attempt nextAttemptAtMs : ℕ)
    (lastErrorClass : Option FailureClass) (state : RecordState) :
    let record' : DurableRecord := { record with attempt, nextAttemptAtMs, lastErrorClass, state }
    record'.size + record.varying = record.size + record'.varying := by
  obtain ⟨version, delivery, destination, message, body, attempt', next', class', topic, partition,
    offset, trace, state'⟩ := record
  cases trace with
  | none =>
    simp only [DurableRecord.size, DurableRecord.toJson, DurableRecord.varying, Json.object,
      Json.members, Option.toList_none, List.map_nil, List.append_nil, List.cons_append,
      List.nil_append, Json.size_append, Json.size_cons, Json.size_nil]
    omega
  | some context =>
    simp only [DurableRecord.size, DurableRecord.toJson, DurableRecord.varying, Json.object,
      Json.members, Option.toList_some, List.map_cons, List.map_nil, List.cons_append,
      List.nil_append, Json.size_append, Json.size_cons, Json.size_nil]
    omega

theorem FailureClass.size_le (failure : FailureClass) : failure.size ≤ 16 := by
  cases failure <;> decide +kernel

theorem size_time_le {time : ℕ} (h : time ≤ u64Max) : Json.size (Json.natural time) ≤ 20 :=
  Nat.le_trans (Json.size_natural_mono h) (by decide +kernel)

theorem DurableRecord.varying_retry (record : DurableRecord) {failure : FailureClass}
    (hfailure : record.lastErrorClass = some failure) (hstate : record.state = .retry) :
    record.varying = Json.size (Json.natural record.attempt) +
      Json.size (Json.natural record.nextAttemptAtMs) + failure.size + 7 := by
  have hname : Json.size (Json.string RecordState.retry.name) = 7 := by decide +kernel
  rw [varying, hfailure, hstate, hname]
  rfl

theorem DurableRecord.varying_deadLettered (record : DurableRecord) (failure : FailureClass) :
    (record.deadLettered failure).varying = Json.size (Json.natural record.attempt) +
      Json.size (Json.natural record.nextAttemptAtMs) + failure.size + 13 := by
  have hname : Json.size (Json.string RecordState.deadLetter.name) = 13 := by decide +kernel
  show _ + _ + _ + Json.size (Json.string RecordState.deadLetter.name) = _
  rw [hname]
  rfl

theorem DurableRecord.varying_command (record : DurableRecord) (hattempt : record.attempt = 1)
    (hclass : record.lastErrorClass = none) (hstate : record.state = .delivery) :
    record.varying = Json.size (Json.natural record.nextAttemptAtMs) + 15 := by
  have hone : Json.size (Json.natural 1) = 1 := by decide +kernel
  have hnull : Json.size "null".toList = 4 := by decide +kernel
  have hname : Json.size (Json.string RecordState.delivery.name) = 10 := by decide +kernel
  rw [varying, hattempt, hclass, hstate, hone, hname, Json.option, hnull]
  omega

/-! ### What `process` hands on -/

namespace DurableEndpoint

variable (endpoint : DurableEndpoint)

/-- The records that `process` hands to `publish_record` over a sequence of attempts, each with
what came of it and the time on the clock afterwards. -/
def handed : DurableRecord → List (Transport × ℕ) → List (Topic × DurableRecord)
  | _, [] => []
  | record, (transport, now) :: attempts =>
    match attemptOutcome transport with
    | .delivered _ => []
    | .failed failure =>
      if endpoint.retries record failure then
        let next := endpoint.retried record failure (min now u64Max)
        (.retry, next) :: handed next attempts
      else [(.deadLetter, record.deadLettered failure)]

/-- A record that the attempts of a command may have led to. -/
structure Offspring (command record : DurableRecord) : Prop where
  size : record.size + command.varying = command.size + record.varying
  attempt : record.attempt ≤ endpoint.maxAttempts
  time : record.nextAttemptAtMs ≤ u64Max

variable {endpoint} {command record : DurableRecord}

theorem Offspring.size_deadLettered (h : endpoint.Offspring command record)
    (failure : FailureClass) :
    (record.deadLettered failure).size + command.varying =
      command.size + (record.deadLettered failure).varying := by
  have hgrowth := record.size_with record.attempt record.nextAttemptAtMs (some failure) .deadLetter
  have hsize := h.size
  simp only [DurableRecord.deadLettered] at hgrowth ⊢
  omega

theorem Offspring.retried (h : endpoint.Offspring command record) {failure : FailureClass}
    (hretries : endpoint.retries record failure = true) (now : ℕ) :
    endpoint.Offspring command (endpoint.retried record failure now) := by
  simp only [retries, Bool.and_eq_true, decide_eq_true_eq] at hretries
  constructor
  · have hgrowth := record.size_with (endpoint.retried record failure now).attempt
      (endpoint.retried record failure now).nextAttemptAtMs (some failure) .retry
    have hsize := h.size
    simp only [DurableEndpoint.retried] at hgrowth ⊢
    omega
  · exact Nat.le_trans (Nat.min_le_left _ _) hretries.2
  · exact Nat.min_le_right _ _

/-- Nothing that is handed on is larger than a dead letter of the last attempt. -/
theorem Offspring.handed_le (h : endpoint.Offspring command record)
    (attempts : List (Transport × ℕ)) {topic : Topic} {record' : DurableRecord}
    (hmem : (topic, record') ∈ endpoint.handed record attempts) :
    record'.size + command.varying ≤
      command.size + Json.size (Json.natural endpoint.maxAttempts) + 49 := by
  induction attempts generalizing record with
  | nil => cases hmem
  | cons attempt attempts ih =>
    obtain ⟨transport, now⟩ := attempt
    simp only [handed] at hmem
    split at hmem
    · cases hmem
    · rename_i failure _
      have hclass := failure.size_le
      split_ifs at hmem with hretries
      · have hnext := h.retried hretries (min now u64Max)
        rcases List.mem_cons.mp hmem with heq | hmem
        · cases heq
          have hvarying := (endpoint.retried record failure (min now u64Max)).varying_retry rfl rfl
          have hattempt := Json.size_natural_mono hnext.attempt
          have htime := size_time_le hnext.time
          have hsize := hnext.size
          omega
        · exact ih hnext hmem
      · cases List.mem_singleton.mp hmem
        have hvarying := record.varying_deadLettered failure
        have hattempt := Json.size_natural_mono h.attempt
        have htime := size_time_le h.time
        have hsize := h.size_deadLettered failure
        omega

/-- Retryable failures at the end of time until the attempts are used up, then a permanent one. -/
def exhausting (retries : ℕ) : List (Transport × ℕ) :=
  List.replicate retries (.response 503, u64Max) ++ [(.response 404, 0)]

theorem Offspring.handed_exhausting (h : endpoint.Offspring command record)
    (hlimit : endpoint.maxAttempts ≤ u32Max) (retries : ℕ)
    (hattempt : record.attempt + retries = endpoint.maxAttempts)
    (htime : retries = 0 → record.nextAttemptAtMs = u64Max) :
    ∃ record', (.deadLetter, record') ∈ endpoint.handed record (exhausting retries) ∧
      record'.size + command.varying =
        command.size + Json.size (Json.natural endpoint.maxAttempts) + 49 := by
  induction retries generalizing record with
  | zero =>
    refine ⟨record.deadLettered .permanentHttp, List.mem_singleton_self _, ?_⟩
    have hsize := h.size_deadLettered .permanentHttp
    have hvarying := record.varying_deadLettered .permanentHttp
    have hclass : FailureClass.permanentHttp.size = 16 := by decide +kernel
    have hend : Json.size (Json.natural u64Max) = 20 := by decide +kernel
    have hlast : record.attempt = endpoint.maxAttempts := hattempt
    rw [htime rfl, hend, hclass, hlast] at hvarying
    omega
  | succ retries ih =>
    have hretries : endpoint.retries record .http5xx = true := by
      simp only [DurableEndpoint.retries, shouldRetry, Bool.true_and, decide_eq_true_eq]
      omega
    have hnext := h.retried hretries (min u64Max u64Max)
    obtain ⟨record', hmem, hsize⟩ := ih hnext
      (by simp only [DurableEndpoint.retried]; omega)
      (fun _ => by simp only [DurableEndpoint.retried]; omega)
    refine ⟨record', ?_, hsize⟩
    have houtcome : attemptOutcome (.response 503) = .failed .http5xx := rfl
    simp only [exhausting, List.replicate_succ, List.cons_append, handed, houtcome, hretries,
      if_true]
    exact List.mem_cons_of_mem _ hmem

end DurableEndpoint

namespace DurableWorker

variable {W : DurableWorker} {command : DurableRecord}

/-- The largest record that can come of the command is within the limit. -/
def Fits (W : DurableWorker) (command : DurableRecord) : Prop :=
  if W.endpoint.maxAttempts ≤ 1 then command.size + 15 ≤ W.maxRecordBytes
  else command.size + Json.size (Json.natural W.endpoint.maxAttempts) + 34 ≤
    W.maxRecordBytes + Json.size (Json.natural command.nextAttemptAtMs)

theorem IsCommand.varying (h : W.IsCommand command) :
    command.varying = Json.size (Json.natural command.nextAttemptAtMs) + 15 :=
  command.varying_command h.2.2.1 h.2.2.2.2.1 h.2.2.2.2.2.1

theorem size_commandDeadLettered (h : W.IsCommand command) (failure : FailureClass) :
    (command.deadLettered failure).size + 1 = command.size + failure.size := by
  have hgrowth := command.size_with command.attempt command.nextAttemptAtMs (some failure)
    .deadLetter
  have hcommand := h.varying
  have hvarying := command.varying_deadLettered failure
  have hone : Json.size (Json.natural 1) = 1 := by decide +kernel
  rw [h.2.2.1, hone] at hvarying
  simp only [DurableRecord.deadLettered] at hgrowth hvarying ⊢
  omega

/-- Every record that `process` derives from an accepted command passes the size check, whatever
the attempts lead to, exactly when the largest one does. -/
theorem accepted_command_movable_iff (hcommand : W.IsCommand command)
    (hlimit : W.endpoint.maxAttempts ≤ u32Max) :
    (∀ attempts topic record, (topic, record) ∈ W.endpoint.handed command attempts →
      record.size ≤ W.maxRecordBytes) ↔ W.Fits command := by
  have hvarying := hcommand.varying
  have hattempt : command.attempt = 1 := hcommand.2.2.1
  unfold Fits
  split_ifs with honce
  · have hretries : ∀ failure, W.endpoint.retries command failure = false := by
      intro failure
      simp only [DurableEndpoint.retries, Bool.and_eq_false_iff, decide_eq_false_iff_not]
      omega
    constructor
    · intro hall
      have hmem := hall [(.response 404, 0)] .deadLetter (command.deadLettered .permanentHttp)
        (List.mem_singleton_self _)
      have hsize := size_commandDeadLettered hcommand .permanentHttp
      have hclass : FailureClass.permanentHttp.size = 16 := by decide +kernel
      omega
    · intro hfits attempts topic record hmem
      cases attempts with
      | nil => cases hmem
      | cons attempt attempts =>
        simp only [DurableEndpoint.handed] at hmem
        split at hmem
        · cases hmem
        · rename_i failure _
          rw [hretries failure, if_neg (by simp)] at hmem
          cases List.mem_singleton.mp hmem
          have hsize := size_commandDeadLettered hcommand failure
          have hclass := failure.size_le
          omega
  · have hoffspring : W.endpoint.Offspring command command :=
      ⟨rfl, by omega, hcommand.2.2.2.1⟩
    constructor
    · intro hall
      obtain ⟨record, hmem, hsize⟩ := hoffspring.handed_exhausting hlimit
        (W.endpoint.maxAttempts - 1) (by omega) (by omega)
      have hle := hall _ _ _ hmem
      omega
    · intro hfits attempts topic record hmem
      have hle := hoffspring.handed_le attempts hmem
      omega

end DurableWorker

/-! ### The worker on such a record -/

/-- Every call of Kafka succeeds and no wait is interrupted. The clock is read first for the wait
and, after the attempt, for the schedule. -/
def attemptInputs (result : Transport) (before after : ℕ) (access : ℕ) : Input :=
  { now := if access = 0 then before else after, transport := result, wake := .slept }

def Event.isFollowUp : Event → Bool
  | .acknowledged _ _ | .committed _ => true
  | _ => false

namespace DurableWorker

variable {W : DurableWorker} {result : Transport} {before after : ℕ}

def added (W : DurableWorker) (publications : List (Topic × DurableRecord)) (key : Topic × ℕ) :
    List Payload :=
  publications.filterMap fun publication =>
    if (publication.1, W.cluster.partitionOf publication.2.destinationId) = key then
      some publication.2.payload
    else none

def tooLarge (W : DurableWorker) (record : DurableRecord) : String :=
  let size := record.size
  let limit := W.maxRecordBytes
  s!"serialized durable webhook record is {size} bytes, limit is {limit}"

theorem publication_done {record : DurableRecord} {maxRecordBytes : ℕ}
    (h : record.size ≤ maxRecordBytes) (topic : String) :
    record.publication topic maxRecordBytes .done = (.ok (), true) := by
  unfold DurableRecord.publication
  dsimp only
  rw [if_neg (Nat.not_lt.mpr h)]

theorem publication_refused {record : DurableRecord} (h : W.maxRecordBytes < record.size)
    (topic : String) (reply : Reply) :
    record.publication topic W.maxRecordBytes reply = (.error (W.tooLarge record), false) := by
  unfold DurableRecord.publication tooLarge
  dsimp only
  rw [if_pos h]

theorem run_sleepUntil (time : ℕ) {β : Type} (next : Except String Unit → WorkerProg β)
    (w : World) : (sleepUntil time >>= next).run (attemptInputs result before after) w =
      (next (.ok ())).run (fun _ => attemptInputs result before after 1) w := by
  by_cases hwait : remainingMs time (min before u64Max) = 0
  · simp [sleepUntil, clock, Prog.await, bind, Prog.bind, Prog.run, attemptInputs, hwait, pure]
  · simp [sleepUntil, clock, interrupted, Prog.await, bind, Prog.bind, Prog.run, attemptInputs,
      hwait, pure]

theorem run_sendAttempt (job : Job) (i : Input) (w : World) :
    (sendAttempt job).run (fun _ => i) w =
      some (attemptOutcome i.transport, (w.log (.attempted job.cursor job.record.deliveryId
        ⟨job.body, job.record.originalMessageId, job.record.attempt⟩)).log
          (.answered job.record.deliveryId (attemptOutcome i.transport))) := rfl

theorem run_commitInput {i : Input} (hi : i.reply = .done) (job : Job) (w : World) :
    ∃ rest w', (commitInput job).run (fun _ => i) w = some (.ok (), w') ∧
      w'.broker.log = w.broker.log ∧ w'.history = w.history ++ rest ∧
      ∀ e ∈ rest, e.isFollowUp = true := by
  unfold commitInput
  split_ifs
  · exact ⟨[], w, rfl, rfl, (List.append_nil _).symm, by simp⟩
  · refine ⟨[.committed job.cursor], (w.commit job.cursor).log (.committed job.cursor), ?_, rfl,
      rfl, ?_⟩
    · simp only [commitCursor, Prog.await, Prog.run, if_true, hi]
    · simp [Event.isFollowUp]

theorem run_publishRecord {i : Input} (hi : i.reply = .done) {record : DurableRecord}
    (hsize : record.size ≤ W.maxRecordBytes) (topic : Topic) (w : World) :
    ∃ w', (W.publishRecord topic record).run (fun _ => i) w = some (.ok (), w') ∧
      (∀ key, w'.broker.log key = w.broker.log key ++ W.added [(topic, record)] key) ∧
      w'.history = w.history ++ [.acknowledged topic record.deliveryId] := by
  refine ⟨(w.append (topic, W.cluster.partitionOf record.destinationId) record.payload).log
    (.acknowledged topic record.deliveryId), ?_, fun key => ?_, rfl⟩
  · simp only [publishRecord, Prog.await, Prog.run, if_true, published, hi, publication_done hsize]
  · by_cases hkey : key = (topic, W.cluster.partitionOf record.destinationId)
    · rw [hkey]
      simp [World.log, World.append, Broker.append, added]
    · simp [World.log, World.append, Broker.append, added, Function.update_of_ne hkey,
        Ne.symm hkey]

theorem run_publishRecord_refused {record : DurableRecord} (hsize : W.maxRecordBytes < record.size)
    (topic : Topic) (i : Input) (w : World) :
    (W.publishRecord topic record).run (fun _ => i) w =
      some (.error (W.tooLarge record), w.log (.failed .publish)) := by
  simp only [publishRecord, Prog.await, Prog.run, if_true, published, publication_refused hsize,
    Bool.false_eq_true, if_false]

theorem run_finish (c : Control) (job : Job) (i : Input) (w : World) :
    ∃ next : Next Control (Except String Unit), (W.finish c job).run (fun _ => i) w =
      some (next, w) ∧ ∀ c', next = .again c' → c'.job = none := by
  unfold finish
  generalize rememberCompleted c.completed job.record.deliveryId W.maxRecoveryRecords = remembered
  cases remembered with
  | error e =>
    refine ⟨.done (.error e), rfl, ?_⟩
    intro c' hc'
    cases hc'
  | ok completed =>
    refine ⟨.again ⟨c.phase, completed, none⟩, rfl, ?_⟩
    intro c' hc'
    cases hc'
    rfl

/-- The events of a pass: the attempt, its answer, and what is written on account of it. -/
def passEvents (job : Job) (outcome : AttemptOutcome) (rest : List Event) : List Event :=
  .attempted job.cursor job.record.deliveryId
    ⟨job.body, job.record.originalMessageId, job.record.attempt⟩ ::
    .answered job.record.deliveryId outcome :: rest

theorem run_process (before : ℕ) (c : Control) (job : Job) (w : World)
    (hfits : ∀ topic record, (topic, record) ∈ W.endpoint.handed job.record [(result, after)] →
      record.size ≤ W.maxRecordBytes) :
    ∃ next w' rest, (W.process c job).run (attemptInputs result before after) w =
        some (next, w') ∧
      (∀ key, w'.broker.log key =
        w.broker.log key ++ W.added (W.endpoint.handed job.record [(result, after)]) key) ∧
      w'.history = w.history ++ passEvents job (attemptOutcome result) rest ∧
      (∀ e ∈ rest, e.isFollowUp = true) ∧
      ((∃ failure, attemptOutcome result = .failed failure ∧
          W.endpoint.retries job.record failure = true ∧
          next = .again ⟨c.phase, c.completed, some { job with
            record := W.endpoint.retried job.record failure (min after u64Max)
            inputCommitted := true }⟩) ∨
        (∀ failure, attemptOutcome result = .failed failure →
          W.endpoint.retries job.record failure = false) ∧
        ∀ c', next = .again c' → c'.job = none) := by
  unfold process Prog.tryThen
  rw [run_sleepUntil]
  have htransport : (attemptInputs result before after 1).transport = result := rfl
  have hreply : (attemptInputs result before after 1).reply = .done := rfl
  have hclock : ∀ w, clock.run (fun _ => attemptInputs result before after 1) w =
      some (min after u64Max, w) := fun _ => rfl
  generalize attemptInputs result before after 1 = i at htransport hreply hclock ⊢
  simp only [Prog.run_bind_same, run_sendAttempt, Option.bind_some, htransport]
  generalize hw : (w.log (.attempted job.cursor job.record.deliveryId
    ⟨job.body, job.record.originalMessageId, job.record.attempt⟩)).log
      (.answered job.record.deliveryId (attemptOutcome result)) = w₀
  have hhistory₀ : w₀.history = w.history ++ passEvents job (attemptOutcome result) [] := by
    rw [← hw]
    simp [World.log, passEvents]
  have hlog₀ : w₀.broker.log = w.broker.log := by
    rw [← hw]
    rfl
  cases houtcome : attemptOutcome result with
  | delivered status =>
    simp only [Prog.run_bind_same]
    obtain ⟨rest, w₁, hcommit, hlog₁, hhistory₁, hrest⟩ := run_commitInput hreply job w₀
    obtain ⟨next, hfinish, hnext⟩ := run_finish (W := W) c job i w₁
    refine ⟨next, w₁, rest, ?_, fun key => ?_, ?_, hrest,
      Or.inr ⟨(fun _ h => by cases h), hnext⟩⟩
    · rw [hcommit, Option.bind_some]
      exact hfinish
    · rw [hlog₁, hlog₀, DurableEndpoint.handed, houtcome]
      simp [added]
    · rw [hhistory₁, hhistory₀, houtcome]
      simp [passEvents]
  | failed failure =>
    simp only [DurableEndpoint.handed, houtcome] at hfits ⊢
    cases hretries : W.endpoint.retries job.record failure with
    | true =>
      have hsize := hfits .retry (W.endpoint.retried job.record failure (min after u64Max))
        (by rw [hretries, if_pos rfl]; exact List.mem_cons_self)
      obtain ⟨w₁, hpublish, hlog₁, hhistory₁⟩ := run_publishRecord hreply hsize .retry w₀
      obtain ⟨rest, w₂, hcommit, hlog₂, hhistory₂, hrest⟩ := run_commitInput hreply job w₁
      refine ⟨_, w₂, .acknowledged .retry job.record.deliveryId :: rest, ?_, fun key => ?_, ?_, ?_,
        Or.inl ⟨failure, rfl, hretries, rfl⟩⟩
      · simp only [if_true, Prog.run_bind_same, hclock, Option.bind_some, hpublish, hcommit]
        rfl
      · rw [hlog₂, hlog₁, hlog₀]
        simp only [if_true]
      · rw [hhistory₂, hhistory₁, hhistory₀, houtcome]
        simp [passEvents, DurableEndpoint.retried]
      · intro e he
        rcases List.mem_cons.mp he with rfl | he
        · rfl
        · exact hrest e he
    | false =>
      have hsize := hfits .deadLetter (job.record.deadLettered failure)
        (by rw [hretries, if_neg Bool.false_ne_true]; exact List.mem_cons_self)
      obtain ⟨w₁, hpublish, hlog₁, hhistory₁⟩ := run_publishRecord hreply hsize .deadLetter w₀
      obtain ⟨rest, w₂, hcommit, hlog₂, hhistory₂, hrest⟩ := run_commitInput hreply job w₁
      obtain ⟨next, hfinish, hnext⟩ :=
        run_finish (W := W) c { job with record := job.record.deadLettered failure } i w₂
      refine ⟨next, w₂, .acknowledged .deadLetter job.record.deliveryId :: rest, ?_, fun key => ?_,
        ?_, ?_, Or.inr ⟨?_, hnext⟩⟩
      · simp only [Bool.false_eq_true, if_false, Prog.run_bind_same, hpublish, Option.bind_some,
          hcommit]
        exact hfinish
      · rw [hlog₂, hlog₁, hlog₀]
        simp only [Bool.false_eq_true, if_false]
      · rw [hhistory₂, hhistory₁, hhistory₀, houtcome]
        simp [passEvents, DurableRecord.deadLettered]
      · intro e he
        rcases List.mem_cons.mp he with rfl | he
        · rfl
        · exact hrest e he
      · intro failure' hfailure'
        cases hfailure'
        exact hretries

theorem run_process_refused (before : ℕ) (c : Control) (job : Job) (w : World) {topic : Topic}
    {record : DurableRecord}
    (hhanded : (topic, record) ∈ W.endpoint.handed job.record [(result, after)])
    (hsize : W.maxRecordBytes < record.size) :
    ∃ w', (W.process c job).run (attemptInputs result before after) w =
        some (.done (.error (W.tooLarge record)), w') ∧ w'.broker.log = w.broker.log ∧
      ∀ e ∈ w.history, e ∈ w'.history := by
  unfold process Prog.tryThen
  rw [run_sleepUntil]
  have htransport : (attemptInputs result before after 1).transport = result := rfl
  have hclock : ∀ w, clock.run (fun _ => attemptInputs result before after 1) w =
      some (min after u64Max, w) := fun _ => rfl
  generalize attemptInputs result before after 1 = i at htransport hclock ⊢
  simp only [Prog.run_bind_same, run_sendAttempt, Option.bind_some, htransport]
  cases houtcome : attemptOutcome result with
  | delivered status =>
    simp only [DurableEndpoint.handed, houtcome] at hhanded
    cases hhanded
  | failed failure =>
    simp only [DurableEndpoint.handed, houtcome] at hhanded
    cases hretries : W.endpoint.retries job.record failure with
    | true =>
      rw [hretries, if_pos rfl] at hhanded
      cases List.mem_singleton.mp hhanded
      simp only [hretries, if_true, Prog.run_bind_same, hclock, Option.bind_some,
        run_publishRecord_refused hsize]
      exact ⟨_, rfl, rfl, fun e he => by simp [World.log, he]⟩
    | false =>
      rw [hretries, if_neg Bool.false_ne_true] at hhanded
      cases List.mem_singleton.mp hhanded
      simp only [hretries, Bool.false_eq_true, if_false, Prog.run_bind_same, Option.bind_some,
        run_publishRecord_refused hsize]
      exact ⟨_, rfl, rfl, fun e he => by simp [World.log, he]⟩

theorem handed_retried {endpoint : DurableEndpoint} {record : DurableRecord}
    {failure : FailureClass}
    {now : ℕ} (houtcome : attemptOutcome result = .failed failure)
    (hretries : endpoint.retries record failure = true) (attempts : List (Transport × ℕ)) :
    endpoint.handed record ((result, now) :: attempts) =
      (.retry, endpoint.retried record failure (min now u64Max)) ::
        endpoint.handed (endpoint.retried record failure (min now u64Max)) attempts := by
  simp only [DurableEndpoint.handed, houtcome, hretries, if_true]

theorem handed_last {endpoint : DurableEndpoint} {record : DurableRecord} {now : ℕ}
    (h : ∀ failure, attemptOutcome result = .failed failure →
      endpoint.retries record failure = false) (attempts : List (Transport × ℕ)) :
    endpoint.handed record ((result, now) :: attempts) =
      endpoint.handed record [(result, now)] := by
  cases houtcome : attemptOutcome result with
  | delivered status => simp only [DurableEndpoint.handed, houtcome]
  | failed failure =>
    simp only [DurableEndpoint.handed, houtcome, h failure houtcome, Bool.false_eq_true, if_false]

theorem handed_cons_of_mem {endpoint : DurableEndpoint} {record : DurableRecord} {now : ℕ}
    {publication : Topic × DurableRecord}
    (h : publication ∈ endpoint.handed record [(result, now)]) (attempts : List (Transport × ℕ)) :
    ∃ rest, endpoint.handed record ((result, now) :: attempts) = publication :: rest := by
  cases houtcome : attemptOutcome result with
  | delivered status =>
    simp only [DurableEndpoint.handed, houtcome] at h
    cases h
  | failed failure =>
    simp only [DurableEndpoint.handed, houtcome] at h ⊢
    split_ifs at h ⊢ with hretries
    · rw [List.mem_singleton.mp h]
      exact ⟨_, rfl⟩
    · rw [List.mem_singleton.mp h]
      exact ⟨_, rfl⟩

/-- The passes of `process` over a sequence of attempts, as long as the record stays in hand. -/
def passes (W : DurableWorker) : List (Transport × ℕ) → Control → Job → World →
    Option (Next Control (Except String Unit) × World)
  | [], c, job, w => some (.again { c with job := some job }, w)
  | (result, now) :: attempts, c, job, w =>
    match (W.process c job).run (attemptInputs result now now) w with
    | some (.again ⟨phase, completed, some job'⟩, w') =>
      W.passes attempts ⟨phase, completed, none⟩ job' w'
    | ended => ended

theorem added_cons (publication : Topic × DurableRecord)
    (publications : List (Topic × DurableRecord)) (key : Topic × ℕ) :
    W.added (publication :: publications) key =
      W.added [publication] key ++ W.added publications key :=
  List.filterMap_append (l := [publication])

theorem passes_again {result : Transport} {now : ℕ} {c : Control} {job job' : Job} {w w' : World}
    (h : (W.process c job).run (attemptInputs result now now) w =
      some (.again ⟨c.phase, c.completed, some job'⟩, w')) (attempts : List (Transport × ℕ)) :
    W.passes ((result, now) :: attempts) c job w =
      W.passes attempts ⟨c.phase, c.completed, none⟩ job' w' := by
  rw [passes, h]

theorem passes_ended {result : Transport} {now : ℕ} {c : Control} {job : Job} {w w' : World}
    {next : Next Control (Except String Unit)}
    (h : (W.process c job).run (attemptInputs result now now) w = some (next, w'))
    (hnone : ∀ c', next = .again c' → c'.job = none) (attempts : List (Transport × ℕ)) :
    W.passes ((result, now) :: attempts) c job w = some (next, w') := by
  rw [passes, h]
  cases next with
  | done result => rfl
  | again c' =>
    obtain ⟨phase, completed, job'⟩ := c'
    have hidle : job' = none := hnone _ rfl
    rw [hidle]

/-- The passes publish what they hand on, record by record, if all of it fits. -/
theorem passes_publish (attempts : List (Transport × ℕ)) (c : Control) (job : Job) (w : World)
    (hfits : ∀ topic record, (topic, record) ∈ W.endpoint.handed job.record attempts →
      record.size ≤ W.maxRecordBytes) :
    ∃ next w', W.passes attempts c job w = some (next, w') ∧
      ∀ key, w'.broker.log key =
        w.broker.log key ++ W.added (W.endpoint.handed job.record attempts) key := by
  induction attempts generalizing c job w with
  | nil => exact ⟨_, w, rfl, fun key => (List.append_nil _).symm⟩
  | cons attempt attempts ih =>
    obtain ⟨result, now⟩ := attempt
    have hhead : ∀ topic record, (topic, record) ∈ W.endpoint.handed job.record [(result, now)] →
        record.size ≤ W.maxRecordBytes := by
      intro topic record hmem
      obtain ⟨rest, heq⟩ := handed_cons_of_mem hmem attempts
      exact hfits topic record (heq ▸ List.mem_cons_self)
    obtain ⟨next, w₁, rest, hrun, hlog, _, _, hnext⟩ := run_process now c job w hhead
    rcases hnext with ⟨failure, houtcome, hretries, rfl⟩ | ⟨hends, hnone⟩
    · rw [handed_retried houtcome hretries] at hfits ⊢
      obtain ⟨next, w', hpasses, hlog'⟩ := ih ⟨c.phase, c.completed, none⟩
        { job with
          record := W.endpoint.retried job.record failure (min now u64Max)
          inputCommitted := true } w₁
        fun topic record hmem => hfits topic record (List.mem_cons_of_mem _ hmem)
      refine ⟨next, w', (passes_again hrun attempts).trans hpasses, fun key => ?_⟩
      rw [hlog', hlog, handed_retried houtcome hretries,
        added_cons _ (W.endpoint.handed _ attempts),
        List.append_assoc]
      rfl
    · refine ⟨next, w₁, passes_ended hrun hnone attempts, fun key => ?_⟩
      rw [hlog, handed_last hends attempts]

/-- The first record that is handed on and does not fit ends the worker. -/
theorem passes_refused (attempts : List (Transport × ℕ)) (c : Control) (job : Job) (w : World)
    {topic : Topic} {record : DurableRecord}
    (hfirst : (W.endpoint.handed job.record attempts).find?
      (fun publication => W.maxRecordBytes < publication.2.size) = some (topic, record)) :
    ∃ w', W.passes attempts c job w = some (.done (.error (W.tooLarge record)), w') ∧
      ∀ e ∈ w.history, e ∈ w'.history := by
  induction attempts generalizing c job w with
  | nil => cases hfirst
  | cons attempt attempts ih =>
    obtain ⟨result, now⟩ := attempt
    by_cases hfits : ∀ topic record, (topic, record) ∈ W.endpoint.handed job.record
        [(result, now)] → record.size ≤ W.maxRecordBytes
    · obtain ⟨next, w₁, rest, hrun, _, hhistory, _, hnext⟩ := run_process now c job w hfits
      rcases hnext with ⟨failure, houtcome, hretries, rfl⟩ | ⟨hends, hnone⟩
      · rw [handed_retried houtcome hretries] at hfirst hfits
        have hhead := hfits _ _ List.mem_cons_self
        rw [List.find?_cons_of_neg (by simpa using hhead)] at hfirst
        obtain ⟨w', hpasses, hmore⟩ := ih ⟨c.phase, c.completed, none⟩
          { job with
            record := W.endpoint.retried job.record failure (min now u64Max)
            inputCommitted := true } w₁ hfirst
        refine ⟨w', (passes_again hrun attempts).trans hpasses, fun e he => hmore e ?_⟩
        rw [hhistory]
        exact List.mem_append_left _ he
      · rw [handed_last hends attempts] at hfirst
        have hle := hfits topic record (List.mem_of_find?_eq_some hfirst)
        have hlarge := List.find?_some hfirst
        simp only [decide_eq_true_eq] at hlarge
        omega
    · simp only [not_forall, Nat.not_le] at hfits
      obtain ⟨topic', record', hmem, hlarge⟩ := hfits
      obtain ⟨rest, heq⟩ := handed_cons_of_mem hmem attempts
      rw [heq, List.find?_cons_of_pos (by simpa using hlarge)] at hfirst
      cases hfirst
      obtain ⟨w', hrun, _, hmore⟩ := run_process_refused now c job w hmem hlarge
      refine ⟨w', passes_ended hrun ?_ attempts, hmore⟩
      intro c' hc'
      cases hc'

/-! ### Such a record in a run -/

variable {n : Node World Input Control (Except String Unit)}

/-- What the sink has in the topic of the deliveries for the destination is a command. -/
theorem isCommand_of_published (R : WebhookRuntime) {destination : RouteDestination}
    (message : RoutedMessage) (delivery : Delivery) (uuid : String) (now : ℕ) {reply : Reply}
    (hid : destination.id = W.endpoint.id)
    (hlimit : R.webhooks.durable.maxRecordBytes = W.maxRecordBytes)
    (hpublished : ((R.command destination message delivery uuid now).publication
      R.webhooks.durable.deliveryTopic R.webhooks.durable.maxRecordBytes reply).2 = true) :
    W.IsCommand (R.command destination message delivery uuid now) := by
  refine ⟨rfl, hid, rfl, Nat.min_le_right _ _, rfl, rfl, ?_⟩
  by_contra hlarge
  rw [hlimit, publication_refused (Nat.lt_of_not_le hlarge)] at hpublished
  cases hpublished

theorem Reachable.executed {w w' : World} {p : Pass} (h : W.Reachable ⟨w, some p⟩)
    (input : ℕ → Input) {next : Next Control (Except String Unit)}
    (hrun : p.run input w = some (next, w')) : W.Reachable ⟨w', some (.ret next)⟩ := by
  obtain ⟨moves, hmoves⟩ := h
  obtain ⟨acts, hacts⟩ := System.exists_acts (S := W.system) hrun
  exact ⟨moves ++ acts, System.run_append hmoves hacts⟩

theorem Reachable.again {w : World} {c : Control} (h : W.Reachable ⟨w, some (.ret (.again c))⟩) :
    W.Reachable ⟨w, some (W.run c)⟩ := by
  obtain ⟨moves, hmoves⟩ := h
  exact ⟨moves ++ [.again], System.run_append hmoves rfl⟩

theorem Reachable.passes {attempts : List (Transport × ℕ)} {c : Control} {job : Job} {w w' : World}
    {next : Next Control (Except String Unit)}
    (h : W.Reachable ⟨w, some (.ret (.again { c with job := some job }))⟩)
    (hpasses : W.passes attempts c job w = some (next, w')) :
    W.Reachable ⟨w', some (.ret next)⟩ := by
  induction attempts generalizing c job w with
  | nil =>
    cases hpasses
    exact h
  | cons attempt attempts ih =>
    obtain ⟨result, now⟩ := attempt
    rw [DurableWorker.passes] at hpasses
    split at hpasses
    · rename_i phase completed job' w₁ hrun
      exact ih (c := ⟨phase, completed, none⟩) (h.again.executed _ hrun) hpasses
    · exact h.again.executed _ hpasses

theorem run_deliver {w : World} {partition : ℕ} {completed : Finset String} {body : List UInt8}
    (hcommand : W.IsCommand command) (hbody : Base64.decode command.bodyBase64.toList = some body)
    (hfresh : command.deliveryId ∉ completed) (hopen : w.shutdown.value = false)
    (hsubscribed : .delivery ∈ w.subscribed)
    (hnext : w.broker.At (.delivery, partition) (w.broker.position (.delivery, partition))
      command.payload) :
    ∃ w', (W.deliver completed).run (fun _ => { wake := .message .delivery partition }) w =
        some (.again ⟨.delivering, completed, some ⟨⟨.delivery, partition,
          w.broker.position (.delivery, partition)⟩, command, body, false⟩⟩, w') ∧
      ∀ e ∈ w.history, e ∈ w'.history := by
  obtain ⟨hversion, hid, _, _, _, _, hsize⟩ := hcommand
  have hmessage := fromMessage_payload hsize hversion
  have hget : (w.broker.log (.delivery, partition)).getD
      (w.broker.position (.delivery, partition)) .missing = command.payload := by
    rw [List.getD_eq_getElem?_getD, hnext, Option.getD_some]
  have hlt := hnext.lt
  simp only [deliver, borrow, Prog.read, Prog.access, receive, Prog.await, bind, Prog.bind,
    Prog.run, if_true, hopen, Bool.false_eq_true, if_false, receives, hsubscribed, received,
    Cursor.key, hget, hmessage, hid, hfresh, accept, hbody, hlt, decide_true, Bool.and_self, ne_eq,
    not_true_eq_false, or_self, pure]
  exact ⟨_, rfl, fun e he => List.mem_append_left _ he⟩

theorem reachable_inHand {limit : ℕ} {command : DurableRecord} {body : List UInt8}
    (hcommand : (ordersWorker limit 8).IsCommand command)
    (hbody : Base64.decode command.bodyBase64.toList = some body) :
    ∃ w : World, .command command.deliveryId 0 true ∈ w.history ∧
      (ordersWorker limit 8).Reachable ⟨w, some (.ret (.again ⟨.delivering, ∅,
        some ⟨⟨.delivery, 0, 0⟩, command, body, false⟩⟩))⟩ := by
  have hpersist : (ordersWorker limit 8).outside (.persist command .done) World.new =
      some ((ordersWorker limit 8).addCommand World.new command true) :=
    if_pos ⟨hcommand, rfl⟩
  have hstarted : (ordersWorker limit 8).Reachable
      ⟨boot ((ordersWorker limit 8).addCommand World.new command true),
        some ((ordersWorker limit 8).run ⟨.starting, ∅, none⟩)⟩ := by
    refine ⟨[.environment (.persist command .done), .start], ?_⟩
    simp only [System.run, System.move, DurableWorker.system, hpersist, Option.map_some,
      Option.bind_some]
  have hrecovering := (hstarted.executed (fun _ => {}) rfl).again
  obtain ⟨w, hdelivering, hopen, hsubscribed, hposition, hnext, hhistory⟩ :
      ∃ w : World, (ordersWorker limit 8).Reachable
          ⟨w, some ((ordersWorker limit 8).run ⟨.delivering, ∅, none⟩)⟩ ∧
        w.shutdown.value = false ∧ .delivery ∈ w.subscribed ∧
        w.broker.position (.delivery, 0) = 0 ∧ w.broker.At (.delivery, 0) 0 command.payload ∧
        .command command.deliveryId 0 true ∈ w.history :=
    ⟨_, (hrecovering.executed (fun _ => { wake := .partitionEof 0, assigned := 1 }) rfl).again, rfl,
      List.mem_cons_self, rfl, rfl, List.mem_cons_self⟩
  obtain ⟨w', hrun, hmore⟩ := run_deliver hcommand hbody (Finset.notMem_empty _) hopen hsubscribed
    (show w.broker.At (.delivery, 0) (w.broker.position (.delivery, 0)) command.payload by
      rwa [hposition])
  rw [hposition] at hrun
  exact ⟨w', hmore _ hhistory, hdelivering.executed _ hrun⟩

def ordersDestination : WebhookDestinationConfig where
  id := "orders"
  filter := ⟨"acme", none, none, none, none, none, none⟩
  queueCapacity := 8
  timeoutMs := 1000
  maxAttempts := 3
  initialBackoffMs := 100
  maxBackoffMs := 1000

/-- The defaults, but for durable webhooks whose records may be as large as the command below. -/
def tightLimits : Daemon.AppConfig where
  webhooks :=
    { enabled := true
      mode := .durable
      config :=
        { durable := { Daemon.defaultWebhooks.durable with maxRecordBytes := 668 }
          destinations := [ordersDestination] } }

def order : RoutedMessage where
  metadata := { (Daemon.sample 1).metadata with source := some ⟨"router.input", 0, 41⟩ }
  payload := [0]
  traceContext := none
  valid := rfl

def orderDelivery : Delivery := ⟨order, [⟨"webhook:orders"⟩]⟩

def storedOrder : DurableRecord :=
  (tightLimits.runtime (fun _ => none) (fun _ => .listed)).command ⟨"orders", ⟨0⟩⟩ order
    orderDelivery "5d1f7a52-9d3c-4a86-b7c1-0f6f2f3b9f10" 1760000000000

theorem size_storedOrder : storedOrder.size = 668 := by
  rw [storedOrder, Daemon.size_command]
  decide +kernel

theorem isCommand_storedOrder : (ordersWorker 668 8).IsCommand storedOrder := by
  have hpublished := publication_done (Nat.le_of_eq size_storedOrder) "router.webhook.delivery"
  exact isCommand_of_published (tightLimits.runtime (fun _ => none) (fun _ => .listed)) order
    orderDelivery _ _ rfl rfl (congrArg Prod.snd hpublished)

theorem accepted_command_refused :
    tightLimits.validate (fun _ => some false) = .ok () ∧
      (ordersWorker 668 8).IsCommand storedOrder ∧
      (.deadLetter, storedOrder.deadLettered .permanentHttp) ∈
        (ordersWorker 668 8).endpoint.handed storedOrder [(.response 404, 0)] ∧
      668 < (storedOrder.deadLettered .permanentHttp).size ∧
      ∃ n, (ordersWorker 668 8).Reachable n ∧
        .command "5d1f7a52-9d3c-4a86-b7c1-0f6f2f3b9f10" 0 true ∈ n.durable.history ∧
        n.returned =
          some (.error "serialized durable webhook record is 683 bytes, limit is 668") := by
  have hcommand := isCommand_storedOrder
  have hsize : (storedOrder.deadLettered .permanentHttp).size = 683 := by
    have hgrowth := size_commandDeadLettered hcommand .permanentHttp
    have hclass : FailureClass.permanentHttp.size = 16 := by decide +kernel
    rw [size_storedOrder, hclass] at hgrowth
    omega
  have hbody : Base64.decode storedOrder.bodyBase64.toList =
      some (Wire.encodeDeliveryJson (fun _ => none) orderDelivery) := by
    change Base64.decode (String.ofList (Base64.encode _)).toList = _
    rw [String.toList_ofList, Base64.decode_encode]
    rfl
  have hmem : (.deadLetter, storedOrder.deadLettered .permanentHttp) ∈
      (ordersWorker 668 8).endpoint.handed storedOrder [(.response 404, 0)] :=
    List.mem_singleton_self _
  have hlarge : 668 < (storedOrder.deadLettered .permanentHttp).size := by
    rw [hsize]
    decide
  obtain ⟨w, hhistory, hinHand⟩ := reachable_inHand hcommand hbody
  have hfirst : ((ordersWorker 668 8).endpoint.handed storedOrder [(.response 404, 0)]).find?
      (fun publication => (ordersWorker 668 8).maxRecordBytes < publication.2.size) =
        some (.deadLetter, storedOrder.deadLettered .permanentHttp) :=
    List.find?_cons_of_pos (decide_eq_true hlarge)
  obtain ⟨w', hpasses, hmore⟩ := passes_refused [(.response 404, 0)] ⟨.delivering, ∅, none⟩
    ⟨⟨.delivery, 0, 0⟩, storedOrder, _, false⟩ w hfirst
  have hreachable := Reachable.passes hinHand hpasses
  have htext : (ordersWorker 668 8).tooLarge (storedOrder.deadLettered .permanentHttp) =
      "serialized durable webhook record is 683 bytes, limit is 668" := by
    unfold tooLarge
    dsimp only
    rw [hsize]
    decide +kernel
  refine ⟨by decide +kernel, hcommand, hmem, hlarge, _, hreachable, hmore _ hhistory, ?_⟩
  rw [← htext]
  rfl

theorem accepted_command_movable_iff_orders :
    (ordersWorker 1024 8).IsCommand (ordersCommand "d-1") ∧
      (∀ attempts topic record,
        (topic, record) ∈ (ordersWorker 1024 8).endpoint.handed (ordersCommand "d-1") attempts →
          record.size ≤ 1024) ∧
      ∀ attempts c cursor body w, ∃ next w',
        (ordersWorker 1024 8).passes attempts c ⟨cursor, ordersCommand "d-1", body, false⟩ w =
            some (next, w') ∧
          ∀ key, w'.broker.log key = w.broker.log key ++ (ordersWorker 1024 8).added
            ((ordersWorker 1024 8).endpoint.handed (ordersCommand "d-1") attempts) key := by
  have hcommand : (ordersWorker 1024 8).IsCommand (ordersCommand "d-1") := by decide +kernel
  have hfits : (ordersWorker 1024 8).Fits (ordersCommand "d-1") := by
    unfold Fits
    decide +kernel
  have hsizes := (accepted_command_movable_iff hcommand (by decide)).mpr hfits
  exact ⟨hcommand, hsizes, fun attempts c cursor body w => passes_publish attempts c _ w
    fun topic record => hsizes attempts topic record⟩

end DurableWorker
end KafkaEdgeRouter.Webhook
