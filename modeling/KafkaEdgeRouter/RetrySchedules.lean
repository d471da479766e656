import KafkaEdgeRouter.AttemptNumbers
import KafkaEdgeRouter.RecordSize
import KafkaEdgeRouter.VolatileDelivery

/-!
# Volatile and durable retries compared

The two loops were written apart. Both are reduced to a report of the attempts, the waits and the
ending: the volatile one is the loop itself, the durable one is read off the passes of `process`
while nothing fails but the attempts. For a validated destination the attempts and the ending differ
in one place only: where no client can be built for the destination. The waits differ where the
clock has moved on between the schedule of a retry and the sleep before it, or where the time of the
next attempt does not fit its field.
-/

namespace KafkaEdgeRouter.Webhook

def DurableEndpoint.new (config : WebhookDestinationConfig) : DurableEndpoint where
  id := config.id
  maxAttempts := config.maxAttempts
  initialBackoffMs := config.initialBackoffMs
  maxBackoffMs := config.maxBackoffMs

/-! ### One delivery in the hands of `process` -/

def Event.delivers (id : String) : Event → Bool
  | .answered deliveryId (.delivered _) => deliveryId = id
  | _ => false

def endingOf (id : String) (events : List Event) : Ending :=
  if events.any (Event.delivers id) then .delivered else .failed

def AttemptOutcome.ending : AttemptOutcome → Ending
  | .delivered _ => .delivered
  | .failed _ => .failed

def sleepOf (inputs : ℕ → Input) (nextAttemptAtMs : ℕ) : ℕ :=
  fromMillis (remainingMs nextAttemptAtMs (min (inputs 0).now u64Max))

namespace DurableWorker

variable (W : DurableWorker)

/-- The passes of `process` for one record, as far as they are allowed, and what they come to. -/
def handle : ℕ → (ℕ → Transport) → (ℕ → ℕ) → (ℕ → ℕ) → Control → Job → World → Option Report
  | 0, _, _, _, _, _, _ => none
  | passes + 1, results, before, after, c, job, w =>
    match (W.process c job).run (attemptInputs (results 0) (before 0) (after 0)) w with
    | none => none
    | some (next, w') =>
      let events := w'.history.drop w.history.length
      match next with
      | .again ⟨phase, completed, some job'⟩ =>
        (handle passes (fun n => results (n + 1)) (fun n => before (n + 1))
          (fun n => after (n + 1)) ⟨phase, completed, none⟩ job' w').map fun report =>
            ⟨attemptNumbers job.record.deliveryId events ++ report.attempts,
              sleepOf (attemptInputs (results 1) (before 1) (after 1))
                job'.record.nextAttemptAtMs :: report.waits,
              report.ending⟩
      | _ =>
        some ⟨attemptNumbers job.record.deliveryId events, [],
          endingOf job.record.deliveryId events⟩

end DurableWorker

/-! ### The durable schedule -/

/-- The passes of `process` as a loop over the attempts that are left, with the waits before the
retries. -/
def DurableEndpoint.schedule (endpoint : DurableEndpoint) :
    ℕ → ℕ → (ℕ → Transport) → (ℕ → ℕ) → Report
  | 0, _, _, _ => ⟨[], [], .failed⟩
  | left + 1, attempt, results, waits =>
    match attemptOutcome (results 0) with
    | .delivered _ => .last attempt .delivered
    | .failed failure =>
      if shouldRetry failure && attempt < endpoint.maxAttempts then
        (endpoint.schedule left (attempt + 1) (fun n => results (n + 1))
          (fun n => waits (n + 1))).before attempt (waits 0)
      else .last attempt .failed

theorem DurableEndpoint.schedule_attempts (endpoint : DurableEndpoint) {left : ℕ} (h : 0 < left)
    (attempt : ℕ) (results : ℕ → Transport) (waits : ℕ → ℕ) :
    (endpoint.schedule left attempt results waits).attempts ≠ [] := by
  obtain ⟨left, rfl⟩ := Nat.exists_eq_succ_of_ne_zero (Nat.ne_of_gt h)
  rw [schedule]
  cases attemptOutcome (results 0) with
  | delivered status => exact List.cons_ne_nil _ _
  | failed failure =>
    dsimp only
    split_ifs
    · exact List.cons_ne_nil _ _
    · exact List.cons_ne_nil _ _

/-- The time that is left when `process` sleeps before a retry: it was scheduled after an attempt
with this number, and meanwhile the record has been published and its input committed. -/
def DurableEndpoint.waitBefore (endpoint : DurableEndpoint) (attempt scheduled slept : ℕ) : ℕ :=
  fromMillis (remainingMs
    (min (min scheduled u64Max + endpoint.retryDelayMs (attempt + 1)) u64Max) (min slept u64Max))

theorem DurableEndpoint.schedule_last {endpoint : DurableEndpoint} {attempt : ℕ}
    {results : ℕ → Transport} (left : ℕ) (waits : ℕ → ℕ)
    (h : ∀ failure, attemptOutcome (results 0) = .failed failure →
      (shouldRetry failure && attempt < endpoint.maxAttempts) = false) :
    endpoint.schedule (left + 1) attempt results waits =
      .last attempt (attemptOutcome (results 0)).ending := by
  rw [schedule]
  cases houtcome : attemptOutcome (results 0) with
  | delivered status => rfl
  | failed failure =>
    simp only [h failure houtcome, Bool.false_eq_true, if_false]
    rfl

theorem DurableEndpoint.schedule_before {endpoint : DurableEndpoint} {attempt : ℕ}
    {results : ℕ → Transport} {failure : FailureClass} (left : ℕ) (waits : ℕ → ℕ)
    (houtcome : attemptOutcome (results 0) = .failed failure)
    (h : (shouldRetry failure && attempt < endpoint.maxAttempts) = true) :
    endpoint.schedule (left + 1) attempt results waits =
      (endpoint.schedule left (attempt + 1) (fun n => results (n + 1))
        (fun n => waits (n + 1))).before attempt (waits 0) := by
  rw [schedule, houtcome]
  simp only [h, if_true]

namespace DurableWorker

variable {W : DurableWorker}

theorem attemptNumbers_passEvents (job : Job) (outcome : AttemptOutcome) {rest : List Event}
    (hrest : ∀ e ∈ rest, e.isFollowUp = true) :
    attemptNumbers job.record.deliveryId (passEvents job outcome rest) = [job.record.attempt] := by
  have hnone : rest.filterMap (Event.attemptOf job.record.deliveryId) = [] := by
    rw [List.filterMap_eq_nil_iff]
    intro e he
    have hfollow := hrest e he
    cases e with
    | attempted cursor deliveryId request => cases hfollow
    | _ => rfl
  have hfirst : Event.attemptOf job.record.deliveryId (.attempted job.cursor job.record.deliveryId
      ⟨job.body, job.record.originalMessageId, job.record.attempt⟩) = some job.record.attempt :=
    if_pos rfl
  rw [attemptNumbers, passEvents, List.filterMap_cons_some hfirst, List.filterMap_cons_none rfl,
    hnone]

theorem endingOf_passEvents (job : Job) (outcome : AttemptOutcome) {rest : List Event}
    (hrest : ∀ e ∈ rest, e.isFollowUp = true) :
    endingOf job.record.deliveryId (passEvents job outcome rest) = outcome.ending := by
  have hnone : rest.any (Event.delivers job.record.deliveryId) = false := by
    rw [List.any_eq_false]
    intro e he
    have hfollow := hrest e he
    cases e with
    | answered deliveryId outcome => cases hfollow
    | _ => simp [Event.delivers]
  cases outcome with
  | delivered status => simp [endingOf, passEvents, Event.delivers, AttemptOutcome.ending]
  | failed failure => simp [endingOf, passEvents, Event.delivers, AttemptOutcome.ending, hnone]

theorem handle_eq_schedule (hlimit : W.endpoint.maxAttempts ≤ u32Max) (passes : ℕ) (job : Job)
    (hpasses : job.record.attempt + passes = W.endpoint.maxAttempts + 1)
    (hattempt : job.record.attempt ≤ W.endpoint.maxAttempts)
    (hfits : ∀ attempts topic record, (topic, record) ∈ W.endpoint.handed job.record attempts →
      record.size ≤ W.maxRecordBytes)
    (results : ℕ → Transport) (before after : ℕ → ℕ) (c : Control) (w : World) :
    W.handle passes results before after c job w =
      some (W.endpoint.schedule passes job.record.attempt results fun n =>
        W.endpoint.waitBefore (job.record.attempt + n) (after n) (before (n + 1))) := by
  induction passes generalizing job results before after c w with
  | zero => omega
  | succ passes ih =>
    obtain ⟨next, w', rest, hrun, _, hhistory, hrest, hnext⟩ :=
      run_process (before 0) c job w (hfits [(results 0, after 0)])
    have hevents : w'.history.drop w.history.length =
        passEvents job (attemptOutcome (results 0)) rest := by
      rw [hhistory, List.drop_left]
    simp only [handle, hrun, hevents, attemptNumbers_passEvents job _ hrest,
      endingOf_passEvents job _ hrest]
    rcases hnext with ⟨failure, houtcome, hretries, rfl⟩ | ⟨hends, hnone⟩
    · have hagain := hretries
      simp only [DurableEndpoint.retries, Bool.and_eq_true, decide_eq_true_eq] at hagain
      have hnumber : (W.endpoint.retried job.record failure (min (after 0) u64Max)).attempt =
          job.record.attempt + 1 := by
        simp only [DurableEndpoint.retried]
        omega
      have htime : (W.endpoint.retried job.record failure (min (after 0) u64Max)).nextAttemptAtMs =
          min (min (after 0) u64Max + W.endpoint.retryDelayMs (job.record.attempt + 1)) u64Max := by
        rw [← hnumber]
        rfl
      have hnext := ih { job with
          record := W.endpoint.retried job.record failure (min (after 0) u64Max)
          inputCommitted := true }
        (by rw [hnumber]; omega) (by rw [hnumber]; omega)
        (fun attempts topic record hmem => hfits ((results 0, after 0) :: attempts) topic record
          (by rw [handed_retried houtcome hretries]; exact List.mem_cons_of_mem _ hmem))
        (fun n => results (n + 1)) (fun n => before (n + 1)) (fun n => after (n + 1))
        ⟨c.phase, c.completed, none⟩ w'
      have hwait : sleepOf (attemptInputs (results 1) (before 1) (after 1))
          (W.endpoint.retried job.record failure (min (after 0) u64Max)).nextAttemptAtMs =
            W.endpoint.waitBefore job.record.attempt (after 0) (before 1) := by
        rw [sleepOf, htime]
        rfl
      have hlater : ∀ n, job.record.attempt + 1 + n = job.record.attempt + (n + 1) := by omega
      rw [DurableEndpoint.schedule_before passes _ houtcome hretries]
      simp only [hnext, Option.map_some, hnumber, hwait, hlater, Report.before,
        List.singleton_append, Nat.add_zero, Nat.zero_add]
    · rw [DurableEndpoint.schedule_last passes _ hends]
      cases next with
      | done result => rfl
      | again c' =>
        obtain ⟨phase, completed, job'⟩ := c'
        have hidle : job' = none := hnone _ rfl
        rw [hidle]
        rfl

end DurableWorker

/-! ### The two schedules -/

def Transport.isTransient : Transport → Bool
  | .unresolved => true
  | .response status => retryableStatus status
  | .error isTimeout isConnect isRequest => isTimeout || isConnect || isRequest

theorem not_success_of_retryable {status : ℕ} (h : retryableStatus status = true) :
    isSuccess status = false := by
  simp only [retryableStatus, isServerError, Bool.or_eq_true, beq_iff_eq, Bool.and_eq_true,
    decide_eq_true_eq] at h
  simp only [isSuccess, Bool.and_eq_false_iff, decide_eq_false_iff_not]
  omega

theorem attempt_transient {result : Transport} (h : result.isTransient = true) :
    (∃ failure, attemptOutcome result = .failed failure ∧ shouldRetry failure = true) ∧
      (attemptResult result = .retryable ∨ result = .unresolved) := by
  cases result with
  | unresolved => exact ⟨⟨.connect, rfl, rfl⟩, Or.inr rfl⟩
  | response status =>
    have hretryable : retryableStatus status = true := h
    have hsuccess := not_success_of_retryable hretryable
    refine ⟨?_, Or.inl (by simp [attemptResult, hsuccess, hretryable])⟩
    by_cases htoo : status = 429
    · exact ⟨.http429, by rw [htoo]; rfl, rfl⟩
    · exact ⟨.http5xx, by simp [attemptOutcome, hsuccess, htoo, hretryable], rfl⟩
  | error isTimeout isConnect isRequest =>
    refine ⟨?_, Or.inl (if_pos h)⟩
    cases isTimeout with
    | true => exact ⟨.timeout, rfl, rfl⟩
    | false =>
      cases isConnect with
      | true => exact ⟨.connect, rfl, rfl⟩
      | false =>
        cases isRequest with
        | true => exact ⟨.request, rfl, rfl⟩
        | false => cases h

theorem attempt_final {result : Transport} (h : result.isTransient = false) :
    (∃ status, attemptOutcome result = .delivered status ∧
      attemptResult result = .delivered status) ∨
    ∃ failure, attemptOutcome result = .failed failure ∧ shouldRetry failure = false ∧
      attemptResult result = .permanent := by
  cases result with
  | unresolved => cases h
  | response status =>
    have hretryable : retryableStatus status = false := h
    by_cases hsuccess : isSuccess status = true
    · exact Or.inl ⟨status, if_pos hsuccess, if_pos hsuccess⟩
    · have htoo : status ≠ 429 := by
        rintro rfl
        cases hretryable
      right
      exact ⟨.permanentHttp, by simp [attemptOutcome, hsuccess, htoo, hretryable], rfl,
        by simp [attemptResult, hsuccess, hretryable]⟩
  | error isTimeout isConnect isRequest =>
    simp only [Transport.isTransient, Bool.or_eq_false_iff] at h
    obtain ⟨⟨rfl, rfl⟩, rfl⟩ := h
    exact Or.inr ⟨.client, rfl, rfl, rfl⟩

theorem doubled_eq {maximum : ℕ} (hmaximum : maximum ≤ u64Max) (n : ℕ) {delay : ℕ}
    (hdelay : delay ≤ maximum) : doubled maximum n delay = min (delay * 2 ^ n) maximum := by
  induction n generalizing delay with
  | zero =>
    rw [doubled, pow_zero, mul_one]
    omega
  | succ n ih =>
    rw [doubled, ih (Nat.min_le_right _ _), pow_succ']
    have hscale : min (min (delay * 2) u64Max) maximum = min (delay * 2) maximum := by omega
    rw [hscale, ← mul_assoc]
    rcases Nat.le_total (delay * 2) maximum with hle | hge
    · rw [Nat.min_eq_left hle]
    · have hpow : 1 ≤ 2 ^ n := Nat.one_le_two_pow
      have hbig : maximum ≤ maximum * 2 ^ n := Nat.le_mul_of_pos_right _ hpow
      have hbigger : maximum * 2 ^ n ≤ delay * 2 * 2 ^ n := Nat.mul_le_mul_right _ hge
      rw [Nat.min_eq_right hge]
      omega

section Comparison

variable {endpoint : DurableEndpoint} {worker : WebhookWorker}

def DurableEndpoint.backoffMs (endpoint : DurableEndpoint) (retry : ℕ) : ℕ :=
  min (endpoint.initialBackoffMs * 2 ^ retry) endpoint.maxBackoffMs

theorem retryDelayMs_eq (hbackoff : endpoint.initialBackoffMs ≤ endpoint.maxBackoffMs)
    (hmaximum : endpoint.maxBackoffMs ≤ u64Max) (retry : ℕ) :
    endpoint.retryDelayMs (retry + 2) = endpoint.backoffMs retry := by
  rw [DurableEndpoint.retryDelayMs, DurableEndpoint.backoffMs, Nat.add_sub_cancel,
    doubled_eq hmaximum retry hbackoff, Nat.min_assoc, Nat.min_self]

theorem volatile_backoff (hmaximum : endpoint.maxBackoffMs ≤ u64Max) (retry : ℕ) :
    min (saturatingMul (fromMillis (endpoint.backoffMs retry)) 2)
        (fromMillis endpoint.maxBackoffMs) =
      fromMillis (endpoint.backoffMs (retry + 1)) := by
  have hle : endpoint.backoffMs retry ≤ endpoint.maxBackoffMs := Nat.min_le_right _ _
  have hnext : endpoint.backoffMs (retry + 1) =
      min (endpoint.backoffMs retry * 2) endpoint.maxBackoffMs := by
    rw [DurableEndpoint.backoffMs, DurableEndpoint.backoffMs, pow_succ, ← mul_assoc]
    omega
  rw [hnext, saturatingMul]
  generalize endpoint.backoffMs retry = delay at hle ⊢
  simp only [fromMillis, durationMax, u64Max] at hmaximum ⊢
  omega

structure Matched (endpoint : DurableEndpoint) (worker : WebhookWorker) : Prop where
  attempts : worker.maxAttempts = endpoint.maxAttempts
  initial : worker.initialBackoff = fromMillis endpoint.initialBackoffMs
  maximum : worker.maxBackoff = fromMillis endpoint.maxBackoffMs
  positive : 0 < endpoint.initialBackoffMs
  ordered : endpoint.initialBackoffMs ≤ endpoint.maxBackoffMs
  fits : endpoint.maxBackoffMs ≤ u64Max

theorem waitBefore_eq_iff (h : Matched endpoint worker) (retry scheduled slept : ℕ) :
    endpoint.waitBefore (retry + 1) scheduled slept = fromMillis (endpoint.backoffMs retry) ↔
      min slept u64Max + endpoint.backoffMs retry =
        min (min scheduled u64Max + endpoint.backoffMs retry) u64Max := by
  have hpositive : 0 < endpoint.backoffMs retry :=
    Nat.lt_min.mpr ⟨Nat.mul_pos h.positive (Nat.two_pow_pos retry),
      Nat.lt_of_lt_of_le h.positive h.ordered⟩
  rw [DurableEndpoint.waitBefore, retryDelayMs_eq h.ordered h.fits, remainingMs]
  simp only [fromMillis]
  omega

/-- A comparison of reports attempt by attempt, with a comparison of the waits. -/
structure Compares (alike : Report → Report → Prop) (same : ℕ → ℕ → Prop) : Prop where
  refl : ∀ report, alike report report
  before : ∀ (report report' : Report) (attempt wait wait' : ℕ),
    alike (report.before attempt wait) (report'.before attempt wait') ↔
      same wait wait' ∧ alike report report'
  last : ∀ (report : Report) (attempt wait attempt' : ℕ) (ending : Ending),
    report.attempts ≠ [] → ¬ alike (report.before attempt wait) (.last attempt' ending)

theorem compares_eq : Compares (· = ·) (· = ·) where
  refl report := rfl
  before report report' attempt wait wait' := by
    obtain ⟨attempts, waits, ending⟩ := report
    obtain ⟨attempts', waits', ending'⟩ := report'
    simp only [Report.before, Report.mk.injEq, List.cons.injEq, true_and]
    tauto
  last report attempt wait attempt' ending hmore := by simp [Report.before, Report.last]

def SameOutcome (report report' : Report) : Prop :=
  report.attempts = report'.attempts ∧ report.ending = report'.ending

theorem compares_sameOutcome : Compares SameOutcome (fun _ _ => True) where
  refl report := ⟨rfl, rfl⟩
  before report report' attempt wait wait' := by
    simp [SameOutcome, Report.before]
  last report attempt wait attempt' ending hmore := by
    simp [SameOutcome, Report.before, Report.last, hmore]

/-- From the attempt on, both loops do the same exactly when no attempt that is followed by another
fails for want of a client and every wait is the same as the backoff. -/
theorem schedule_alike_iff {alike : Report → Report → Prop} {same : ℕ → ℕ → Prop}
    (hcompares : Compares alike same) (h : Matched endpoint worker) (left retry : ℕ)
    (hleft : retry + left = endpoint.maxAttempts) (results : ℕ → Transport) (waits : ℕ → ℕ) :
    alike (endpoint.schedule left (retry + 1) results waits)
        (worker.deliverFrom left (retry + 1) (fromMillis (endpoint.backoffMs retry)) results) ↔
      ∀ k, (∀ j ≤ k, (results j).isTransient = true) → retry + k + 1 < endpoint.maxAttempts →
        results k ≠ .unresolved ∧ same (waits k) (fromMillis (endpoint.backoffMs (retry + k))) := by
  induction left generalizing retry results waits with
  | zero =>
    refine iff_of_true (hcompares.refl _) ?_
    intro k _ hlt
    omega
  | succ left ih =>
    cases hresult : (results 0).isTransient with
    | false =>
      refine iff_of_true ?_ ?_
      · rw [WebhookWorker.deliverFrom]
        rcases attempt_final hresult with ⟨status, houtcome, hvolatile⟩ |
          ⟨failure, houtcome, hstop, hvolatile⟩
        · rw [DurableEndpoint.schedule_last left waits (by simp [houtcome]), houtcome, hvolatile]
          exact hcompares.refl _
        · rw [DurableEndpoint.schedule_last left waits (by simp [houtcome, hstop]), houtcome,
            hvolatile]
          exact hcompares.refl _
      · intro k htransient _
        rw [htransient 0 (Nat.zero_le k)] at hresult
        cases hresult
    | true =>
      obtain ⟨⟨failure, houtcome, hretry⟩, hvolatile⟩ := attempt_transient hresult
      by_cases hlast : retry + 1 < endpoint.maxAttempts
      · rw [DurableEndpoint.schedule_before left waits houtcome (by simp [hretry, hlast])]
        rcases hvolatile with hvolatile | hunresolved
        · have hresolved : results 0 ≠ .unresolved := by
            intro hunresolved
            rw [hunresolved] at hvolatile
            cases hvolatile
          have hworker : retry + 1 < worker.maxAttempts := by rwa [h.attempts]
          rw [WebhookWorker.deliverFrom, hvolatile]
          simp only [hworker, if_true]
          rw [h.maximum, volatile_backoff h.fits, hcompares.before, ih (retry + 1) (by omega)]
          constructor
          · rintro ⟨hfirst, hrest⟩ k htransient hlt
            cases k with
            | zero => exact ⟨hresolved, hfirst⟩
            | succ k =>
              have hnext := hrest k (fun j hj => htransient (j + 1) (by omega)) (by omega)
              rwa [Nat.add_right_comm retry 1 k] at hnext
          · intro hall
            refine ⟨(hall 0 ?_ hlast).2, ?_⟩
            · intro j hj
              rwa [Nat.le_zero.mp hj]
            · intro k htransient hlt
              have hnext := hall (k + 1) ?_ (by omega)
              · rwa [Nat.add_right_comm retry 1 k]
              · intro j hj
                cases j with
                | zero => exact hresult
                | succ j => exact htransient j (by omega)
        · rw [WebhookWorker.deliverFrom, hunresolved]
          have hmore : (endpoint.schedule left (retry + 1 + 1) (fun n => results (n + 1))
              fun n => waits (n + 1)).attempts ≠ [] :=
            DurableEndpoint.schedule_attempts endpoint (by omega) _ _ _
          refine iff_of_false (hcompares.last _ _ _ _ _ hmore) ?_
          intro hall
          refine (hall 0 ?_ hlast).1 hunresolved
          intro j hj
          rwa [Nat.le_zero.mp hj]
      · have hworker : ¬ retry + 1 < worker.maxAttempts := by rwa [h.attempts]
        refine iff_of_true ?_ (fun k _ hlt => by omega)
        rw [DurableEndpoint.schedule_last left waits (by simp [hlast]), houtcome,
          WebhookWorker.deliverFrom]
        rcases hvolatile with hvolatile | hunresolved
        · rw [hvolatile]
          simp only [hworker, if_false]
          exact hcompares.refl _
        · rw [hunresolved]
          exact hcompares.refl _

theorem validate_destination {destination : WebhookDestinationConfig} {maxQueueCapacity : ℕ}
    (h : destination.validate maxQueueCapacity = .ok ()) :
    0 < destination.maxAttempts ∧ 0 < destination.initialBackoffMs ∧
      destination.initialBackoffMs ≤ destination.maxBackoffMs := by
  unfold WebhookDestinationConfig.validate at h
  simp only at h
  split_ifs at h with hpositive hordered
  omega

theorem matched_new {destination : WebhookDestinationConfig} {maxQueueCapacity : ℕ}
    (h : destination.validate maxQueueCapacity = .ok ())
    (hbackoff : destination.maxBackoffMs ≤ u64Max) :
    Matched (DurableEndpoint.new destination) (WebhookWorker.new destination) := by
  obtain ⟨hattempts, hinitial, hordered⟩ := validate_destination h
  constructor
  · exact Nat.max_eq_left hattempts
  · exact congrArg fromMillis (Nat.max_eq_left hinitial)
  · rw [WebhookWorker.new, Nat.max_eq_left hinitial, Nat.max_eq_left hordered]
    rfl
  · exact hinitial
  · exact hordered
  · exact hbackoff

end Comparison

namespace DurableWorker

variable {W : DurableWorker}

/-- The name of the destination cannot be resolved at first. -/
def resolvedLater (n : ℕ) : Transport := if n = 0 then .unresolved else .response 200

/-- An attempt takes 30 ms, and nothing else takes any time but the wait for a retry. -/
def scheduledAt (n : ℕ) : ℕ := 1700000000030 + 130 * n

def sleptAt (n : ℕ) : ℕ := if n = 0 then 1700000000000 else scheduledAt (n - 1)

def busyAtFirst (n : ℕ) : Transport := if n = 0 then .response 503 else .response 200

end DurableWorker

/-! ### The delays by themselves -/

section Delays

variable {endpoint : DurableEndpoint} {worker : WebhookWorker}

theorem DurableEndpoint.backoffMs_mono (endpoint : DurableEndpoint) {k n : ℕ} (h : k ≤ n) :
    endpoint.backoffMs k ≤ endpoint.backoffMs n := by
  have hpow : 2 ^ k ≤ 2 ^ n := Nat.pow_le_pow_right (by decide) h
  have hmul := Nat.mul_le_mul_left endpoint.initialBackoffMs hpow
  unfold DurableEndpoint.backoffMs
  omega

theorem deliverFrom_attempts (worker : WebhookWorker) (left attempt delay : ℕ)
    (results : ℕ → Transport) : (worker.deliverFrom left attempt delay results).attempts =
      List.range' attempt (worker.deliverFrom left attempt delay results).attempts.length := by
  induction left generalizing attempt delay results with
  | zero => rfl
  | succ left ih =>
    rw [WebhookWorker.deliverFrom]
    cases attemptResult (results 0) with
    | delivered status => rfl
    | permanent => rfl
    | retryable =>
      by_cases hlast : attempt < worker.maxAttempts
      · simp only [if_pos hlast, Report.before, List.length_cons, List.range'_succ]
        rw [← ih]
      · simp only [if_neg hlast]
        rfl

theorem deliverFrom_waits (hmaximum : endpoint.maxBackoffMs ≤ u64Max)
    (hworker : worker.maxBackoff = fromMillis endpoint.maxBackoffMs) (left retry attempt : ℕ)
    (results : ℕ → Transport) (k : ℕ)
    (hk : k + 1 < (worker.deliverFrom left attempt (fromMillis (endpoint.backoffMs retry))
      results).attempts.length) :
    (worker.deliverFrom left attempt (fromMillis (endpoint.backoffMs retry)) results).waits[k]? =
      some (fromMillis (endpoint.backoffMs (retry + k))) := by
  induction left generalizing retry attempt results k with
  | zero => exact absurd hk (Nat.not_lt_zero _)
  | succ left ih =>
    rw [WebhookWorker.deliverFrom] at hk ⊢
    cases hresult : attemptResult (results 0) with
    | delivered status =>
      rw [hresult] at hk
      exact absurd hk (by simp [Report.last])
    | permanent =>
      rw [hresult] at hk
      exact absurd hk (by simp [Report.last])
    | retryable =>
      simp only [hresult] at hk ⊢
      by_cases hlast : attempt < worker.maxAttempts
      · simp only [if_pos hlast, hworker, volatile_backoff hmaximum] at hk ⊢
        cases k with
        | zero => rfl
        | succ k =>
          have hnext := ih (retry + 1) (attempt + 1) (fun n => results (n + 1)) k
            (Nat.lt_of_succ_lt_succ hk)
          rw [Nat.add_right_comm] at hnext
          exact hnext
      · rw [if_neg hlast] at hk
        exact absurd hk (by simp [Report.last])

/-- The delays of a durable destination are the capped powers of two, without saturation in the
way, never get shorter, and are the waits of a volatile worker with the same settings. -/
theorem retry_delays (destination : WebhookDestinationConfig)
    (hpositive : 0 < destination.initialBackoffMs)
    (hordered : destination.initialBackoffMs ≤ destination.maxBackoffMs)
    (hfits : destination.maxBackoffMs ≤ u64Max) :
    (∀ n, 2 ≤ n → (DurableEndpoint.new destination).retryDelayMs n =
      min (destination.initialBackoffMs * 2 ^ (n - 2)) destination.maxBackoffMs) ∧
    (∀ m n, 2 ≤ m → m ≤ n → (DurableEndpoint.new destination).retryDelayMs m ≤
      (DurableEndpoint.new destination).retryDelayMs n) ∧
    (∀ results n, 2 ≤ n →
      n ≤ ((WebhookWorker.new destination).deliver results).attempts.length →
        ((WebhookWorker.new destination).deliver results).attempts[n - 1]? = some n ∧
        ((WebhookWorker.new destination).deliver results).waits[n - 2]? =
          some (fromMillis ((DurableEndpoint.new destination).retryDelayMs n))) := by
  have hdelay : ∀ n, 2 ≤ n → (DurableEndpoint.new destination).retryDelayMs n =
      (DurableEndpoint.new destination).backoffMs (n - 2) := by
    intro n hn
    rw [← retryDelayMs_eq hordered hfits, Nat.sub_add_cancel hn]
  refine ⟨hdelay, fun m n hm hmn => ?_, fun results n hn hmade => ?_⟩
  · rw [hdelay m hm, hdelay n (hm.trans hmn)]
    exact DurableEndpoint.backoffMs_mono _ (by omega)
  · have hinitial : (WebhookWorker.new destination).initialBackoff =
        fromMillis ((DurableEndpoint.new destination).backoffMs 0) := by
      have hzero : (DurableEndpoint.new destination).backoffMs 0 =
          destination.initialBackoffMs := by
        rw [DurableEndpoint.backoffMs, pow_zero, mul_one]
        exact Nat.min_eq_left hordered
      rw [hzero, WebhookWorker.new, Nat.max_eq_left hpositive]
    have hmaximum : (WebhookWorker.new destination).maxBackoff =
        fromMillis (DurableEndpoint.new destination).maxBackoffMs := by
      rw [WebhookWorker.new, Nat.max_eq_left hpositive, Nat.max_eq_left hordered]
      rfl
    rw [WebhookWorker.deliver, hinitial] at hmade ⊢
    constructor
    · rw [deliverFrom_attempts, List.getElem?_range' (by omega)]
      congr 1
      omega
    · rw [deliverFrom_waits hfits hmaximum _ 0 1 results (n - 2) (by omega), hdelay n hn,
        Nat.zero_add]

theorem retry_delays_orders :
    (WebhookWorker.new DurableWorker.ordersDestination).deliver DurableWorker.busyAtFirst =
        ⟨[1, 2], [fromMillis 100], .delivered⟩ ∧
      some (fromMillis 100) = some (fromMillis
        ((DurableEndpoint.new DurableWorker.ordersDestination).retryDelayMs 2)) := by
  have hreport : (WebhookWorker.new DurableWorker.ordersDestination).deliver
      DurableWorker.busyAtFirst = ⟨[1, 2], [fromMillis 100], .delivered⟩ := by decide +kernel
  have hmade : 2 ≤ ((WebhookWorker.new DurableWorker.ordersDestination).deliver
      DurableWorker.busyAtFirst).attempts.length := by rw [hreport]; decide
  have hdelays := retry_delays DurableWorker.ordersDestination (by decide) (by decide) (by decide)
  have hwait := (hdelays.2.2 DurableWorker.busyAtFirst 2 (Nat.le_refl 2) hmade).2
  rw [hreport] at hwait
  exact ⟨hreport, hwait⟩

end Delays

end KafkaEdgeRouter.Webhook
