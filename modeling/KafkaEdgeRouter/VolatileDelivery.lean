import KafkaEdgeRouter.WebhookRuntime

/-!
# Volatile webhook delivery

A volatile worker attempts a delivery in a loop of its own, with its own classification of what
comes of a request and its own backoff. Durations are counted in nanoseconds. What only goes to the
log is left out.
-/

namespace KafkaEdgeRouter.Webhook

/-- The longest `Duration`, in nanoseconds. -/
def durationMax : ℕ := 2 ^ 64 * 10 ^ 9 - 1

def fromMillis (millis : ℕ) : ℕ := millis * 10 ^ 6

def saturatingMul (duration factor : ℕ) : ℕ := min (duration * factor) durationMax

structure WebhookWorker where
  maxAttempts : ℕ
  initialBackoff : ℕ
  maxBackoff : ℕ

def WebhookWorker.new (config : WebhookDestinationConfig) : WebhookWorker where
  maxAttempts := max config.maxAttempts 1
  initialBackoff := fromMillis (max config.initialBackoffMs 1)
  maxBackoff := fromMillis (max config.maxBackoffMs (max config.initialBackoffMs 1))

inductive AttemptResult
  | delivered (status : ℕ)
  | retryable
  | permanent
  deriving DecidableEq

def attemptResult : Transport → AttemptResult
  | .unresolved => .permanent
  | .response status =>
    if isSuccess status then .delivered status
    else if retryableStatus status then .retryable
    else .permanent
  | .error isTimeout isConnect isRequest =>
    if isTimeout || isConnect || isRequest then .retryable else .permanent

inductive Ending
  | delivered
  | failed
  deriving DecidableEq

/-- The numbers of the attempts that were made, the waits before the second and later ones, and how
the delivery ended. -/
structure Report where
  attempts : List ℕ
  waits : List ℕ
  ending : Ending
  deriving DecidableEq

def Report.before (report : Report) (attempt wait : ℕ) : Report :=
  ⟨attempt :: report.attempts, wait :: report.waits, report.ending⟩

def Report.last (attempt : ℕ) (ending : Ending) : Report := ⟨[attempt], [], ending⟩

namespace WebhookWorker

variable (worker : WebhookWorker)

/-- The loop over the attempt numbers that are left, with the results still to come. -/
def deliverFrom : ℕ → ℕ → ℕ → (ℕ → Transport) → Report
  | 0, _, _, _ => ⟨[], [], .failed⟩
  | left + 1, attempt, delay, results =>
    match attemptResult (results 0) with
    | .delivered _ => .last attempt .delivered
    | .permanent => .last attempt .failed
    | .retryable =>
      if attempt < worker.maxAttempts then
        (deliverFrom left (attempt + 1) (min (saturatingMul delay 2) worker.maxBackoff)
          (fun n => results (n + 1))).before attempt delay
      else .last attempt .failed

def deliver (results : ℕ → Transport) : Report :=
  worker.deliverFrom worker.maxAttempts 1 worker.initialBackoff results

end WebhookWorker
end KafkaEdgeRouter.Webhook
