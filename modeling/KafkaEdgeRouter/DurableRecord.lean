import KafkaEdgeRouter.Base64
import KafkaEdgeRouter.JsonText
import KafkaEdgeRouter.Messages
import KafkaEdgeRouter.PartitionedLog

/-!
# Durable webhook records

The version 1 command that a durable destination keeps in Kafka, the JSON text it is written as,
what a consumed record is accepted for, and how a failed attempt changes the record before it is
handed on to the retry or to the dead-letter topic.
-/

namespace KafkaEdgeRouter.Webhook

def u32Max : ℕ := 2 ^ 32 - 1

def u64Max : ℕ := 2 ^ 64 - 1

inductive RecordState
  | delivery
  | retry
  | deadLetter
  deriving DecidableEq

def RecordState.name : RecordState → String
  | .delivery => "delivery"
  | .retry => "retry"
  | .deadLetter => "dead_letter"

inductive FailureClass
  | timeout
  | connect
  | request
  | http429
  | http5xx
  | permanentHttp
  | client
  | invalidRecord
  deriving DecidableEq

def FailureClass.name : FailureClass → String
  | .timeout => "timeout"
  | .connect => "connect"
  | .request => "request"
  | .http429 => "http429"
  | .http5xx => "http5xx"
  | .permanentHttp => "permanent_http"
  | .client => "client"
  | .invalidRecord => "invalid_record"

structure DurableRecord where
  schemaVersion : ℕ
  deliveryId : String
  destinationId : String
  originalMessageId : String
  bodyBase64 : String
  attempt : ℕ
  nextAttemptAtMs : ℕ
  lastErrorClass : Option FailureClass
  sourceTopic : Option String
  sourcePartition : Option ℤ
  sourceOffset : Option ℤ
  traceContext : Option TraceContext
  state : RecordState
  deriving DecidableEq

def schemaVersion : ℕ := 1

def traceJson (context : TraceContext) : List Char :=
  Json.object [("traceparent", Json.string context.traceparent),
    ("tracestate", Json.option Json.string context.tracestate)]

/-- An absent trace context is left out; every other absent field is written as `null`. -/
def DurableRecord.toJson (record : DurableRecord) : List Char :=
  Json.object ([("schema_version", Json.natural record.schemaVersion),
    ("delivery_id", Json.string record.deliveryId),
    ("destination_id", Json.string record.destinationId),
    ("original_message_id", Json.string record.originalMessageId),
    ("body_base64", Json.string record.bodyBase64),
    ("attempt", Json.natural record.attempt),
    ("next_attempt_at_ms", Json.natural record.nextAttemptAtMs),
    ("last_error_class", Json.option (fun c => Json.string c.name) record.lastErrorClass),
    ("source_topic", Json.option Json.string record.sourceTopic),
    ("source_partition", Json.option Json.integer record.sourcePartition),
    ("source_offset", Json.option Json.integer record.sourceOffset)] ++
    record.traceContext.toList.map (fun context => ("trace_context", traceJson context)) ++
    [("state", Json.string record.state.name)])

def DurableRecord.size (record : DurableRecord) : ℕ := Json.size record.toJson

/-- What a Kafka record carries: nothing, or bytes of a length and what the JSON parser makes of
them. -/
inductive Payload
  | missing
  | bytes (length : ℕ) (parsed : Except String DurableRecord)
  deriving DecidableEq

/-- The parser reads back what the serializer wrote. -/
def DurableRecord.payload (record : DurableRecord) : Payload := .bytes record.size (.ok record)

/-- What `publish_record` returns, and whether the record is in the topic then. The size is checked
before anything is sent. -/
def DurableRecord.publication (record : DurableRecord) (topic : String) (maxRecordBytes : ℕ)
    (reply : Reply) : Except String Unit × Bool :=
  let size := record.size
  if size > maxRecordBytes then
    (.error s!"serialized durable webhook record is {size} bytes, limit is {maxRecordBytes}", false)
  else
    match reply with
    | .done => (.ok (), true)
    | .failed error applied => (.error s!"Kafka publication to {topic} failed: {error}", applied)

def fromMessage (maxRecordBytes : ℕ) : Payload → Except String DurableRecord
  | .missing => .error "durable webhook record has no payload"
  | .bytes length parsed =>
    if length > maxRecordBytes then
      .error s!"durable webhook record is {length} bytes, limit is {maxRecordBytes}"
    else
      match parsed with
      | .error reason => .error s!"invalid durable webhook record: {reason}"
      | .ok record =>
        if record.schemaVersion ≠ schemaVersion then
          let version := record.schemaVersion
          .error s!"unsupported durable webhook schema version {version}"
        else .ok record

/-- Whatever is accepted is a readable record of the current version. -/
theorem fromMessage_ok {maxRecordBytes : ℕ} {payload : Payload} {record : DurableRecord}
    (h : fromMessage maxRecordBytes payload = .ok record) :
    ∃ length ≤ maxRecordBytes, payload = .bytes length (.ok record) ∧
      record.schemaVersion = schemaVersion := by
  cases payload with
  | missing => cases h
  | bytes length parsed =>
    simp only [fromMessage] at h
    split_ifs at h with hlength
    cases parsed with
    | error reason => cases h
    | ok parsed =>
      simp only at h
      split_ifs at h with hversion
      cases h
      exact ⟨length, Nat.not_lt.mp hlength, rfl, not_not.mp hversion⟩

theorem fromMessage_payload {maxRecordBytes : ℕ} {record : DurableRecord}
    (hsize : record.size ≤ maxRecordBytes) (hversion : record.schemaVersion = schemaVersion) :
    fromMessage maxRecordBytes record.payload = .ok record := by
  simp [fromMessage, DurableRecord.payload, Nat.not_lt.mpr hsize, hversion]

theorem fromMessage_payload_eq {maxRecordBytes : ℕ} {record record' : DurableRecord}
    (h : fromMessage maxRecordBytes record.payload = .ok record') : record' = record := by
  obtain ⟨length, _, hpayload, _⟩ := fromMessage_ok h
  simp only [DurableRecord.payload, Payload.bytes.injEq, Except.ok.injEq] at hpayload
  exact hpayload.2.symm

structure DurableEndpoint where
  id : String
  maxAttempts : ℕ
  initialBackoffMs : ℕ
  maxBackoffMs : ℕ

/-- What comes of building a client for the checked addresses and of sending one request. -/
inductive Transport
  | unresolved
  | response (status : ℕ)
  | error (isTimeout isConnect isRequest : Bool)

inductive AttemptOutcome
  | delivered (status : ℕ)
  | failed (failure : FailureClass)
  deriving DecidableEq

def isSuccess (status : ℕ) : Bool := 200 ≤ status && status < 300

def isServerError (status : ℕ) : Bool := 500 ≤ status && status < 600

def retryableStatus (status : ℕ) : Bool :=
  status == 408 || status == 425 || status == 429 || isServerError status

def attemptOutcome : Transport → AttemptOutcome
  | .unresolved => .failed .connect
  | .response status =>
    if isSuccess status then .delivered status
    else if status == 429 then .failed .http429
    else if retryableStatus status then .failed .http5xx
    else .failed .permanentHttp
  | .error isTimeout isConnect isRequest =>
    if isTimeout then .failed .timeout
    else if isConnect then .failed .connect
    else if isRequest then .failed .request
    else .failed .client

def shouldRetry : FailureClass → Bool
  | .timeout | .connect | .request | .http429 | .http5xx => true
  | _ => false

def doubled (maximum : ℕ) : ℕ → ℕ → ℕ
  | 0, delay => delay
  | n + 1, delay => doubled maximum n (min (min (delay * 2) u64Max) maximum)

def DurableEndpoint.retryDelayMs (endpoint : DurableEndpoint) (nextAttempt : ℕ) : ℕ :=
  min (doubled endpoint.maxBackoffMs (nextAttempt - 2) endpoint.initialBackoffMs)
    endpoint.maxBackoffMs

def DurableEndpoint.retries (endpoint : DurableEndpoint) (record : DurableRecord)
    (failure : FailureClass) : Bool :=
  shouldRetry failure && record.attempt < endpoint.maxAttempts

def DurableEndpoint.retried (endpoint : DurableEndpoint) (record : DurableRecord)
    (failure : FailureClass) (now : ℕ) : DurableRecord :=
  let attempt := min (record.attempt + 1) u32Max
  { record with
    attempt := attempt
    nextAttemptAtMs := min (now + endpoint.retryDelayMs attempt) u64Max
    lastErrorClass := some failure
    state := .retry }

def DurableRecord.deadLettered (record : DurableRecord) (failure : FailureClass) : DurableRecord :=
  { record with lastErrorClass := some failure, state := .deadLetter }

/-- Records of one command: what tells commands apart is the same. -/
def DurableRecord.SameCommand (record record' : DurableRecord) : Prop :=
  record.deliveryId = record'.deliveryId ∧ record.destinationId = record'.destinationId ∧
    record.schemaVersion = record'.schemaVersion

theorem DurableEndpoint.sameCommand_retried (endpoint : DurableEndpoint) (record : DurableRecord)
    (failure : FailureClass) (now : ℕ) : (endpoint.retried record failure now).SameCommand record :=
  ⟨rfl, rfl, rfl⟩

theorem DurableRecord.sameCommand_deadLettered (record : DurableRecord) (failure : FailureClass) :
    (record.deadLettered failure).SameCommand record :=
  ⟨rfl, rfl, rfl⟩

/-- The record that an operator republishes from the dead-letter topic. -/
def DurableRecord.replayed (record : DurableRecord) (now : ℕ) : DurableRecord :=
  { record with state := .delivery, attempt := 1, nextAttemptAtMs := now, lastErrorClass := none }

end KafkaEdgeRouter.Webhook
