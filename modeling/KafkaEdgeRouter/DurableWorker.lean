import KafkaEdgeRouter.BoundedChannel
import KafkaEdgeRouter.CrashRestart
import KafkaEdgeRouter.DurableRecord
import KafkaEdgeRouter.PartitionedLog
import Mathlib.Data.Finset.Card

/-!
# The durable webhook worker

One worker serves one destination from the delivery and retry topics. It recovers the retry topic
first, then serves both, and keeps the identifiers it has brought to an end since it was started.
Every call of Kafka, of the clock, of the shutdown channel and of the destination is one access
whose answer the input decides; a failed publish or commit may still have been applied. Around the
worker, commands are persisted, an operator replays dead letters, and other destinations and broken
producers write to the same topics.
-/

namespace KafkaEdgeRouter.Webhook

inductive Topic
  | delivery
  | retry
  | deadLetter
  deriving DecidableEq

/-- The number of partitions that the three topics share and the partitioner of the producers. -/
structure Cluster where
  partitions : ℕ
  partitionOf : String → ℕ
  partitionOf_lt : ∀ key, partitionOf key < partitions

structure DurableWorker where
  endpoint : DurableEndpoint
  deliveryTopic : String
  retryTopic : String
  deadLetterTopic : String
  maxRecordBytes : ℕ
  maxRecoveryRecords : ℕ
  cluster : Cluster
  /-- What the decoder says of a text that is no base64. -/
  decodeError : String → String

structure Cursor where
  topic : Topic
  partition : ℕ
  offset : ℕ
  deriving DecidableEq

def Cursor.key (cursor : Cursor) : Topic × ℕ := (cursor.topic, cursor.partition)

structure HttpRequest where
  body : List UInt8
  messageId : String
  attempt : ℕ
  deriving DecidableEq

inductive KafkaCall
  | subscribe
  | receive
  | assignment
  | publish
  | commit
  deriving DecidableEq

/-- What has happened around the destination. Commands and replays name their offset in the
destination's partition of the delivery topic. -/
inductive Event
  | command (deliveryId : String) (offset : ℕ) (acknowledged : Bool)
  | replayed (deliveryId : String) (offset : ℕ)
  | foreign (topic : Topic) (partition : ℕ)
  | signalled (value : Bool)
  | senderDropped
  | noticed
  | started
  | subscribed (topics : List Topic)
  | received (cursor : Cursor) (payload : Payload)
  | attempted (cursor : Cursor) (deliveryId : String) (request : HttpRequest)
  | answered (deliveryId : String) (outcome : AttemptOutcome)
  | acknowledged (topic : Topic) (deliveryId : String)
  | committed (cursor : Cursor)
  | failed (call : KafkaCall)
  deriving DecidableEq

structure World where
  broker : Broker (Topic × ℕ) Payload
  subscribed : List Topic
  present : Topic × ℕ → ℕ
  shutdown : Watch Bool
  history : List Event

def World.new : World := ⟨.empty, [], fun _ => 0, .new false, []⟩

def World.log (w : World) (e : Event) : World := { w with history := w.history ++ [e] }

def World.append (w : World) (key : Topic × ℕ) (payload : Payload) : World :=
  { w with broker := w.broker.append key payload }

def World.commit (w : World) (cursor : Cursor) : World :=
  { w with broker := w.broker.commit cursor.key (cursor.offset + 1) }

/-- The branch of a `select!` that completes. -/
inductive Wake
  | changed
  | message (topic : Topic) (partition : ℕ)
  | partitionEof (partition : ℕ)
  | receiveError (error : String)
  | slept

structure Input where
  now : ℕ := 0
  reply : Reply := .done
  assigned : ℕ := 0
  transport : Transport := .response 200
  wake : Wake := .slept

inductive Received
  | changed (isErr : Bool)
  | message (cursor : Cursor) (payload : Payload)
  | partitionEof (partition : ℕ)
  | receiveError (error : String)

structure Job where
  cursor : Cursor
  record : DurableRecord
  body : List UInt8
  inputCommitted : Bool

inductive Phase
  | starting
  | recovering (eofPartitions : Finset ℕ) (recovered : ℕ)
  | delivering

structure Control where
  phase : Phase
  completed : Finset String
  job : Option Job

abbrev WorkerProg : Type → Type := Prog World Input

abbrev Pass : Type := WorkerProg (Next Control (Except String Unit))

/-! ### Calls -/

def borrow : WorkerProg Bool := Prog.read (fun w => w.shutdown.value)

def clock : WorkerProg ℕ := Prog.await (fun _ _ => true) (fun i w => (min i.now u64Max, w))

def World.changed (w : World) : Bool × World :=
  (w.shutdown.changed.1, { w with shutdown := w.shutdown.changed.2 }.log .noticed)

def subscribe (topics : List Topic) (what : String) : WorkerProg (Except String Unit) :=
  Prog.await (fun _ _ => true) fun i w =>
    match i.reply with
    | .done =>
      (.ok (), { w with broker := w.broker.rejoin, subscribed := topics }.log (.subscribed topics))
    | .failed error _ => (.error s!"{what} failed: {error}", w.log (.failed .subscribe))

namespace DurableWorker

variable (W : DurableWorker)

def topicName : Topic → String
  | .delivery => W.deliveryTopic
  | .retry => W.retryTopic
  | .deadLetter => W.deadLetterTopic

/-- A partition has ended only where everything is received that was there at the start. -/
def receives (i : Input) (w : World) : Bool :=
  match i.wake with
  | .changed => w.shutdown.canChange
  | .message topic partition =>
    topic ∈ w.subscribed &&
      w.broker.position (topic, partition) < (w.broker.log (topic, partition)).length
  | .partitionEof partition =>
    partition < W.cluster.partitions &&
      w.subscribed.any fun topic =>
        w.present (topic, partition) ≤ w.broker.position (topic, partition)
  | .receiveError _ => true
  | .slept => false

def received (i : Input) (w : World) : Received × World :=
  match i.wake with
  | .message topic partition =>
    let cursor : Cursor := ⟨topic, partition, w.broker.position (topic, partition)⟩
    let payload := (w.broker.log cursor.key).getD cursor.offset .missing
    (.message cursor payload,
      { w with broker := w.broker.receive cursor.key }.log (.received cursor payload))
  | .partitionEof partition => (.partitionEof partition, w)
  | .receiveError error => (.receiveError error, w.log (.failed .receive))
  | _ => (.changed w.changed.1, w.changed.2)

/-- `recv` raced with the shutdown channel. -/
def receive : WorkerProg Received := Prog.await W.receives received

/-- The only member of its group is assigned every partition, or none yet. -/
def assignment : WorkerProg (Except String ℕ) :=
  Prog.await (fun i _ => i.assigned = 0 || i.assigned = W.cluster.partitions) fun i w =>
    match i.reply with
    | .done => (.ok i.assigned, w)
    | .failed error _ =>
      (.error s!"failed to inspect retry assignment: {error}", w.log (.failed .assignment))

def published (topic : Topic) (record : DurableRecord) (i : Input) (w : World) :
    Except String Unit × World :=
  let result := record.publication (W.topicName topic) W.maxRecordBytes i.reply
  let key := (topic, W.cluster.partitionOf record.destinationId)
  let w' := if result.2 then w.append key record.payload else w
  match result.1 with
  | .ok () => (.ok (), w'.log (.acknowledged topic record.deliveryId))
  | .error e => (.error e, w'.log (.failed .publish))

def publishRecord (topic : Topic) (record : DurableRecord) : WorkerProg (Except String Unit) :=
  Prog.await (fun _ _ => true) (W.published topic record)

end DurableWorker

def commitCursor (cursor : Cursor) : WorkerProg (Except String Unit) :=
  Prog.await (fun _ _ => true) fun i w =>
    match i.reply with
    | .done => (.ok (), (w.commit cursor).log (.committed cursor))
    | .failed error applied =>
      (.error s!"durable webhook offset commit failed: {error}",
        (if applied then (w.commit cursor).log (.committed cursor) else w).log (.failed .commit))

/-- `sleep` raced with the shutdown channel; the result says whether the wait was interrupted. -/
def interrupted : WorkerProg (Option Bool) :=
  Prog.await
    (fun i w =>
      match i.wake with
      | .changed => w.shutdown.canChange
      | .slept => true
      | _ => false)
    (fun i w =>
      match i.wake with
      | .changed => (some w.changed.1, w.changed.2)
      | _ => (none, w))

def remainingMs (nextAttemptAtMs now : ℕ) : ℕ := nextAttemptAtMs - now

def sleepUntil (nextAttemptAtMs : ℕ) : WorkerProg (Except String Unit) := do
  let now ← clock
  if remainingMs nextAttemptAtMs now = 0 then
    return .ok ()
  else
    match ← interrupted with
    | some true => return .error "shutdown interrupted durable retry wait"
    | some false =>
      if ← borrow then return .error "shutdown interrupted durable retry wait"
      else return .ok ()
    | none => return .ok ()

/-- The request leaves the worker, and later its outcome is known. -/
def sendAttempt (job : Job) : WorkerProg AttemptOutcome := do
  Prog.modify fun w =>
    w.log (.attempted job.cursor job.record.deliveryId
      ⟨job.body, job.record.originalMessageId, job.record.attempt⟩)
  Prog.await (fun _ _ => true) fun i w =>
    (attemptOutcome i.transport,
      w.log (.answered job.record.deliveryId (attemptOutcome i.transport)))

def rememberCompleted (completed : Finset String) (deliveryId : String) (limit : ℕ) :
    Except String (Finset String) :=
  if completed.card ≥ limit ∧ deliveryId ∉ completed then
    .error s!"completed retry set exceeded configured limit {limit}"
  else .ok (insert deliveryId completed)

namespace DurableWorker

variable (W : DurableWorker)

/-! ### The loop of `process` -/

def commitInput (job : Job) : WorkerProg (Except String Unit) :=
  if job.inputCommitted then return .ok () else commitCursor job.cursor

def finish (c : Control) (job : Job) : Pass :=
  match rememberCompleted c.completed job.record.deliveryId W.maxRecoveryRecords with
  | .error e => return .done (.error e)
  | .ok completed => return .again ⟨c.phase, completed, none⟩

def process (c : Control) (job : Job) : Pass :=
  (sleepUntil job.record.nextAttemptAtMs).tryThen fun _ => do
    match ← sendAttempt job with
    | .delivered _ => (commitInput job).tryThen fun _ => W.finish c job
    | .failed failure =>
      if W.endpoint.retries job.record failure then do
        let now ← clock
        let record := W.endpoint.retried job.record failure now
        (W.publishRecord .retry record).tryThen fun _ =>
          (commitInput job).tryThen fun _ =>
            return .again ⟨c.phase, c.completed, some { job with record, inputCommitted := true }⟩
      else
        let record := job.record.deadLettered failure
        (W.publishRecord .deadLetter record).tryThen fun _ =>
          (commitInput job).tryThen fun _ => W.finish c { job with record }

/-- `process` up to its loop. -/
def accept (c : Control) (cursor : Cursor) (record : DurableRecord) : Pass :=
  match Base64.decode record.bodyBase64.toList with
  | none =>
    let error := W.decodeError record.bodyBase64
    return .done (.error s!"invalid durable webhook body: {error}")
  | some body => return .again ⟨c.phase, c.completed, some ⟨cursor, record, body, false⟩⟩

/-! ### The loops of `recover_retries` and `run` -/

def startRecovery (c : Control) : Pass :=
  (subscribe [.retry] "retry recovery subscription").tryThen fun _ =>
    return .again ⟨.recovering ∅ 0, c.completed, none⟩

def startDelivery (c : Control) : Pass :=
  (subscribe [.delivery, .retry] "durable topic subscription").tryThen fun _ =>
    return .again ⟨.delivering, c.completed, none⟩

def recoverRetries (completed : Finset String) (eofPartitions : Finset ℕ) (recovered : ℕ) :
    Pass := do
  let c : Control := ⟨.recovering eofPartitions recovered, completed, none⟩
  if ← borrow then startDelivery c
  else
    match ← W.receive with
    | .changed true => startDelivery c
    | .changed false => if ← borrow then startDelivery c else return .again c
    | .message cursor payload =>
      let eofPartitions := eofPartitions.erase cursor.partition
      match fromMessage W.maxRecordBytes payload with
      | .error e => return .done (.error e)
      | .ok record =>
        if record.destinationId ≠ W.endpoint.id then
          (commitCursor cursor).tryThen fun _ =>
            return .again ⟨.recovering eofPartitions recovered, completed, none⟩
        else
          let recovered := min (recovered + 1) u64Max
          let limit := W.maxRecoveryRecords
          let c : Control := ⟨.recovering eofPartitions recovered, completed, none⟩
          if recovered > limit then
            return .done (.error s!"retry recovery exceeded configured limit {limit}")
          else if record.deliveryId ∈ completed then
            (commitCursor cursor).tryThen fun _ => return .again c
          else W.accept c cursor record
    | .partitionEof partition =>
      let eofPartitions := insert partition eofPartitions
      let c : Control := ⟨.recovering eofPartitions recovered, completed, none⟩
      W.assignment.tryThen fun assigned =>
        if assigned > 0 ∧ eofPartitions.card ≥ assigned then startDelivery c
        else return .again c
    | .receiveError error => return .done (.error s!"retry recovery receive failed: {error}")

def deliver (completed : Finset String) : Pass := do
  let c : Control := ⟨.delivering, completed, none⟩
  if ← borrow then return .done (.ok ())
  else
    match ← W.receive with
    | .changed true => return .done (.ok ())
    | .changed false => if ← borrow then return .done (.ok ()) else return .again c
    | .message cursor payload =>
      match fromMessage W.maxRecordBytes payload with
      | .error e => return .done (.error e)
      | .ok record =>
        if record.destinationId ≠ W.endpoint.id ∨ record.deliveryId ∈ completed then
          (commitCursor cursor).tryThen fun _ => return .again c
        else W.accept c cursor record
    | .partitionEof _ => return .again c
    | .receiveError _ => return .again c

/-- One pass of whichever loop `run` is in. -/
def run (c : Control) : Pass :=
  match c.job, c.phase with
  | some job, _ => W.process c job
  | none, .starting => startRecovery c
  | none, .recovering eofPartitions recovered =>
    W.recoverRetries c.completed eofPartitions recovered
  | none, .delivering => W.deliver c.completed

/-! ### Around the worker -/

def partition : ℕ := W.cluster.partitionOf W.endpoint.id

/-- The destination's record in a payload that `from_message` accepts. -/
def own (payload : Payload) : Option DurableRecord :=
  match fromMessage W.maxRecordBytes payload with
  | .ok record => if record.destinationId = W.endpoint.id then some record else none
  | .error _ => none

/-- What `persist` hands to `publish_record` for the destination, within the size limit. -/
def IsCommand (record : DurableRecord) : Prop :=
  record.schemaVersion = schemaVersion ∧ record.destinationId = W.endpoint.id ∧
    record.attempt = 1 ∧ record.nextAttemptAtMs ≤ u64Max ∧ record.lastErrorClass = none ∧
    record.state = .delivery ∧ record.size ≤ W.maxRecordBytes

instance (record : DurableRecord) : Decidable (W.IsCommand record) := by
  unfold IsCommand
  infer_instance

end DurableWorker

def Event.commandId : Event → Option String
  | .command deliveryId _ _ => some deliveryId
  | _ => none

def World.fresh (w : World) (deliveryId : String) : Bool :=
  w.history.all (fun e => e.commandId ≠ some deliveryId)

inductive Outside
  | persist (record : DurableRecord) (reply : Reply)
  | foreign (topic : Topic) (partition : ℕ) (payload : Payload)
  | replay (offset : ℕ) (now : ℕ)
  | signal (value : Bool)
  | dropSender

namespace DurableWorker

variable (W : DurableWorker)

def addCommand (w : World) (record : DurableRecord) (acknowledged : Bool) : World :=
  (w.append (.delivery, W.partition) record.payload).log
    (.command record.deliveryId (w.broker.log (.delivery, W.partition)).length acknowledged)

def outside : Outside → World → Option World
  | .persist record reply, w =>
    if W.IsCommand record ∧ w.fresh record.deliveryId then
      match reply with
      | .done => some (W.addCommand w record true)
      | .failed _ applied => some (if applied then W.addCommand w record false else w)
    else none
  | .foreign topic partition payload, w =>
    if W.own payload = none then
      some ((w.append (topic, partition) payload).log (.foreign topic partition))
    else none
  | .replay offset now, w =>
    match ((w.broker.log (.deadLetter, W.partition))[offset]?).bind W.own with
    | some record =>
      let target := (.delivery, W.partition)
      some ((w.append target (record.replayed now).payload).log
        (.replayed record.deliveryId (w.broker.log target).length))
    | none => none
  | .signal value, w =>
    some ({ w with shutdown := w.shutdown.send value }.log (.signalled value))
  | .dropSender, w =>
    some ({ w with shutdown := w.shutdown.drop }.log .senderDropped)

/-- A started process has a new consumer and a new shutdown channel. -/
def boot (w : World) : World :=
  { w with
    broker := w.broker.rejoin
    subscribed := []
    present := fun key => (w.broker.log key).length
    shutdown := .new false }.log .started

def system : System World Input Outside Control (Except String Unit) where
  environment := W.outside
  boot := boot
  entry := ⟨.starting, ∅, none⟩
  pass := W.run

end DurableWorker
end KafkaEdgeRouter.Webhook
