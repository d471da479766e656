import KafkaEdgeRouter.CrashRestart
import KafkaEdgeRouter.PartitionedLog
import KafkaEdgeRouter.ProgramViews
import KafkaEdgeRouter.RecordDecoder
import KafkaEdgeRouter.RouterOperations
import KafkaEdgeRouter.ThreadPool

/-!
# The source ingestor

The Kafka consumer loop of the daemon. A record is decoded, dispatched through the router and handed
to the pre-commit sinks one after the other; only then is a commit of its offset requested. Commit
requests are asynchronous: each may be applied at any later time or be lost. A process first builds
what its sinks need. From then on its transports make calls of the router for other connections,
while the loop goes on; dispatching is left to the loop, and the connections that the sinks own are
left to the sinks. Calls of the loop have the even numbers, those of the transports the odd ones.
-/

namespace KafkaEdgeRouter.Ingest

open Kafka

abbrev Partition : Type := String × ℕ

structure Cursor where
  partition : Partition
  offset : ℕ
  deriving DecidableEq

def Cursor.position (cursor : Cursor) : KafkaPosition :=
  ⟨cursor.partition.1, cursor.partition.2, cursor.offset⟩

structure Host (τ : Type) where
  router : Shared
  outside : τ

/-- A sink whose `persist` is a loop over points of its own. -/
structure PreCommitSink (τ ι κ : Type) where
  persist : RoutedMessage → κ
  pass : κ → Prog (Host τ) ι (Next κ (Except String Unit))

structure Ingestor (τ ι κ : Type) where
  router : RouterConfig
  maxPayloadBytes : ℕ
  commitInvalidMessages : Bool
  preCommitSinks : List (PreCommitSink τ ι κ)
  /-- Builds the sinks' state and tells how many calls of the router that took. -/
  build : Prog (Host τ) ι (Except String ℕ)
  owned : τ → List ConnectionId
  /-- The part of the sinks' state that outlives the process. -/
  durable : τ → τ
  draw : ι → ConnectionId
  order : ℕ → HashOrder

inductive Event
  | dispatched (cursor : Cursor)
  | persisted (cursor : Cursor) (sink : ℕ)
  | refused (cursor : Cursor) (reason : String)
  | invalid (cursor : Cursor) (error : DecodeError)
  deriving DecidableEq

structure World (τ : Type) where
  broker : Broker Partition SourceRecord
  requests : List Cursor
  shutdown : Watch Bool
  host : Host τ
  serving : Bool
  calls : List (RouterProg Response)
  history : List Event

inductive Wake
  | changed
  | record (partition : Partition)
  | receiveError (error : String)

structure Input (ι : Type) where
  wake : Wake
  reply : Reply
  host : ι

inductive Received
  | changed (isErr : Bool)
  | record (cursor : Cursor) (record : SourceRecord)
  | receiveError (error : String)

/-- The point at which the loop of the ingestor or of a sink begins its next pass. While a record
is in the hands of the sinks, `before` is the state in which they were given it. -/
inductive Control (τ κ : Type)
  | starting
  | receiving (serial : ℕ)
  | routing (serial : ℕ) (cursor : Cursor) (message : RoutedMessage)
  | persisting (serial : ℕ) (cursor : Cursor) (message : RoutedMessage) (before : τ) (sink : ℕ)
      (point : κ)
  | committing (serial : ℕ) (cursor : Cursor) (message : RoutedMessage) (before : τ)

namespace World

variable {τ : Type}

def new (outside : τ) : World τ :=
  ⟨.empty, [], .new false, ⟨.new, outside⟩, false, [], []⟩

def log (w : World τ) (e : Event) : World τ := { w with history := w.history ++ [e] }

def hostView : View (World τ) (Host τ) where
  get := World.host
  set host w := { w with host }
  get_set _ _ := rfl

def routerView : View (World τ) Shared where
  get w := w.host.router
  set router w := { w with host := { w.host with router } }
  get_set _ _ := rfl

end World

abbrev IngestProg (τ ι : Type) : Type → Type := Prog (World τ) (Input ι)

abbrev Outcome (τ κ : Type) : Type := Next (Control τ κ) (Except String Unit)

section Calls

variable {τ ι : Type}

def borrow : IngestProg τ ι Bool := Prog.read (fun w => w.shutdown.value)

def receives (i : Input ι) (w : World τ) : Bool :=
  match i.wake with
  | .changed => w.shutdown.canChange
  | .record partition => w.broker.position partition < (w.broker.log partition).length
  | .receiveError _ => true

def received (i : Input ι) (w : World τ) : Received × World τ :=
  match i.wake with
  | .changed => (.changed w.shutdown.changed.1, { w with shutdown := w.shutdown.changed.2 })
  | .record partition =>
    match (w.broker.log partition)[w.broker.position partition]? with
    | some record =>
      (.record ⟨partition, w.broker.position partition⟩ record,
        { w with broker := w.broker.receive partition })
    | none => (.receiveError "no record", w)
  | .receiveError error => (.receiveError error, w)

def receive : IngestProg τ ι Received := Prog.await receives received

/-- An asynchronous commit only hands the request over; a failure is logged and nothing else. -/
def commitMessage (cursor : Cursor) : IngestProg τ ι Unit :=
  Prog.await (fun _ _ => true) fun i w =>
    let requested := { w with requests := w.requests ++ [cursor] }
    match i.reply with
    | .done => ((), requested)
    | .failed _ applied => ((), if applied then requested else w)

end Calls

namespace Ingestor

variable {τ ι κ : Type} (I : Ingestor τ ι κ)

/-! ### The loop of `run` -/

def start : IngestProg τ ι (Outcome τ κ) := do
  match ← I.build.zoom World.hostView Input.host with
  | .error e => return .done (.error e)
  | .ok serial => do
    Prog.modify (fun w => { w with serving := true })
    return .again (.receiving serial)

def decode (cursor : Cursor) (record : SourceRecord) : Except DecodeError RoutedMessage :=
  decodeMessage cursor.position record I.maxPayloadBytes

def receiveRecord (serial : ℕ) : IngestProg τ ι (Outcome τ κ) := do
  if ← borrow then return .done (.ok ())
  else
    match ← receive with
    | .changed true => return .done (.ok ())
    | .changed false =>
      if ← borrow then return .done (.ok ()) else return .again (.receiving serial)
    | .record cursor record =>
      match I.decode cursor record with
      | .ok message => return .again (.routing serial cursor message)
      | .error e => do
        Prog.modify (fun w => w.log (.invalid cursor e))
        if I.commitInvalidMessages then do
          commitMessage cursor
          return .again (.receiving serial)
        else return .done (.ok ())
    | .receiveError _ => return .again (.receiving serial)

/-- The next sink gets the message, and after the last one the offset is committed. -/
def nextSink (serial : ℕ) (cursor : Cursor) (message : RoutedMessage) (before : τ) (sink : ℕ) :
    Control τ κ :=
  match I.preCommitSinks[sink]? with
  | some s => .persisting serial cursor message before sink (s.persist message)
  | none => .committing serial cursor message before

def route (serial : ℕ) (cursor : Cursor) (message : RoutedMessage) :
    IngestProg τ ι (Outcome τ κ) := do
  match ← (Router.serve I.router ⟨2 * serial, 0⟩ (I.order serial) (.dispatch message)).zoom
      World.routerView (fun i => I.draw i.host) with
  | .dispatched (.ok _) => do
    let before ← Prog.access (fun w => (w.host.outside, w.log (.dispatched cursor)))
    return .again (I.nextSink (serial + 1) cursor message before 0)
  | .dispatched (.error text) => return .done (.error text)
  | _ => return .done (.ok ())

def persist (serial : ℕ) (cursor : Cursor) (message : RoutedMessage) (before : τ) (sink : ℕ)
    (point : κ) : IngestProg τ ι (Outcome τ κ) :=
  match I.preCommitSinks[sink]? with
  | none => return .again (.committing serial cursor message before)
  | some s => do
    match ← (s.pass point).zoom World.hostView Input.host with
    | .again point => return .again (.persisting serial cursor message before sink point)
    | .done (.ok ()) => do
      Prog.modify (fun w => w.log (.persisted cursor sink))
      return .again (I.nextSink serial cursor message before (sink + 1))
    | .done (.error reason) => do
      Prog.modify (fun w => w.log (.refused cursor reason))
      return .done (.ok ())

def commit (serial : ℕ) (cursor : Cursor) : IngestProg τ ι (Outcome τ κ) := do
  commitMessage cursor
  return .again (.receiving serial)

def run : Control τ κ → IngestProg τ ι (Outcome τ κ)
  | .starting => I.start
  | .receiving serial => I.receiveRecord serial
  | .routing serial cursor message => I.route serial cursor message
  | .persisting serial cursor message before sink point =>
    I.persist serial cursor message before sink point
  | .committing serial cursor _ _ => commit serial cursor

end Ingestor

/-! ### Around the ingestor -/

inductive Outside
  | produce (partition : Partition) (record : SourceRecord)
  | commitApplied (cursor : Cursor)
  | commitLost (cursor : Cursor)
  | call (move : Move (HashOrder × Request) ConnectionId)
  | signal (value : Bool)
  | dropSender

/-- The request neither dispatches nor is about a connection that the sinks own. -/
def Foreign (owned : List ConnectionId) : Request → Bool
  | .register _ _ _ => true
  | .subscribe c _ _ => c ∉ owned
  | .unsubscribe c _ => c ∉ owned
  | .unregister c => c ∉ owned
  | .dispatch _ => false
  | .receive c => c ∉ owned
  | .close c => c ∉ owned

namespace Ingestor

variable {τ ι κ : Type} (I : Ingestor τ ι κ)

def client (k : ℕ) (task : HashOrder × Request) : RouterProg Response :=
  Router.thread I.router (2 * k + 1) task

def allowed (w : World τ) : Move (HashOrder × Request) ConnectionId → Bool
  | .spawn task => w.serving && Foreign (I.owned w.host.outside) task.2
  | .act _ _ => true

def environment : Outside → World τ → Option (World τ)
  | .produce partition record, w =>
    some { w with broker := w.broker.append partition record }
  | .commitApplied cursor, w =>
    if cursor ∈ w.requests then
      some { w with
        broker := w.broker.commit cursor.partition (cursor.offset + 1)
        requests := w.requests.erase cursor }
    else none
  | .commitLost cursor, w => some { w with requests := w.requests.erase cursor }
  | .call move, w =>
    if I.allowed w move then
      (Pool.move I.client ⟨w.host.router, w.calls⟩ move).map fun P =>
        { w with host := { w.host with router := P.shared }, calls := P.threads }
    else none
  | .signal value, w => some { w with shutdown := w.shutdown.send value }
  | .dropSender, w => some { w with shutdown := w.shutdown.drop }

/-- A started process has a new consumer, a new router and a new shutdown channel. -/
def boot (w : World τ) : World τ :=
  { w with
    broker := w.broker.rejoin
    shutdown := .new false
    host := ⟨.new, I.durable w.host.outside⟩
    serving := false
    calls := [] }

def system : System (World τ) (Input ι) Outside (Control τ κ) (Except String Unit) where
  environment := I.environment
  boot := I.boot
  entry := .starting
  pass := I.run

/-- The nodes that a daemon reaches in any run, whatever the sinks found at first. -/
def Reachable (n : Node (World τ) (Input ι) (Control τ κ) (Except String Unit)) : Prop :=
  ∃ outside moves, I.system.run ⟨.new outside, none⟩ moves = some n

end Ingestor
end KafkaEdgeRouter.Ingest
