import KafkaEdgeRouter.CredentialTenants
import KafkaEdgeRouter.ProgramNotes
import KafkaEdgeRouter.RouterOperations
import KafkaEdgeRouter.VolatileDelivery

/-!
# Streaming sessions

The sessions behind WebSocket connections, SSE streams and gRPC streams and the workers of volatile
webhooks, as threads over one router and one rate limiter. What a session meets is its script: which
branch of its loop is taken next, what the client sends, whether the client still takes what is sent
and what comes of a webhook's requests. A script that has come to its end leaves the session
waiting. When a session ends, however it ends, its guard unregisters the connection. Every session
keeps a transcript of what it was asked, what it took from its queue and what it sent; no operation
reads it.

Beside the sessions, requests to publish add records to the source topic, as others do, and records
are taken from it to be decoded and dispatched. Records are ingested by threads of their own, in any
order and any number of times, which is more than the one loop over the topic does.
-/

namespace KafkaEdgeRouter.Stream

open Api

inductive Arrival
  | websocket (now : ℕ) (headers : Credentials) (query : ConnectionQuery)
  | sse (now : ℕ) (headers : Credentials) (lastEventId : HeaderValue) (query : SseQuery)
  | subscribe (now : ℕ) (metadata : Credentials) (request : SubscribeRequest)
  | connect (now : ℕ) (metadata : Credentials)
  | webhook (destination : Webhook.WebhookDestinationConfig)

/-- What the client wants of the subscriptions of its connection. The request for an SSE stream or
a gRPC server stream is such a command by itself. -/
inductive Command
  | text (text : WsText)
  | binary
  | stream (fields : FilterFields)
  | grpc (command : ClientCommand)

inductive Frame
  | ws (frame : WsFrame)
  | sse (frame : SseFrame)
  | grpc (frame : GrpcFrame)

inductive Line
  | arrived (arrival : Arrival)
  | opened (connection : ConnectionId) (principal : Principal)
  | takes (command : Command)
  | got (delivery : Delivery)
  /-- The queue is empty and has no sender left. -/
  | drained
  | sends (frame : Frame)
  | subscribed (subscriptionId : SubscriptionId)
  | posts (delivery : Delivery) (attempt : ℕ)
  | answered (result : Webhook.AttemptResult)

structure Stored where
  position : KafkaPosition
  record : Kafka.SourceRecord
  /-- It was sent by the publisher of this process; no operation reads this. -/
  ours : Bool

/-- The transcripts are kept by thread. -/
structure Server where
  router : Shared
  limiter : RateState
  transcripts : ℕ → List Line
  topic : List Stored

/-- What an access may draw from its surroundings: a random identifier and the readings of the
clock by the limiter of the process and by the limiter of the connection. -/
structure Draw where
  id : ConnectionId
  clock : Readings
  connectionClock : Readings

abbrev ServerProg := Prog Server Draw

def routerView : View Server Shared where
  get := Server.router
  set router w := { w with router }
  get_set _ _ := rfl

def Server.note (t : ℕ) (line : Line) (w : Server) : Server :=
  { w with transcripts := Function.update w.transcripts t (w.transcripts t ++ [line]) }

def note (t : ℕ) (line : Line) : ServerProg Unit := Prog.modify (Server.note t line)

/-- The client may be gone when something is sent. -/
def send (t : ℕ) (taken : Bool) (frame : Frame) : ServerProg Unit :=
  if taken then note t (.sends frame) else return ()

def registration : Response → Except CoreError ConnectionId
  | .registered result => result
  | _ => .error .connectionLimitReached

def settlement : Response → Except CoreError Unit
  | .settled result => result
  | _ => .error .connectionNotFound

def received (t : ℕ) (delivery : Option Delivery) : Server → Server :=
  Server.note t (match delivery with
    | some delivery => .got delivery
    | none => .drained)

def recv (t : ℕ) (c : ConnectionId) : ServerProg (Option Delivery) :=
  (Router.receive c).annotate routerView Draw.id (received t)

inductive WsTurn
  | delivery (taken : Bool)
  | incoming (message : Option WsMessage) (taken : Bool)

inductive StreamTurn
  | delivery
  | dropped

inductive ConnectTurn
  | delivery
  | command (command : ClientCommand)
  | finished
  | failed (status : Status)
  | dropped

/-- A delivery is taken and attempted with these results. The worker may be dropped meanwhile, after
so many lines of its transcript. -/
inductive WebhookTurn
  | delivery (shutdown : Bool) (results : ℕ → Webhook.Transport) (dropped : Option ℕ)
  /-- The shutdown is seen, or the worker is dropped, between two deliveries. -/
  | stopped

/-- The payload limit is the one of the consumer. -/
structure Service where
  api : ApiState
  router : RouterConfig
  maxPayloadBytes : ℕ

def filterFields (filter : RouteFilter) : FilterFields where
  kind := filter.kind
  messageType := filter.messageType
  channel := filter.channel
  actorId := filter.actorId
  recipientType := filter.recipientType
  recipientIdentity := filter.recipientIdentity

def webhookPrincipal (destination : Webhook.WebhookDestinationConfig) : Principal :=
  ⟨destination.filter.tenantId, true, false⟩

namespace Service

variable (S : Service) (t : ℕ) (order : HashOrder)

def call (n : ℕ) (request : Request) : ServerProg Response :=
  (Router.serve S.router ⟨t, n⟩ order request).zoom routerView Draw.id

def allowRate (tenantId : String) (kind : RateKind) : ServerProg Bool := do
  let allowed ← Prog.await (fun _ _ => true) (fun draw w =>
    let (allowed, limiter) :=
      AbuseLimiter.allow S.api.config draw.clock tenantId kind w.limiter
    (allowed, { w with limiter }))
  if allowed then return true
  else do
    Prog.modify (fun w =>
      { w with router := w.router.count Counters.recordSecurityLimitRejection })
    return false

/-! ### WebSocket -/

def readConnectionClock : ServerProg Readings :=
  Prog.await (fun _ _ => true) (fun draw w => (draw.connectionClock, w))

/-- The limiter of the connection is asked first. -/
def allowCommand (principal : Principal) (limiter : CommandRateLimiter) :
    ServerProg (Bool × CommandRateLimiter) := do
  let clock ← readConnectionClock
  let (accepted, limiter) := limiter.allow clock
  if accepted then do
    let allowed ← S.allowRate principal.tenantId .command
    return (allowed, limiter)
  else return (false, limiter)

def handleWsCommand (n : ℕ) (principal : Principal) (c : ConnectionId) :
    WsText → ServerProg WsReply
  | .malformed => return .error "invalid_json" "command is not valid JSON"
  | .mismatched => return .error "invalid_command" "command does not match the protocol"
  | .command (.subscribe subscriptionId filter) =>
    match SubscriptionId.new subscriptionId with
    | .error _ => return .error "invalid_subscription_id" "subscription_id is invalid"
    | .ok sid =>
      match filter with
      | none => return .error "invalid_filter" "filter is invalid"
      | some filter =>
        match filter.intoFilter principal with
        | .error .forbidden => return .error "tenant_mismatch" "filter tenant is not authorized"
        | .error _ => return .error "invalid_filter" "filter is invalid"
        | .ok filter => do
          match settlement (← S.call t order n (.subscribe c sid filter)) with
          | .ok () => return .subscribed sid
          | .error e => return wsSubscribeError e
  | .command (.unsubscribe subscriptionId) =>
    match SubscriptionId.new subscriptionId with
    | .error _ => return .error "invalid_subscription_id" "subscription_id is invalid"
    | .ok sid => do
      match settlement (← S.call t order n (.unsubscribe c sid)) with
      | .ok () => return .unsubscribed sid
      | .error e => return wsUnsubscribeError e
  | .command (.ping opaqueText) => return .pong opaqueText

def answer (n : ℕ) (principal : Principal) (c : ConnectionId) (allowed : Bool) (command : Command) :
    ServerProg WsReply :=
  match allowed, command with
  | true, .text text => S.handleWsCommand t order n principal c text
  | true, _ => return wsBinary
  | false, _ => return wsRateLimited

def commandTurn (principal : Principal) (c : ConnectionId) (limiter : CommandRateLimiter) (n : ℕ)
    (command : Command) (taken : Bool) : ServerProg (Next (CommandRateLimiter × ℕ) ℕ) := do
  note t (.takes command)
  let (allowed, limiter) ← S.allowCommand principal limiter
  let reply ← S.answer t order n principal c allowed command
  if taken then do
    note t (.sends (.ws (.reply reply)))
    return .again (limiter, n + 1)
  else return .done (n + 1)

def websocketTurn (principal : Principal) (c : ConnectionId) :
    CommandRateLimiter × ℕ → WsTurn → ServerProg (Next (CommandRateLimiter × ℕ) ℕ)
  | (limiter, n), .delivery taken => do
    match ← recv t c with
    | none => do
      send t taken (.ws (.close (some slowConsumer)))
      return .done n
    | some delivery =>
      if taken then do
        note t (.sends (.ws (.delivery delivery)))
        return .again (limiter, n)
      else return .done n
  | (_, n), .incoming none _ => return .done n
  | (limiter, n), .incoming (some (.text text)) taken =>
    S.commandTurn t order principal c limiter n (.text text) taken
  | (limiter, n), .incoming (some .binary) taken =>
    S.commandTurn t order principal c limiter n .binary taken
  | (limiter, n), .incoming (some (.ping payload)) taken =>
    if taken then do
      note t (.sends (.ws (.pong payload)))
      return .again (limiter, n)
    else return .done n
  | (limiter, n), .incoming (some .pong) _ => return .again (limiter, n)
  | (_, n), .incoming (some (.close frame)) taken => do
    send t taken (.ws (.close frame))
    return .done n
  | (_, n), .incoming (some (.failed oversized)) taken => do
    send t taken (.ws (.close (some (wsTransportClose oversized))))
    return .done n

/-- The receiver goes before the guard. -/
def websocketSession (principal : Principal) (queueCapacity : ℕ) (script : List WsTurn) :
    ServerProg Unit := do
  match registration (← S.call t order 0
      (.register principal.tenantId .webSocket (some queueCapacity))) with
  | .error _ => return ()
  | .ok c => do
    note t (.opened c principal)
    let clock ← readConnectionClock
    let limiter : CommandRateLimiter := ⟨clock.now, 0, S.api.config.wsMaxCommandsPerSecond⟩
    let n ← Prog.follow (S.websocketTurn t order principal c) (limiter, 1) script
    let _ ← S.call t order n (.close c)
    let _ ← S.call t order (n + 1) (.unregister c)
    return ()

/-! ### Streams with one subscription -/

/-- The guard goes before the receiver. -/
def leaveStream (n : ℕ) (c : ConnectionId) : ServerProg Unit := do
  let _ ← S.call t order n (.unregister c)
  let _ ← S.call t order (n + 1) (.close c)
  return ()

def streamTurn (event : Delivery → Frame) (c : ConnectionId) :
    Unit → StreamTurn → ServerProg (Next Unit Unit)
  | _, .dropped => return .done ()
  | _, .delivery => do
    match ← recv t c with
    | none => return .done ()
    | some delivery => do
      note t (.sends (event delivery))
      return .again ()

def streamSession (protocol : DeliveryProtocol) (response : SubscriptionId → Frame)
    (event : Delivery → Frame) (plan : ApiState.StreamPlan) (fields : FilterFields)
    (script : List StreamTurn) : ServerProg (Except CoreError Unit) := do
  match registration (← S.call t order 0
      (.register plan.principal.tenantId protocol (some plan.queueCapacity))) with
  | .error e => return .error e
  | .ok c => do
    note t (.opened c plan.principal)
    note t (.takes (.stream fields))
    match settlement (← S.call t order 1 (.subscribe c plan.subscriptionId plan.filter)) with
    | .error e => do
      S.leaveStream t order 2 c
      return .error e
    | .ok () => do
      note t (.sends (response plan.subscriptionId))
      Prog.follow (streamTurn t event c) () script
      S.leaveStream t order 2 c
      return .ok ()

def sseSession (plan : ApiState.StreamPlan) (query : SseQuery) (script : List StreamTurn) :
    ServerProg (Except ApiError Unit) := do
  let result ← S.streamSession t order .sse (fun sid => .sse (.response sid))
    (fun delivery => .sse (.event delivery)) plan query.toFilterFields script
  return result.mapError fun e => .badRequest e.display

def subscribeSession (plan : ApiState.StreamPlan) (filter : ProtoRouteFilter)
    (script : List StreamTurn) : ServerProg (Except Status Unit) := do
  let result ← S.streamSession t order .grpc (fun sid => .grpc (.response sid))
    (fun delivery => .grpc (.event (.message delivery))) plan filter.toFilterFields script
  return result.mapError Status.ofCore

/-! ### gRPC streams in both directions -/

def grpcSubscribe (n : ℕ) (principal : Principal) (c : ConnectionId) (subscriptionId : String)
    (filter : Option ProtoRouteFilter) : ServerProg (Except Status ServerEvent) :=
  match SubscriptionId.new subscriptionId with
  | .error e => return .error (.ofCore e)
  | .ok sid =>
    match filter with
    | none => return .error (.invalidArgument "filter is required")
    | some filter =>
      match protoFilter filter principal with
      | .error e => return .error e.intoStatus
      | .ok filter => do
        match settlement (← S.call t order n (.subscribe c sid filter)) with
        | .error e => return .error (.ofCore e)
        | .ok () => return .ok (.ack "subscribed" sid.value)

def grpcUnsubscribe (n : ℕ) (c : ConnectionId) (subscriptionId : String) :
    ServerProg (Except Status ServerEvent) :=
  match SubscriptionId.new subscriptionId with
  | .error e => return .error (.ofCore e)
  | .ok sid => do
    match settlement (← S.call t order n (.unsubscribe c sid)) with
    | .error e => return .error (.ofCore e)
    | .ok () => return .ok (.ack "unsubscribed" sid.value)

def connectCommand (n : ℕ) (principal : Principal) (c : ConnectionId) (command : ClientCommand) :
    ServerProg (Except Status ServerEvent) := do
  let allowed ← S.allowRate principal.tenantId .command
  if allowed then
    match command with
    | .subscribe subscriptionId filter =>
      S.grpcSubscribe t order n principal c subscriptionId filter
    | .unsubscribe subscriptionId => S.grpcUnsubscribe t order n c subscriptionId
    | .ping opaqueText => return .ok (.pong opaqueText)
    | .none => return .error (.invalidArgument "command is required")
  else return .error ⟨.resourceExhausted, "rate limit exceeded"⟩

def connectTurn (principal : Principal) (c : ConnectionId) :
    ℕ → ConnectTurn → ServerProg (Next ℕ (ℕ × Except Status Unit))
  | n, .delivery => do
    match ← recv t c with
    | none => return .done (n, .ok ())
    | some delivery => do
      note t (.sends (.grpc (.event (.message delivery))))
      return .again n
  | n, .command command => do
    note t (.takes (.grpc command))
    match ← S.connectCommand t order n principal c command with
    | .error status => return .done (n + 1, .error status)
    | .ok event => do
      note t (.sends (.grpc (.event event)))
      return .again (n + 1)
  | n, .finished => return .done (n, .ok ())
  | n, .failed status => return .done (n, .error status)
  | n, .dropped => return .done (n, .ok ())

def connectSession (principal : Principal) (script : List ConnectTurn) :
    ServerProg (Except Status Unit) := do
  match registration (← S.call t order 0
      (.register principal.tenantId .grpc (some S.api.config.streamQueueCapacity))) with
  | .error e => return .error (.ofCore e)
  | .ok c => do
    note t (.opened c principal)
    let (n, result) ← Prog.follow (S.connectTurn t order principal c) 1 script
    S.leaveStream t order n c
    return result

/-! ### Volatile webhooks -/

def course (delivery : Delivery) : List ℕ → (ℕ → Webhook.Transport) → List Line
  | [], _ => []
  | attempt :: rest, results =>
    .posts delivery attempt :: .answered (Webhook.attemptResult (results 0)) ::
      course delivery rest (fun n => results (n + 1))

def noteAll : List Line → ServerProg Unit
  | [] => return ()
  | line :: rest => do
    note t line
    noteAll rest

def webhookTurn (worker : Webhook.WebhookWorker) (c : ConnectionId) :
    Unit → WebhookTurn → ServerProg (Next Unit (Except String Unit))
  | _, .stopped => return .done (.ok ())
  | _, .delivery shutdown results dropped => do
    match ← recv t c with
    | none => return .done (if shutdown then .ok () else .error "core delivery queue closed")
    | some delivery =>
      let lines := course delivery (worker.deliver results).attempts results
      match dropped with
      | none => do
        noteAll t lines
        return .again ()
      | some count => do
        noteAll t (lines.take count)
        return .done (.ok ())

def webhookSession (destination : Webhook.WebhookDestinationConfig) (script : List WebhookTurn) :
    ServerProg (Except String Unit) := do
  let refused (e : CoreError) : Except String Unit :=
    .error (Webhook.WebhookError.registration destination.id e.display).display
  match registration (← S.call t order 0 (.register destination.filter.tenantId .httpWebhook
      (some destination.queueCapacity))) with
  | .error e => return refused e
  | .ok c => do
    note t (.opened c (webhookPrincipal destination))
    match SubscriptionId.new (Webhook.WebhookRuntime.subscriptionName destination.id) with
    | .error e => do
      S.leaveStream t order 1 c
      return refused e
    | .ok sid => do
      note t (.takes (.stream (filterFields destination.filter)))
      match settlement (← S.call t order 1 (.subscribe c sid destination.filter)) with
      | .error e => do
        S.leaveStream t order 2 c
        return refused e
      | .ok () => do
        note t (.subscribed sid)
        let result ← Prog.follow (webhookTurn t (Webhook.WebhookWorker.new destination) c) () script
        S.leaveStream t order 2 c
        return result

/-! ### Messages -/

def store (stored : Stored) : ServerProg Unit :=
  Prog.modify (fun w => { w with topic := w.topic ++ [stored] })

/-- A request to publish up to the point where the publisher has the command. -/
def admitPublication (now : ℕ) (uuid : String) (credentials : Credentials)
    (publication : Publication) : ServerProg (Except ApiError Handed) :=
  Prog.await (fun _ _ => true) (fun draw w =>
    let (handed, limiter) :=
      S.api.publishAny ⟨now, draw.clock, uuid⟩ credentials publication w.limiter
    (handed, { w with limiter }))

/-- The record may be stored whatever the producer reports. -/
def publish (now : ℕ) (uuid : String) (credentials : Credentials) (publication : Publication)
    (placed : Option (KafkaPosition × Option ℤ)) (answer : Except Kafka.KafkaError Kafka.Delivery) :
    ServerProg (Except ApiError PublishReceipt) := do
  match ← S.admitPublication now uuid credentials publication with
  | .error .rateLimited => do
    Prog.modify (fun w =>
      { w with router := w.router.count Counters.recordSecurityLimitRejection })
    return .error .rateLimited
  | .error e => return .error e
  | .ok handed =>
    match handed.publisher.publish S.api.parseMime handed.command with
    | .error e => return publishResponse (.error e)
    | .ok sending =>
      match placed with
      | none => return publishResponse (sending.complete answer)
      | some (position, timestampMs) => do
        store ⟨position, sending.record.consumed timestampMs, true⟩
        return publishResponse (sending.complete answer)

def decode (stored : Stored) : Except Kafka.DecodeError RoutedMessage :=
  Kafka.decodeMessage stored.position stored.record S.maxPayloadBytes

def fetch (index : ℕ) : ServerProg (Option Stored) :=
  Prog.await (fun _ w => index < w.topic.length) (fun _ w => (w.topic[index]?, w))

def ingest (index : ℕ) : ServerProg (Option (Except Kafka.DecodeError Response)) := do
  match ← fetch index with
  | none => return none
  | some stored =>
    match S.decode stored with
    | .error e => return some (.error e)
    | .ok message => do return some (.ok (← S.call t order 0 (.dispatch message)))

end Service

/-- A thread of the server: a session from the request on, a webhook with the outcome of the checks
of its destination, a request to publish with what becomes of its record, a record of another
producer, or a record that is ingested. -/
inductive Task
  | websocket (now : ℕ) (headers : Credentials) (query : ConnectionQuery) (script : List WsTurn)
  | sse (now : ℕ) (headers : Credentials) (lastEventId : HeaderValue) (query : SseQuery)
      (script : List StreamTurn)
  | subscribe (now : ℕ) (metadata : Credentials) (request : SubscribeRequest)
      (script : List StreamTurn)
  | connect (now : ℕ) (metadata : Credentials) (script : List ConnectTurn)
  | webhook (destination : Webhook.WebhookDestinationConfig) (checked : Except String Unit)
      (script : List WebhookTurn)
  | publish (now : ℕ) (uuid : String) (credentials : Credentials) (publication : Publication)
      (placed : Option (KafkaPosition × Option ℤ))
      (answer : Except Kafka.KafkaError Kafka.Delivery)
  | produce (position : KafkaPosition) (record : Kafka.SourceRecord)
  | ingest (index : ℕ)

/-- How a thread has ended: with an HTTP response or a stream that is over, with a gRPC status, with
the result of a webhook, with a receipt, or with the answer of the router. -/
inductive Ending
  | http (result : Except ApiError Unit)
  | grpc (result : Except Status Unit)
  | webhook (result : Except String Unit)
  | published (result : Except ApiError PublishReceipt)
  | produced
  | ingested (result : Option (Except Kafka.DecodeError Response))

def Service.thread (S : Service) (t : ℕ) (task : HashOrder × Task) : ServerProg Ending :=
  let order := task.1
  match task.2 with
  | .websocket now headers query script => do
    note t (.arrived (.websocket now headers query))
    match S.api.websocket now headers query with
    | .error e => return .http (.error e)
    | .ok (principal, queueCapacity) => do
      S.websocketSession t order principal queueCapacity script
      return .http (.ok ())
  | .sse now headers lastEventId query script => do
    note t (.arrived (.sse now headers lastEventId query))
    match S.api.sse now headers lastEventId query with
    | .error e => return .http (.error e)
    | .ok plan => do return .http (← S.sseSession t order plan query script)
  | .subscribe now metadata request script => do
    note t (.arrived (.subscribe now metadata request))
    match S.api.subscribe now metadata request with
    | .error status => return .grpc (.error status)
    | .ok plan => do
      return .grpc (← S.subscribeSession t order plan (request.filter.getD {}) script)
  | .connect now metadata script => do
    note t (.arrived (.connect now metadata))
    match S.api.connect now metadata with
    | .error status => return .grpc (.error status)
    | .ok principal => do return .grpc (← S.connectSession t order principal script)
  | .webhook destination checked script => do
    note t (.arrived (.webhook destination))
    match checked with
    | .error e => return .webhook (.error e)
    | .ok () => do return .webhook (← S.webhookSession t order destination script)
  | .publish now uuid credentials publication placed answer => do
    return .published (← S.publish now uuid credentials publication placed answer)
  | .produce position record => do
    Service.store ⟨position, record, false⟩
    return .produced
  | .ingest index => do return .ingested (← S.ingest t order index)

end KafkaEdgeRouter.Stream
