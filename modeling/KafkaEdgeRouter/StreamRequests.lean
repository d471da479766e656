import KafkaEdgeRouter.PublishEndpoints
import KafkaEdgeRouter.RouterState

/-!
# Requests for streams

What WebSocket, SSE and gRPC clients ask of the router and how each transport checks it before the
router is called: who is asking, for which tenant, with which filter and queue. A JSON text arrives
as what the parser makes of it. The answers keep the texts that the client sees.
-/

namespace KafkaEdgeRouter.Api

/-! ### Filters -/

/-- The fields of a filter besides the tenant. -/
structure FilterFields where
  kind : Option String := none
  messageType : Option String := none
  channel : Option String := none
  actorId : Option String := none
  recipientType : Option String := none
  recipientIdentity : Option String := none
  deriving DecidableEq

def FilterFields.forTenant (tenantId : String) (fields : FilterFields) : RouteFilter where
  tenantId := tenantId
  kind := fields.kind
  messageType := fields.messageType
  channel := fields.channel
  actorId := fields.actorId
  recipientType := fields.recipientType
  recipientIdentity := fields.recipientIdentity

structure FilterInput extends FilterFields where
  tenantId : Option String := none
  deriving DecidableEq

def FilterInput.intoFilter (principal : Principal) (input : FilterInput) :
    Except ApiError RouteFilter := do
  ApiState.authorizeRequestedTenant principal input.tenantId
  return input.forTenant principal.tenantId

structure ProtoRouteFilter extends FilterFields where
  tenantId : String := ""
  deriving DecidableEq

def protoFilter (filter : ProtoRouteFilter) (principal : Principal) :
    Except ApiError RouteFilter := do
  authorizeTenant principal (some filter.tenantId)
  return filter.forTenant principal.tenantId

/-! ### WebSocket -/

structure ConnectionQuery where
  tenantId : Option String := none
  queueCapacity : Option ℕ := none

/-- The filter of a subscribe command is read on its own, and may not be one. -/
inductive WsCommand
  | subscribe (subscriptionId : String) (filter : Option FilterInput)
  | unsubscribe (subscriptionId : String)
  | ping (opaqueText : Option String)
  deriving DecidableEq

/-- A text as the JSON parser reads it: not JSON, no command, or a command. -/
inductive WsText
  | malformed
  | mismatched
  | command (command : WsCommand)
  deriving DecidableEq

structure CloseFrame where
  code : ℕ
  reason : String
  deriving DecidableEq

inductive WsMessage
  | text (text : WsText)
  | binary
  | ping (payload : List UInt8)
  | pong
  | close (frame : Option CloseFrame)
  /-- The transport has failed, perhaps because the message was too long. -/
  | failed (oversized : Bool)

inductive WsReply
  | error (code message : String)
  | subscribed (subscriptionId : SubscriptionId)
  | unsubscribed (subscriptionId : SubscriptionId)
  | pong (opaqueText : Option String)
  deriving DecidableEq

inductive WsFrame
  | delivery (delivery : Delivery)
  | reply (reply : WsReply)
  | pong (payload : List UInt8)
  | close (frame : Option CloseFrame)
  deriving DecidableEq

def slowConsumer : CloseFrame := ⟨1013, "slow_consumer"⟩

def wsTransportClose (oversized : Bool) : CloseFrame :=
  if oversized then ⟨1009, "message_too_large"⟩ else ⟨1002, "protocol_error"⟩

def wsRateLimited : WsReply := .error "rate_limited" "command rate limit exceeded"

def wsBinary : WsReply := .error "binary_not_supported" "binary commands are not supported"

def wsSubscribeError : CoreError → WsReply
  | .subscriptionExists => .error "subscription_exists" "subscription_id already exists"
  | .subscriptionLimitReached | .globalSubscriptionLimitReached =>
    .error "subscription_limit_reached" "connection subscription limit reached"
  | .tenantMismatch => .error "tenant_mismatch" "filter tenant is not authorized"
  | .connectionNotFound => .error "connection_closed" "connection is no longer registered"
  | .invalidIdentifier _ _ | .incompleteRecipient | .missingField _ =>
    .error "invalid_filter" "filter is invalid"
  | .subscriptionNotFound | .connectionLimitReached | .invalidQueueCapacity _ _ =>
    .error "subscribe_failed" "subscription could not be created"

def wsUnsubscribeError : CoreError → WsReply
  | .subscriptionNotFound => .error "subscription_not_found" "subscription does not exist"
  | .connectionNotFound => .error "connection_closed" "connection is no longer registered"
  | _ => .error "unsubscribe_failed" "subscription could not be removed"

/-! ### SSE -/

structure SseQuery extends FilterInput where
  subscriptionId : Option String := none
  queueCapacity : Option ℕ := none

def SseQuery.intoFilter (principal : Principal) (query : SseQuery) :
    Except ApiError (RouteFilter × String × Option ℕ) := do
  let filter ← query.toFilterInput.intoFilter principal
  return (filter, query.subscriptionId.getD "sse-default", query.queueCapacity)

/-- A header that may be missing, and may not be text. -/
inductive HeaderValue
  | missing
  | text (value : String)
  | bytes

def parseLastEventId : HeaderValue → Except ApiError Unit
  | .missing => .ok ()
  | .text _ => .ok ()
  | .bytes => .error (.badRequest "Last-Event-ID must be a valid HTTP header value")

/-- The response that starts the stream, and its events. -/
inductive SseFrame
  | response (subscriptionId : SubscriptionId)
  | event (delivery : Delivery)
  deriving DecidableEq

/-! ### gRPC -/

structure SubscribeRequest where
  subscriptionId : String
  filter : Option ProtoRouteFilter
  queueCapacity : Option ℕ

inductive ClientCommand
  | subscribe (subscriptionId : String) (filter : Option ProtoRouteFilter)
  | unsubscribe (subscriptionId : String)
  | ping (opaqueText : String)
  /-- The command is missing. -/
  | none
  deriving DecidableEq

inductive ServerEvent
  | message (delivery : Delivery)
  | ack (operation subscriptionId : String)
  | pong (opaqueText : String)
  deriving DecidableEq

/-- The response that starts a server stream, and the events of either kind of stream. -/
inductive GrpcFrame
  | response (subscriptionId : SubscriptionId)
  | event (event : ServerEvent)
  deriving DecidableEq

def Status.ofCore (error : CoreError) : Status := .invalidArgument error.display

/-! ### Admission -/

namespace ApiState

variable (state : ApiState)

def streamQueueCapacity (requested : Option ℕ) : Except ApiError ℕ :=
  (resolveStreamQueueCapacity state.config requested).mapError fun maximum =>
    .badRequest s!"queue_capacity must be between 1 and {maximum}"

def grpcQueueCapacity (requested : Option ℕ) : Except Status ℕ :=
  (resolveStreamQueueCapacity state.config requested).mapError fun maximum =>
    .invalidArgument s!"queue_capacity must be between 1 and {maximum}"

def websocket (now : ℕ) (headers : Credentials) (query : ConnectionQuery) :
    Except ApiError (Principal × ℕ) := do
  let principal ← state.authenticator.authenticateHttp state.library now headers query.tenantId
  authorizeRequestedTenant principal query.tenantId
  Authenticator.authorizeSubscribe principal
  let queueCapacity ← state.streamQueueCapacity query.queueCapacity
  return (principal, queueCapacity)

/-- What a request for a stream with one subscription comes to. -/
structure StreamPlan where
  principal : Principal
  filter : RouteFilter
  subscriptionId : SubscriptionId
  queueCapacity : ℕ

def sse (now : ℕ) (headers : Credentials) (lastEventId : HeaderValue) (query : SseQuery) :
    Except ApiError StreamPlan := do
  let principal ← state.authenticator.authenticateHttp state.library now headers query.tenantId
  Authenticator.authorizeSubscribe principal
  parseLastEventId lastEventId
  let (filter, subscriptionId, requestedQueueCapacity) ← query.intoFilter principal
  let subscriptionId ←
    (SubscriptionId.new subscriptionId).mapError fun e => .badRequest e.display
  let queueCapacity ← state.streamQueueCapacity requestedQueueCapacity
  return ⟨principal, filter, subscriptionId, queueCapacity⟩

def authenticate (now : ℕ) (metadata : Credentials) (requestedTenant : Option String) :
    Except Status Principal :=
  (state.authenticator.authenticateGrpc state.library now metadata requestedTenant).mapError
    ApiError.intoStatus

def subscribe (now : ℕ) (metadata : Credentials) (request : SubscribeRequest) :
    Except Status StreamPlan := do
  let requestedTenant :=
    (request.filter.map ProtoRouteFilter.tenantId).filter (fun tenant => !tenant.isEmpty)
  let principal ← state.authenticate now metadata requestedTenant
  (Authenticator.authorizeSubscribe principal).mapError ApiError.intoStatus
  let filter ← match request.filter with
    | some filter => .ok filter
    | none => .error (Status.invalidArgument "filter is required")
  let filter ← (protoFilter filter principal).mapError ApiError.intoStatus
  let subscriptionId ← (SubscriptionId.new request.subscriptionId).mapError Status.ofCore
  let queueCapacity ← state.grpcQueueCapacity request.queueCapacity
  return ⟨principal, filter, subscriptionId, queueCapacity⟩

def connect (now : ℕ) (metadata : Credentials) : Except Status Principal := do
  let principal ← state.authenticate now metadata none
  (Authenticator.authorizeSubscribe principal).mapError ApiError.intoStatus
  return principal

end ApiState
end KafkaEdgeRouter.Api
