import KafkaEdgeRouter.Authentication
import KafkaEdgeRouter.Base64
import KafkaEdgeRouter.KafkaPublisher
import KafkaEdgeRouter.RateLimits

/-!
# Publishing over HTTP and gRPC

The two handlers of publish requests, up to the point where a command is handed to the publisher.
Both authenticate, compare the tenant, check the permission, ask the rate limiter, assemble the
command and validate it, each in its own words. An HTTP request brings its payload as a JSON value
or as base64 text, a gRPC request brings bytes.
-/

namespace KafkaEdgeRouter.Api

def ApiError.code : ApiError → String
  | .unauthorized => "unauthorized"
  | .forbidden => "forbidden"
  | .badRequest _ => "bad_request"
  | .rateLimited => "rate_limited"
  | .publisherUnavailable => "publisher_unavailable"
  | .publisherTimeout => "publisher_timeout"
  | .publisherQueueFull => "publisher_queue_full"
  | .backend _ => "backend_error"

/-- What the handlers share, without the state of the limiter. -/
structure ApiState where
  authenticator : Authenticator
  publisher : Option Kafka.KafkaPublisher
  config : ApiConfig
  library : TokenLibrary
  parseMime : MimeParser

/-- What a handler draws from its surroundings: the time at which a token is verified, the clock of
the limiter and a random identifier. -/
structure Moment where
  now : ℕ
  clock : Readings
  uuid : String

/-- A JSON value is kept as what the serializer makes of it. -/
inductive JsonPayload
  | missing
  | present (serialized : Except String (List UInt8))

structure HttpPublishRequest where
  messageId : Option String
  tenantId : Option String
  kind : Option String
  messageType : Option String
  channel : Option String
  actorId : Option String
  recipientType : Option String
  recipientIdentity : Option String
  orderingKey : Option String
  contentType : Option String
  payload : JsonPayload
  payloadBase64 : Option String

structure GrpcPublishRequest where
  messageId : Option String
  tenantId : String
  kind : Option String
  messageType : Option String
  channel : Option String
  actorId : Option String
  recipientType : Option String
  recipientIdentity : Option String
  orderingKey : Option String
  contentType : String
  payload : List UInt8

/-- A command in the hands of the publisher. -/
structure Handed where
  publisher : Kafka.KafkaPublisher
  command : PublishCommand

def effectiveMessageId (uuid : String) (messageId : Option String) : String :=
  messageId.getD uuid

def validateCommand (parseMime : MimeParser) (command : PublishCommand)
    (maximumPayloadBytes : ℕ) : Except ApiError PublishCommand :=
  if command.payload.length > maximumPayloadBytes then
    .error (.badRequest s!"payload exceeds maximum size of {maximumPayloadBytes} bytes")
  else do
    (command.validate parseMime).mapError fun e => .badRequest e.message
    return command

def validateJsonContentType (parseMime : MimeParser) (contentType : String) :
    Except ApiError Unit :=
  match parseMime contentType with
  | none => .error (.badRequest "content_type must be a valid MIME type")
  | some parsed =>
    if parsed.type = "application" ∧ (parsed.subtype = "json" ∨ parsed.suffix = some "json") then
      .ok ()
    else
      .error (.badRequest
        "JSON payload requires an application/json or application/*+json content_type")

def mapPublishError (error : PublishError) : ApiError :=
  match error.kind with
  | .invalidInput => .badRequest error.message
  | .timeout => .publisherTimeout
  | .queueFull => .publisherQueueFull
  | .backend => .backend "publish backend failed"

def publishResponse (answer : Except PublishError PublishReceipt) :
    Except ApiError PublishReceipt :=
  answer.mapError mapPublishError

def usizeMax : ℕ := 2 ^ 64 - 1

def saturatingAdd (a b : ℕ) : ℕ := min (a + b) usizeMax

def saturatingMul (a b : ℕ) : ℕ := min (a * b) usizeMax

def maximumEncoded (maximumPayloadBytes : ℕ) : ℕ :=
  saturatingMul (saturatingAdd maximumPayloadBytes 2 / 3) 4

def httpPublishPayload (parseMime : MimeParser) (payload : JsonPayload)
    (payloadBase64 contentType : Option String) (maximumPayloadBytes : ℕ) :
    Except ApiError (List UInt8 × String) :=
  match payload, payloadBase64 with
  | .present serialized, none => do
    let contentType := contentType.getD "application/json"
    validateJsonContentType parseMime contentType
    let payload ← serialized.mapError ApiError.badRequest
    return (payload, contentType)
  | .missing, some encoded =>
    match contentType.filter (fun value => !(trim value).isEmpty) with
    | none => .error (.badRequest "content_type is required with payload_base64")
    | some contentType =>
      if encoded.utf8ByteSize > maximumEncoded maximumPayloadBytes then
        .error (.badRequest s!"payload exceeds maximum size of {maximumPayloadBytes} bytes")
      else
        match Base64.decode encoded.toList with
        | none => .error (.badRequest "payload_base64 is not valid base64")
        | some decoded => .ok (decoded, contentType)
  | .present _, some _ | .missing, none =>
    .error (.badRequest "provide exactly one of payload or payload_base64")

namespace ApiState

variable (state : ApiState)

def limited {α : Type} (clock : Readings) (admitted : Except ApiError Principal)
    (next : Principal → Except ApiError α) (limiter : RateState) :
    Except ApiError α × RateState :=
  match admitted with
  | .error e => (.error e, limiter)
  | .ok principal =>
    let (allowed, limiter) :=
      AbuseLimiter.allow state.config clock principal.tenantId .publish limiter
    if allowed then (next principal, limiter) else (.error .rateLimited, limiter)

def handOver (command : PublishCommand) : Except ApiError Handed :=
  match state.publisher with
  | none => .error .publisherUnavailable
  | some publisher => .ok ⟨publisher, command⟩

/-! ### HTTP -/

def authorizeRequestedTenant (principal : Principal) (requestedTenant : Option String) :
    Except ApiError Unit :=
  authorizeTenant principal requestedTenant

def admitHttp (moment : Moment) (headers : Credentials) (tenantId : Option String) :
    Except ApiError Principal := do
  let principal ←
    state.authenticator.authenticateHttp state.library moment.now headers tenantId
  authorizeRequestedTenant principal tenantId
  Authenticator.authorizePublish principal
  return principal

def httpCommand (moment : Moment) (request : HttpPublishRequest) (principal : Principal) :
    Except ApiError Handed := do
  let (payload, contentType) ← httpPublishPayload state.parseMime request.payload
    request.payloadBase64 request.contentType state.config.publishMaxPayloadBytes
  let command ← validateCommand state.parseMime
    { messageId := effectiveMessageId moment.uuid request.messageId
      tenantId := principal.tenantId
      kind := request.kind
      messageType := request.messageType
      channel := request.channel
      actorId := request.actorId
      recipientType := request.recipientType
      recipientIdentity := request.recipientIdentity
      orderingKey := request.orderingKey
      contentType := contentType
      payload := payload }
    state.config.publishMaxPayloadBytes
  state.handOver command

def publishHttpInner (moment : Moment) (headers : Credentials) (request : HttpPublishRequest)
    (limiter : RateState) : Except ApiError Handed × RateState :=
  state.limited moment.clock (state.admitHttp moment headers request.tenantId)
    (state.httpCommand moment request) limiter

/-- A body that does not fit the contract is refused before anything else. -/
def publishHttp (moment : Moment) (headers : Credentials) (request : Option HttpPublishRequest)
    (limiter : RateState) : Except ApiError Handed × RateState :=
  match request with
  | some request => state.publishHttpInner moment headers request limiter
  | none =>
    (.error (.badRequest "request body is not valid for the publish contract"), limiter)

/-! ### gRPC -/

def admitGrpc (moment : Moment) (metadata : Credentials) (tenantId : String) :
    Except ApiError Principal := do
  let requestedTenant := if tenantId.isEmpty then none else some tenantId
  let principal ←
    state.authenticator.authenticateGrpc state.library moment.now metadata requestedTenant
  authorizeTenant principal (some tenantId)
  Authenticator.authorizePublish principal
  return principal

def grpcCommand (moment : Moment) (request : GrpcPublishRequest) (principal : Principal) :
    Except ApiError Handed := do
  let contentType :=
    if request.contentType.isEmpty then "application/octet-stream" else request.contentType
  let command ← validateCommand state.parseMime
    { messageId := effectiveMessageId moment.uuid request.messageId
      tenantId := principal.tenantId
      kind := request.kind
      messageType := request.messageType
      channel := request.channel
      actorId := request.actorId
      recipientType := request.recipientType
      recipientIdentity := request.recipientIdentity
      orderingKey := request.orderingKey
      contentType := contentType
      payload := request.payload }
    state.config.publishMaxPayloadBytes
  state.handOver command

/-- The failures are those that become a gRPC status. -/
def publishInner (moment : Moment) (metadata : Credentials) (request : GrpcPublishRequest)
    (limiter : RateState) : Except ApiError Handed × RateState :=
  state.limited moment.clock (state.admitGrpc moment metadata request.tenantId)
    (state.grpcCommand moment request) limiter

end ApiState
end KafkaEdgeRouter.Api
