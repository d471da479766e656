import KafkaEdgeRouter.Authentication
import KafkaEdgeRouter.RateLimits
import KafkaEdgeRouter.WebhookRuntime
import Mathlib.Algebra.Order.Field.Rat

/-!
# The configuration of the daemon and its validation

The sections of the configuration with all that `AppConfig::validate` reads of them, their defaults,
and the checks in their order. What a socket address is, and whether it is on the loopback
interface, is left to a parameter. A sampling ratio that is not a number is `none`.
-/

namespace KafkaEdgeRouter.Daemon

open Api (ApiConfig AuthConfig AuthMode)
open Webhook (WebhookConfig WebhookDeliveryMode isBlank validateDestinations)

inductive SecurityMode
  | development
  | protectedProxy
  deriving DecidableEq

structure ServerConfig where
  httpAddr : String := "0.0.0.0:8080"
  grpcAddr : String := "0.0.0.0:9090"
  securityMode : SecurityMode := .development

/-- The limits of the transports besides those that the handlers read. -/
structure ApiSection extends ApiConfig where
  httpBodyLimitBytes : ℕ := 1048576
  sseKeepAliveSecs : ℕ := 15
  wsMaxMessageBytes : ℕ := 65536
  wsMaxFrameBytes : ℕ := 65536
  grpcMaxDecodingMessageBytes : ℕ := 4194304
  grpcMaxEncodingMessageBytes : ℕ := 4194304
  grpcConcurrencyLimit : ℕ := 256
  grpcKeepAliveIntervalSecs : ℕ := 30
  grpcKeepAliveTimeoutSecs : ℕ := 10

/-- Where the keys for tokens come from, besides what the verification of a token reads. -/
structure JwksConfig where
  jwksPath : String := ""
  refreshIntervalSecs : ℕ := 300
  maxJwksBytes : ℕ := 262144
  maxJwksKeys : ℕ := 64

structure KafkaConsumerConfig where
  brokers : String := "localhost:9092"
  groupId : String := "kafka-edge-router-local"
  clientId : String := "kafka-edge-router-consumer"
  topics : List String := ["router.input"]
  autoOffsetReset : String := "earliest"
  maxPayloadBytes : ℕ := 1048576
  commitInvalidMessages : Bool := true

structure KafkaProducerConfig where
  enabled : Bool := true
  brokers : String := "localhost:9092"
  clientId : String := "kafka-edge-router-producer"
  topic : String := "router.input"
  deliveryTimeoutMs : ℕ := 10000

structure OpenTelemetryConfig where
  enabled : Bool := false
  endpoint : String := "http://127.0.0.1:4318"
  serviceName : String := "kafka-edge-router"
  timeoutMs : ℕ := 5000
  shutdownTimeoutMs : ℕ := 5000
  samplingRatio : Option ℚ := some (1 / 10)

structure KafkaReadinessConfig where
  enabled : Bool := false
  checkIntervalMs : ℕ := 1000
  staleAfterSecs : ℕ := 30
  failureThreshold : ℕ := 3
  successThreshold : ℕ := 2

def defaultWebhooks : WebhookConfig where
  durable :=
    { brokers := "localhost:9092"
      clientId := "kafka-edge-router-webhook"
      groupId := "kafka-edge-router-webhook"
      deliveryTopic := "router.webhook.delivery"
      retryTopic := "router.webhook.retry"
      deadLetterTopic := "router.webhook.dead-letter"
      deliveryTimeoutMs := 10000
      maxRecordBytes := 2097152
      maxRecoveryRecords := 10000 }
  destinations := []

structure WebhookSection where
  enabled : Bool := false
  mode : WebhookDeliveryMode := .volatile
  config : WebhookConfig := defaultWebhooks

structure AppConfig where
  server : ServerConfig := {}
  api : ApiSection := {}
  router : RouterConfig := {}
  auth : AuthConfig := {}
  jwks : JwksConfig := {}
  consumer : KafkaConsumerConfig := {}
  producer : KafkaProducerConfig := {}
  opentelemetry : OpenTelemetryConfig := {}
  kafkaReadiness : KafkaReadinessConfig := {}
  webhooks : WebhookSection := {}

/-- Whether the address of a socket is on the loopback interface, if the text is such an address. -/
abbrev SocketParser : Type := String → Option Bool

namespace AppConfig

variable (config : AppConfig)

def limits : List ℕ :=
  [config.api.httpBodyLimitBytes, config.api.sseKeepAliveSecs, config.api.wsMaxMessageBytes,
    config.api.wsMaxFrameBytes, config.api.wsMaxCommandsPerSecond,
    config.api.grpcMaxDecodingMessageBytes, config.api.grpcMaxEncodingMessageBytes,
    config.api.grpcConcurrencyLimit, config.api.grpcKeepAliveIntervalSecs,
    config.api.grpcKeepAliveTimeoutSecs, config.api.publishMaxPayloadBytes,
    config.api.maxRateLimitPrincipals, config.api.globalCommandsPerSecond,
    config.api.principalCommandsPerSecond, config.api.globalPublishesPerSecond,
    config.api.principalPublishesPerSecond]

def capacities : List ℕ :=
  [config.router.defaultQueueCapacity, config.router.maxQueueCapacity,
    config.api.streamQueueCapacity, config.api.maxStreamQueueCapacity, config.router.maxConnections,
    config.router.maxConnectionsPerTenant, config.router.maxSubscriptions,
    config.router.maxSubscriptionsPerTenant, config.router.maxSubscriptionsPerConnection,
    config.router.slowConsumerStrikes]

def validateListenerAndLimits (parseAddr : SocketParser) : Except String Unit :=
  match parseAddr config.server.httpAddr with
  | none => .error "server.http_addr is not a socket address"
  | some httpLoopback =>
    match parseAddr config.server.grpcAddr with
    | none => .error "server.grpc_addr is not a socket address"
    | some grpcLoopback =>
      if config.server.securityMode = .protectedProxy ∧
          (httpLoopback = false ∨ grpcLoopback = false) then
        .error "protected_proxy mode requires loopback-only HTTP and gRPC listeners"
      else if config.server.securityMode = .protectedProxy ∧ config.auth.mode = .disabled then
        .error "protected_proxy mode requires authentication"
      else if (config.auth.mode = .trustedHeader ∨ config.auth.mode = .proxyMtls) ∧
          config.server.securityMode ≠ .protectedProxy then
        .error "proxy identity modes require protected_proxy security mode"
      else if 0 ∈ config.limits then
        .error "HTTP, SSE, WebSocket, and gRPC limits must be positive"
      else if 0 ∈ config.capacities then
        .error "queue capacities, subscription limits, and slow-consumer strikes must be positive"
      else if config.api.wsMaxFrameBytes > config.api.wsMaxMessageBytes then
        .error "api.ws_max_frame_bytes must not exceed api.ws_max_message_bytes"
      else if config.router.defaultQueueCapacity > config.router.maxQueueCapacity then
        .error "router.default_queue_capacity must not exceed router.max_queue_capacity"
      else if config.api.streamQueueCapacity > config.api.maxStreamQueueCapacity then
        .error "api.stream_queue_capacity must not exceed api.max_stream_queue_capacity"
      else if config.api.maxStreamQueueCapacity > config.router.maxQueueCapacity then
        .error "api.max_stream_queue_capacity must not exceed router.max_queue_capacity"
      else .ok ()

def validKafkaGroupId (groupId : String) : Bool :=
  !groupId.isEmpty && groupId.utf8ByteSize ≤ 255 &&
    groupId.toList.all fun c => c.isAlphanum || c == '.' || c == '_' || c == '-'

def validateKafka : Except String Unit :=
  let consumer := config.consumer
  let producer := config.producer
  if consumer.topics.isEmpty then .error "kafka.consumer.topics must not be empty"
  else if consumer.maxPayloadBytes = 0 then
    .error "kafka.consumer.max_payload_bytes must be positive"
  else if isBlank consumer.brokers ∨ isBlank consumer.clientId then
    .error "Kafka consumer brokers and client_id must not be empty"
  else if validKafkaGroupId consumer.groupId = false then
    .error "kafka.consumer.group_id must be 1..=255 ASCII letters, digits, '.', '_', or '-'"
  else if consumer.topics.any isBlank then
    .error "kafka.consumer.topics must not contain empty names"
  else if consumer.autoOffsetReset ≠ "earliest" ∧ consumer.autoOffsetReset ≠ "latest" then
    .error "kafka.consumer.auto_offset_reset must be earliest or latest"
  else if producer.enabled ∧ (isBlank producer.brokers ∨ isBlank producer.clientId ∨
      isBlank producer.topic ∨ producer.deliveryTimeoutMs = 0) then
    .error "enabled Kafka producer fields and delivery timeout must not be empty or zero"
  else .ok ()

def supportedAlgorithms : List String := ["RS256", "RS384", "RS512", "ES256", "ES384", "EdDSA"]

def validateAuth : Except String Unit :=
  let auth := config.auth
  let jwt := auth.jwt
  if auth.mode = .staticBearer ∧ auth.bearerTokens.isEmpty then
    .error "auth.bearer_tokens must not be empty in static_bearer mode"
  else if auth.mode = .jwt ∧ (config.jwks.jwksPath.isEmpty ∨ isBlank jwt.issuer ∨
      isBlank jwt.audience ∨ jwt.algorithms.isEmpty ∨ config.jwks.refreshIntervalSecs = 0 ∨
      config.jwks.maxJwksBytes = 0 ∨ config.jwks.maxJwksKeys = 0 ∨ isBlank jwt.tenantClaim ∨
      isBlank jwt.scopeClaim ∨ isBlank jwt.subscribeScope ∨ isBlank jwt.publishScope) then
    .error ("JWT mode requires JWKS path, issuer, audience, algorithms, claims, scopes, " ++
      "and positive refresh bounds")
  else if auth.mode = .jwt ∧ jwt.algorithms.any (fun a => a ∉ supportedAlgorithms) then
    .error "JWT algorithms must be asymmetric and explicitly supported"
  else if auth.mode = .proxyMtls ∧ (isBlank auth.proxyIdentityHeader ∨
      auth.proxyIdentities.isEmpty ∨ auth.proxyIdentities.any (fun entry =>
        isBlank entry.2.tenantId || (!entry.2.subscribe && !entry.2.publish))) then
    .error "proxy_mtls mode requires a header and bounded identities with tenant permissions"
  else if auth.publishTenants.any isBlank then
    .error "auth.publish_tenants must not contain empty tenant ids"
  else if auth.mode = .staticBearer ∧ auth.publishTenants.any (fun tenant =>
      !(auth.bearerTokens.any fun entry => entry.2 == tenant)) then
    .error "every auth.publish_tenants entry must have a static bearer mapping"
  else .ok ()

def validateKafkaAndAuth : Except String Unit := do
  config.validateKafka
  config.validateAuth

/-- The text before the first `://`. -/
def scheme : List Char → Option (List Char)
  | [] => none
  | c :: rest =>
    if [':', '/', '/'].isPrefixOf (c :: rest) then some [] else (scheme rest).map (c :: ·)

def isHttp (endpoint : String) : Bool :=
  match scheme endpoint.toList with
  | none => false
  | some text => text == "http".toList || text == "https".toList

def validateObservability : Except String Unit :=
  let telemetry := config.opentelemetry
  let readiness := config.kafkaReadiness
  if telemetry.enabled ∧ (isHttp telemetry.endpoint = false ∨ isBlank telemetry.serviceName ∨
      telemetry.timeoutMs = 0 ∨ telemetry.shutdownTimeoutMs = 0 ∨
      telemetry.samplingRatio.any (fun ratio => 0 ≤ ratio ∧ ratio ≤ 1) = false) then
    .error ("enabled OpenTelemetry settings require an HTTP(S) endpoint, service name, " ++
      "positive timeouts, and sampling_ratio within 0..=1")
  else if readiness.enabled ∧ (readiness.checkIntervalMs = 0 ∨ readiness.staleAfterSecs = 0 ∨
      readiness.failureThreshold = 0 ∨ readiness.successThreshold = 0) then
    .error "enabled Kafka readiness intervals and hysteresis thresholds must be positive"
  else .ok ()

/-- The commands of durable webhooks are kept in Kafka. -/
def durable : Bool := config.webhooks.enabled && config.webhooks.mode = .durable

/-- The destinations are checked in every mode. -/
def validateWebhooks : Except String Unit :=
  if config.durable then config.webhooks.config.validate config.router.maxQueueCapacity
  else validateDestinations config.router.maxQueueCapacity [] config.webhooks.config.destinations

def validate (parseAddr : SocketParser) : Except String Unit := do
  config.validateListenerAndLimits parseAddr
  config.validateKafkaAndAuth
  config.validateObservability
  config.validateWebhooks

end AppConfig
end KafkaEdgeRouter.Daemon
