import KafkaEdgeRouter.DurableRecord
import KafkaEdgeRouter.SourceIngestor

/-!
# The durable webhook runtime

What `build_durable_runtime` sets up for the configured destinations: a connection with one
subscription for each, and a table that finds the receivers of their queues by route key. The sink
goes through the table for every message, takes the delivery that the router has left in each queue
it finds and publishes it as a command. The encoder of a delivery is a parameter, and so is whatever
decides the outcome of creating a Kafka client.
-/

namespace KafkaEdgeRouter.Webhook

open Ingest (Host PreCommitSink Ingestor)

structure WebhookDestinationConfig where
  id : String
  filter : RouteFilter
  queueCapacity : ℕ
  timeoutMs : ℕ
  maxAttempts : ℕ
  initialBackoffMs : ℕ
  maxBackoffMs : ℕ

inductive WebhookDeliveryMode
  | volatile
  | durable
  deriving DecidableEq

structure DurableWebhookConfig where
  brokers : String
  clientId : String
  groupId : String
  deliveryTopic : String
  retryTopic : String
  deadLetterTopic : String
  deliveryTimeoutMs : ℕ
  maxRecordBytes : ℕ
  maxRecoveryRecords : ℕ

/-- The webhook section of the configuration, enabled and in durable mode. -/
structure WebhookConfig where
  durable : DurableWebhookConfig
  destinations : List WebhookDestinationConfig

/-! ### Validation -/

def isBlank (value : String) : Bool := (trim value).isEmpty

def DurableWebhookConfig.validate (durable : DurableWebhookConfig) : Except String Unit :=
  if isBlank durable.brokers ∨ isBlank durable.clientId ∨ isBlank durable.groupId ∨
      isBlank durable.deliveryTopic ∨ isBlank durable.retryTopic ∨
      isBlank durable.deadLetterTopic ∨ durable.deliveryTimeoutMs = 0 ∨
      durable.maxRecordBytes = 0 ∨ durable.maxRecoveryRecords = 0 then
    .error "durable webhook Kafka fields and bounds must be non-empty and positive"
  else if durable.deliveryTopic = durable.retryTopic ∨
      durable.deliveryTopic = durable.deadLetterTopic ∨
      durable.retryTopic = durable.deadLetterTopic then
    .error "durable webhook delivery, retry, and dead-letter topics must be distinct"
  else .ok ()

def WebhookDestinationConfig.validate (maxQueueCapacity : ℕ)
    (destination : WebhookDestinationConfig) : Except String Unit :=
  let id := destination.id
  if destination.queueCapacity = 0 ∨ destination.queueCapacity > maxQueueCapacity ∨
      destination.timeoutMs = 0 ∨ destination.maxAttempts = 0 ∨
      destination.initialBackoffMs = 0 ∨ destination.maxBackoffMs = 0 then
    .error s!"webhook {id} queue must be within 1..={maxQueueCapacity}, and timeout, attempt, and backoff values must be positive"
  else if destination.initialBackoffMs > destination.maxBackoffMs then
    .error s!"webhook {id} initial_backoff_ms must not exceed max_backoff_ms"
  else
    match destination.filter.validate with
    | .error _ => .error s!"invalid webhook {id} filter"
    | .ok () => .ok ()

/-- The loop over the destinations with the identifiers it has seen. -/
def validateDestinations (maxQueueCapacity : ℕ) :
    List String → List WebhookDestinationConfig → Except String Unit
  | _, [] => .ok ()
  | webhookIds, destination :: rest =>
    let id := destination.id
    if isBlank id then .error "webhook destination id must not be empty"
    else if id ∈ webhookIds then .error s!"duplicate webhook destination id: {id}"
    else
      match destination.validate maxQueueCapacity with
      | .error e => .error e
      | .ok () => validateDestinations maxQueueCapacity (id :: webhookIds) rest

def WebhookConfig.validate (maxQueueCapacity : ℕ) (config : WebhookConfig) :
    Except String Unit := do
  config.durable.validate
  if config.destinations.isEmpty then
    throw "durable webhook mode requires at least one destination"
  validateDestinations maxQueueCapacity [] config.destinations

theorem WebhookConfig.validateDestinations_of_validate {maxQueueCapacity : ℕ}
    {config : WebhookConfig} (h : config.validate maxQueueCapacity = .ok ()) :
    validateDestinations maxQueueCapacity [] config.destinations = .ok () := by
  obtain ⟨_, hrest⟩ := check_eq_ok.mp h
  split_ifs at hrest with hempty
  · cases hrest
  · exact hrest

theorem WebhookDestinationConfig.filter_valid {maxQueueCapacity : ℕ}
    {destination : WebhookDestinationConfig} (h : destination.validate maxQueueCapacity = .ok ()) :
    destination.filter.validate = .ok () := by
  simp only [WebhookDestinationConfig.validate] at h
  split_ifs at h
  split at h
  · cases h
  · assumption

theorem filter_valid_of_validateDestinations {maxQueueCapacity : ℕ} {webhookIds : List String}
    {destinations : List WebhookDestinationConfig}
    (h : validateDestinations maxQueueCapacity webhookIds destinations = .ok ()) :
    ∀ destination ∈ destinations, destination.filter.validate = .ok () := by
  induction destinations generalizing webhookIds with
  | nil => simp
  | cons destination rest ih =>
    simp only [validateDestinations] at h
    split_ifs at h with hblank hmem
    split at h
    · cases h
    · rename_i hdestination
      intro other hother
      rcases List.mem_cons.mp hother with rfl | hother
      · exact other.filter_valid hdestination
      · exact ih h other hother

/-! ### Construction -/

inductive WebhookError
  | registration (id reason : String)
  | durable (reason : String)
  | destination (text : String)

def WebhookError.display : WebhookError → String
  | .registration id reason => s!"failed to register webhook {id}: {reason}"
  | .durable reason => s!"failed to construct durable webhook adapter: {reason}"
  | .destination text => text

/-- A receiver is known by the connection it was registered with. -/
structure RouteDestination where
  id : String
  receiver : ConnectionId
  deriving DecidableEq

/-- The sink, and the commands that it has in the delivery topic. -/
structure DurableWebhookSink where
  routes : AList (fun _ : RouteKey => List RouteDestination)
  connectionIds : List ConnectionId
  commands : List DurableRecord

structure SinkInput where
  connection : ConnectionId := ⟨0⟩
  now : ℕ := 0
  uuid : String := ""
  reply : Reply := .done

abbrev SinkProg : Type → Type := Prog (Host DurableWebhookSink) SinkInput

def routerView : View (Host DurableWebhookSink) Shared where
  get host := host.router
  set router host := { host with router }
  get_set _ _ := rfl

def updateSink (f : DurableWebhookSink → DurableWebhookSink) : SinkProg Unit :=
  Prog.modify (fun host => { host with outside := f host.outside })

def DurableWebhookSink.addConnection (c : ConnectionId) (sink : DurableWebhookSink) :
    DurableWebhookSink :=
  { sink with connectionIds := sink.connectionIds ++ [c] }

def DurableWebhookSink.addRoute (key : RouteKey) (destination : RouteDestination)
    (sink : DurableWebhookSink) : DurableWebhookSink :=
  { sink with routes :=
      sink.routes.insert key ((sink.routes.lookup key).getD [] ++ [destination]) }

def DurableWebhookSink.receivers (sink : DurableWebhookSink) : List ConnectionId :=
  sink.routes.pairs.flatMap (fun e => e.2.map RouteDestination.receiver)

/-- What the creation of a Kafka client or of a worker fails with. -/
def creation : SinkProg (Option String) :=
  Prog.await (fun _ _ => true) fun i host =>
    match i.reply with
    | .done => (none, host)
    | .failed error _ => (some error, host)

def closeReceivers : List ConnectionId → SinkProg Unit
  | [] => return ()
  | c :: rest => do
    (Router.closeReceiver c).zoom routerView SinkInput.connection
    closeReceivers rest

/-- The configuration of a daemon with durable webhooks. -/
structure WebhookRuntime where
  router : RouterConfig
  webhooks : WebhookConfig
  maxPayloadBytes : ℕ
  commitInvalidMessages : Bool
  encodeDeliveryJson : Delivery → List UInt8
  order : ℕ → HashOrder

namespace WebhookRuntime

variable (R : WebhookRuntime)

def call (serial : ℕ) (request : Request) : SinkProg Response :=
  (Router.serve R.router ⟨2 * serial, 0⟩ (R.order serial) request).zoom routerView
    SinkInput.connection

def unregisterAll (serial : ℕ) : List ConnectionId → SinkProg Unit
  | [] => return ()
  | c :: rest => do
    let _ ← R.call serial (.unregister c)
    unregisterAll (serial + 1) rest

/-- An early return drops the registration in hand, the guard of the others and the table. -/
def fail (serial : ℕ) (registration : List ConnectionId) (e : WebhookError) :
    SinkProg (Except String ℕ) := do
  closeReceivers registration
  let connectionIds ← Prog.read (fun host => host.outside.connectionIds)
  R.unregisterAll serial connectionIds
  let receivers ← Prog.read (fun host => host.outside.receivers)
  closeReceivers receivers
  return .error e.display

def subscriptionName (id : String) : String := s!"webhook:{id}"

def addDestinations (serial : ℕ) : List WebhookDestinationConfig → SinkProg (Except String ℕ)
  | [] => return .ok serial
  | destination :: rest =>
    match SubscriptionId.new (subscriptionName destination.id) with
    | .error e => R.fail serial [] (.durable e.display)
    | .ok subscription => do
      match ← R.call serial (.register destination.filter.tenantId .httpWebhook
          (some destination.queueCapacity)) with
      | .registered (.ok c) => do
        updateSink (DurableWebhookSink.addConnection c)
        match ← R.call (serial + 1) (.subscribe c subscription destination.filter) with
        | .settled (.ok ()) => do
          updateSink (DurableWebhookSink.addRoute (RouteKey.ofFilter destination.filter)
            ⟨destination.id, c⟩)
          match ← creation with
          | some error => R.fail (serial + 2) [] (.destination error)
          | none => addDestinations (serial + 2) rest
        | .settled (.error e) =>
          R.fail (serial + 2) [c] (.registration destination.id e.display)
        | _ => R.fail (serial + 2) [c] (.registration destination.id "")
      | .registered (.error e) =>
        R.fail (serial + 1) [] (.registration destination.id e.display)
      | _ => R.fail (serial + 1) [] (.registration destination.id "")

/-- The calls are numbered from `serial` on. -/
def buildDurableRuntime (serial : ℕ) : SinkProg (Except String ℕ) := do
  match ← creation with
  | some error =>
    return .error (WebhookError.durable s!"producer creation failed: {error}").display
  | none => R.addDestinations serial R.webhooks.destinations

end WebhookRuntime

/-! ### The sink -/

def DurableWebhookSink.destinations (sink : DurableWebhookSink) (message : RoutedMessage) :
    List RouteDestination :=
  (RouteKey.candidates message.metadata).flatMap (fun key => (sink.routes.lookup key).getD [])

inductive PersistPoint
  | matching (message : RoutedMessage)
  | publishing (message : RoutedMessage) (destinations : List RouteDestination)

def queueClosed (id : String) : String := s!"durable route queue closed for {id}"

def queueMismatch (returned expected : String) : String :=
  s!"durable route queue returned message {returned} while waiting for {expected}"

namespace WebhookRuntime

variable (R : WebhookRuntime)

def command (destination : RouteDestination) (message : RoutedMessage) (delivery : Delivery)
    (uuid : String) (now : ℕ) : DurableRecord :=
  let source := delivery.message.metadata.source
  { schemaVersion := schemaVersion
    deliveryId := uuid
    destinationId := destination.id
    originalMessageId := message.metadata.messageId
    bodyBase64 := String.ofList (Base64.encode (R.encodeDeliveryJson delivery))
    attempt := 1
    nextAttemptAtMs := min now u64Max
    lastErrorClass := none
    sourceTopic := source.map KafkaPosition.topic
    sourcePartition := source.map KafkaPosition.partition
    sourceOffset := source.map KafkaPosition.offset
    traceContext := delivery.message.traceContext
    state := .delivery }

def publishRecord (record : DurableRecord) : SinkProg (Except String Unit) :=
  Prog.await (fun _ _ => true) fun i host =>
    let result := record.publication R.webhooks.durable.deliveryTopic
      R.webhooks.durable.maxRecordBytes i.reply
    (result.1,
      if result.2 then
        { host with outside :=
            { host.outside with commands := host.outside.commands ++ [record] } }
      else host)

def persistNext (message : RoutedMessage) (destination : RouteDestination)
    (rest : List RouteDestination) : SinkProg (Next PersistPoint (Except String Unit)) := do
  match ← (Router.receive destination.receiver).zoom routerView SinkInput.connection with
  | none => return .done (.error (queueClosed destination.id))
  | some delivery =>
    if delivery.message.metadata.messageId ≠ message.metadata.messageId then
      return .done (.error (queueMismatch delivery.message.metadata.messageId
        message.metadata.messageId))
    else do
      let record ← Prog.await (fun _ _ => true) fun i host =>
        (R.command destination message delivery i.uuid i.now, host)
      match ← R.publishRecord record with
      | .error e => return .done (.error e)
      | .ok () => return .again (.publishing message rest)

def sink : PreCommitSink DurableWebhookSink SinkInput PersistPoint where
  persist := .matching
  pass
    | .matching message => do
      let destinations ← Prog.read (fun host => host.outside.destinations message)
      return .again (.publishing message destinations)
    | .publishing _ [] => return .done (.ok ())
    | .publishing message (destination :: rest) => R.persistNext message destination rest

/-- The ingestor with the durable sink, as the daemon starts it. -/
def ingestor : Ingestor DurableWebhookSink SinkInput PersistPoint where
  router := R.router
  maxPayloadBytes := R.maxPayloadBytes
  commitInvalidMessages := R.commitInvalidMessages
  preCommitSinks := [R.sink]
  build := R.buildDurableRuntime 0
  owned := DurableWebhookSink.connectionIds
  durable sink := ⟨∅, [], sink.commands⟩
  draw := SinkInput.connection
  order := R.order

end WebhookRuntime
end KafkaEdgeRouter.Webhook
