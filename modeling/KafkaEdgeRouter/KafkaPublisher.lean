import KafkaEdgeRouter.RecordDecoder

/-!
# Publishing to Kafka

A publish command of a transport, its validation, and the record that the Kafka publisher sends for
it. The parser of MIME types belongs to a library and is a parameter, as is what the producer
reports about the delivery.
-/

namespace KafkaEdgeRouter

/-- What the parser finds in a MIME type; a wildcard is the name `*`. -/
structure Mime where
  type : String
  subtype : String
  suffix : Option String
  deriving DecidableEq

abbrev MimeParser : Type := String → Option Mime

/-- A parser that knows one MIME type. -/
def applicationJson : MimeParser := fun contentType =>
  if contentType = "application/json" then some ⟨"application", "json", none⟩ else none

structure PublishCommand where
  messageId : String
  tenantId : String
  kind : Option String
  messageType : Option String
  channel : Option String
  actorId : Option String
  recipientType : Option String
  recipientIdentity : Option String
  orderingKey : Option String
  contentType : String
  payload : List UInt8
  deriving DecidableEq

inductive PublishErrorKind
  | invalidInput
  | timeout
  | queueFull
  | backend
  deriving DecidableEq

structure PublishError where
  kind : PublishErrorKind
  message : String
  deriving DecidableEq

namespace PublishError

def invalidInput (message : String) : PublishError := ⟨.invalidInput, message⟩

def backend (message : String) : PublishError := ⟨.backend, message⟩

def timeout (message : String) : PublishError := ⟨.timeout, message⟩

def queueFull (message : String) : PublishError := ⟨.queueFull, message⟩

end PublishError

structure PublishReceipt where
  messageId : String
  topic : String
  partition : ℤ
  offset : ℤ
  deriving DecidableEq

namespace PublishCommand

/-- The metadata under which a command is validated. -/
def metadata (command : PublishCommand) : RoutingMetadata where
  messageId := command.messageId
  tenantId := command.tenantId
  kind := command.kind
  messageType := command.messageType
  channel := command.channel
  actorId := command.actorId
  recipientType := command.recipientType
  recipientIdentity := command.recipientIdentity
  contentType := command.contentType
  timestampMs := none
  source := none

def validateContentType (parseMime : MimeParser) (contentType : String) :
    Except PublishError Unit :=
  match parseMime contentType with
  | none => .error (.invalidInput "content_type must be a valid MIME type")
  | some mime =>
    if mime.type = "*" ∨ mime.subtype = "*" then
      .error (.invalidInput "content_type wildcards are not allowed")
    else .ok ()

def validateOrderingKey : Option String → Except PublishError Unit
  | none => .ok ()
  | some orderingKey =>
    (validateIdentifier "ordering_key" orderingKey 256).mapError fun e => .invalidInput e.display

def validate (parseMime : MimeParser) (command : PublishCommand) : Except PublishError Unit := do
  command.metadata.validate.mapError fun e => .invalidInput e.display
  validateContentType parseMime command.contentType
  validateOrderingKey command.orderingKey

end PublishCommand

namespace Kafka

inductive RDKafkaErrorCode
  | queueFull
  | messageTimedOut
  | operationTimedOut
  | requestTimedOut
  | timedOutQueue
  | other
  deriving DecidableEq

structure KafkaError where
  code : Option RDKafkaErrorCode
  text : String
  deriving DecidableEq

structure Delivery where
  partition : ℤ
  offset : ℤ
  deriving DecidableEq

structure FutureRecord where
  topic : String
  key : String
  payload : List UInt8
  headers : List Header
  deriving DecidableEq

structure KafkaPublisher where
  topic : String
  deriving DecidableEq

def insert (headers : List Header) (key value : String) : List Header :=
  headers ++ [⟨key, some (.text value)⟩]

def insertOptional (headers : List Header) (key : String) : Option String → List Header
  | some value => insert headers key value
  | none => headers

def publishHeaders (command : PublishCommand) : List Header :=
  let headers := insert [] "x-message-id" command.messageId
  let headers := insert headers "x-tenant-id" command.tenantId
  let headers := insert headers "x-content-type" command.contentType
  let headers := insertOptional headers "x-kind" command.kind
  let headers := insertOptional headers "x-type" command.messageType
  let headers := insertOptional headers "x-channel" command.channel
  let headers := insertOptional headers "x-actor-id" command.actorId
  let headers := insertOptional headers "x-recipient-type" command.recipientType
  insertOptional headers "x-recipient-identity" command.recipientIdentity

def kafkaKey (command : PublishCommand) : String :=
  match command.orderingKey with
  | some orderingKey => command.tenantId ++ ":explicit:" ++ orderingKey
  | none =>
    match command.recipientType, command.recipientIdentity with
    | some recipientType, some recipientIdentity =>
      command.tenantId ++ ":" ++ recipientType ++ ":" ++ recipientIdentity
    | _, _ =>
      match command.channel with
      | none => command.tenantId
      | some channel => command.tenantId ++ ":channel:" ++ channel

def classifyDeliveryError (error : KafkaError) : PublishError :=
  match error.code with
  | some .queueFull => .queueFull error.text
  | some .messageTimedOut | some .operationTimedOut | some .requestTimedOut
  | some .timedOutQueue => .timeout error.text
  | _ => .backend error.text

/-- The record that is sent, and what becomes of the producer's answer. -/
structure Sending where
  record : FutureRecord
  complete : Except KafkaError Delivery → Except PublishError PublishReceipt

/-- A command that fails validation is not sent. -/
def KafkaPublisher.publish (parseMime : MimeParser) (publisher : KafkaPublisher)
    (command : PublishCommand) : Except PublishError Sending := do
  command.validate parseMime
  return {
    record :=
      { topic := publisher.topic
        key := kafkaKey command
        payload := command.payload
        headers := publishHeaders command }
    complete := fun answer =>
      match answer with
      | .error e => .error (classifyDeliveryError e)
      | .ok delivery =>
        .ok ⟨command.messageId, publisher.topic, delivery.partition, delivery.offset⟩ }

/-- The record as a consumer gets it: Kafka carries headers and payload unchanged. -/
def FutureRecord.consumed (record : FutureRecord) (timestampMs : Option ℤ) : SourceRecord where
  headers := some record.headers
  payload := some record.payload
  timestampMs := timestampMs

end Kafka
end KafkaEdgeRouter
