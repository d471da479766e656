import KafkaEdgeRouter.Messages

/-!
# Decoding source records

The routing metadata of a Kafka record is read from its headers alone, and the payload is kept as it
is. Header names are compared without regard to ASCII case, and a recognised name that stands twice
is refused. A header value is text when its bytes are UTF-8, and only bytes otherwise.
-/

namespace KafkaEdgeRouter.Kafka

inductive HeaderValue
  | text (value : String)
  | bytes (value : List UInt8)
  deriving DecidableEq

structure Header where
  key : String
  value : Option HeaderValue
  deriving DecidableEq

/-- A record without its position. -/
structure SourceRecord where
  headers : Option (List Header)
  payload : Option (List UInt8)
  timestampMs : Option ℤ
  deriving DecidableEq

inductive DecodeError
  | missingHeader (name : String)
  | invalidUtf8 (name : String)
  | duplicateHeader (name : String)
  | payloadTooLarge (actual limit : ℕ)
  | invalidMetadata (reason : String)
  deriving DecidableEq

def DecodeError.display : DecodeError → String
  | .missingHeader name => s!"missing Kafka header {name}"
  | .invalidUtf8 name => s!"Kafka header {name} is not valid UTF-8"
  | .duplicateHeader name => s!"duplicate Kafka header {name}"
  | .payloadTooLarge actual limit => s!"payload is {actual} bytes; limit is {limit} bytes"
  | .invalidMetadata reason => s!"invalid routing metadata: {reason}"

def eqIgnoreAsciiCase (a b : String) : Bool :=
  a.toList.map Char.toLower == b.toList.map Char.toLower

/-- The loop over the headers; the accumulator is the value of the first header of the name. -/
def scanHeaders (name : String) :
    Option (Option String) → List Header → Except DecodeError (Option (Option String))
  | value, [] => .ok value
  | value, header :: rest =>
    if eqIgnoreAsciiCase header.key name then
      if value.isSome then .error (.duplicateHeader name)
      else
        match header.value with
        | none => scanHeaders name (some none) rest
        | some (.text text) => scanHeaders name (some (some text)) rest
        | some (.bytes _) => .error (.invalidUtf8 name)
    else scanHeaders name value rest

def optionalHeader (record : SourceRecord) (name : String) : Except DecodeError (Option String) :=
  match record.headers with
  | none => .ok none
  | some headers => do
    let value ← scanHeaders name none headers
    return value.join

def requiredHeader (record : SourceRecord) (name : String) : Except DecodeError String := do
  match ← optionalHeader record name with
  | some value => return value
  | none => throw (.missingHeader name)

def decodeTraceContext (traceparent tracestate : Option String) :
    Except DecodeError (Option TraceContext) :=
  match traceparent, tracestate with
  | some traceparent, tracestate =>
    match TraceContext.new traceparent tracestate with
    | .ok context => .ok (some context)
    | .error e => .error (.invalidMetadata e.display)
  | none, some _ => .error (.invalidMetadata "tracestate requires traceparent")
  | none, none => .ok none

/-- The message identifier of a record that brings none. -/
def positionId (position : KafkaPosition) : String :=
  let topic := position.topic
  let partition := position.partition
  let offset := position.offset
  s!"{topic}:{partition}:{offset}"

def decodeMessage (position : KafkaPosition) (record : SourceRecord) (maxPayloadBytes : ℕ) :
    Except DecodeError RoutedMessage := do
  let payload := record.payload.getD []
  if payload.length > maxPayloadBytes then
    throw (.payloadTooLarge payload.length maxPayloadBytes)
  let tenantId ← requiredHeader record "x-tenant-id"
  let messageId ← optionalHeader record "x-message-id"
  let contentType ← optionalHeader record "x-content-type"
  let traceparent ← optionalHeader record "traceparent"
  let tracestate ← optionalHeader record "tracestate"
  let traceContext ← decodeTraceContext traceparent tracestate
  let kind ← optionalHeader record "x-kind"
  let messageType ← optionalHeader record "x-type"
  let channel ← optionalHeader record "x-channel"
  let actorId ← optionalHeader record "x-actor-id"
  let recipientType ← optionalHeader record "x-recipient-type"
  let recipientIdentity ← optionalHeader record "x-recipient-identity"
  let metadata : RoutingMetadata :=
    { messageId := messageId.getD (positionId position)
      tenantId, kind, messageType, channel, actorId, recipientType, recipientIdentity
      contentType := contentType.getD "application/octet-stream"
      timestampMs := record.timestampMs
      source := some position }
  match RoutedMessage.newWithTraceContext metadata payload traceContext with
  | .ok message => return message
  | .error e => throw (.invalidMetadata e.display)

end KafkaEdgeRouter.Kafka
