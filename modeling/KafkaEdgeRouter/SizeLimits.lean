import KafkaEdgeRouter.AppConfig
import KafkaEdgeRouter.PublishContract
import KafkaEdgeRouter.RecordRoundTrip
import KafkaEdgeRouter.WireEncoding

/-!
# Size limits from stage to stage

A payload is measured when it is published, when its record is consumed and, in durable mode, when
the command of a webhook is stored. The first two measure the same bytes against two limits that the
validation of the configuration does not compare. The third measures JSON text that holds the
message twice encoded: its size is worked out here from the lengths of what goes into it.
-/

namespace KafkaEdgeRouter

namespace Wire

theorem membersText_eq (members : List (String × Value)) :
    membersText members = Json.members (members.map fun m => (m.1, m.2.text)) := by
  induction members with
  | nil => rfl
  | cons member members ih =>
    cases members with
    | nil => rfl
    | cons next members =>
      rw [membersText, ih]
      rfl

theorem size_object {members : List (String × Value)} (h : members ≠ []) :
    Json.size (Value.object members).text =
      1 + (members.map fun m => Json.memberSize m.1 (Json.size m.2.text)).sum := by
  have hne : (members.map fun m => (m.1, m.2.text)) ≠ [] := by simpa using h
  rw [Value.text, membersText_eq]
  refine (Json.size_object hne).trans ?_
  rw [List.map_map]
  rfl

/-! ### The parts of the envelope -/

def arraySize (texts : List String) : ℕ :=
  if texts = [] then 2 else 1 + (texts.map fun s => Json.quoted s + 1).sum

theorem size_itemsText (text : String) (texts : List String) :
    Json.size (itemsText ((text :: texts).map .string)) + 1 =
      ((text :: texts).map fun s => Json.quoted s + 1).sum := by
  have hcomma : ','.utf8Size = 1 := by decide
  induction texts generalizing text with
  | nil => simp [itemsText, Value.text, Json.quoted]
  | cons next texts ih =>
    have hnext := ih next
    simp only [List.map_cons, List.sum_cons, itemsText, Value.text, Json.size_append,
      Json.size_cons, hcomma, Json.quoted] at hnext ⊢
    omega

theorem size_array (texts : List String) :
    Json.size (Value.array (texts.map .string)).text = arraySize texts := by
  have hopen : '['.utf8Size = 1 := by decide
  have hclose : ']'.utf8Size = 1 := by decide
  cases texts with
  | nil => rfl
  | cons text texts =>
    have hitems := size_itemsText text texts
    rw [arraySize, if_neg (List.cons_ne_nil _ _), ← hitems]
    simp only [Value.text, Json.size_append, Json.size_cons, Json.size_nil, hopen, hclose]
    omega

/-- The bytes of a member that may be left out. -/
def optionalSize {α : Type} (name : String) (size : α → ℕ) : Option α → ℕ
  | none => 0
  | some a => Json.memberSize name (size a)

def integerSize (n : ℤ) : ℕ := Json.size (Json.integer n)

def positionSize (position : KafkaPosition) : ℕ :=
  1 + Json.memberSize "offset" (integerSize position.offset) +
    Json.memberSize "partition" (integerSize position.partition) +
    Json.memberSize "topic" (Json.quoted position.topic)

def metadataSize (metadata : RoutingMetadata) : ℕ :=
  1 + optionalSize "actor_id" Json.quoted metadata.actorId +
    optionalSize "channel" Json.quoted metadata.channel +
    Json.memberSize "content_type" (Json.quoted metadata.contentType) +
    optionalSize "kind" Json.quoted metadata.kind +
    Json.memberSize "message_id" (Json.quoted metadata.messageId) +
    optionalSize "recipient_identity" Json.quoted metadata.recipientIdentity +
    optionalSize "recipient_type" Json.quoted metadata.recipientType +
    optionalSize "source" positionSize metadata.source +
    Json.memberSize "tenant_id" (Json.quoted metadata.tenantId) +
    optionalSize "timestamp_ms" integerSize metadata.timestampMs +
    optionalSize "type" Json.quoted metadata.messageType

/-- The bytes of the base64 text of so many bytes, in quotes. -/
def base64Size (length : ℕ) : ℕ := (length + 2) / 3 * 4 + 2

/-- The bytes of an object with the base64 text of so many bytes. -/
def wrappedSize (length : ℕ) : ℕ :=
  1 + Json.memberSize "data" (base64Size length) + Json.memberSize "encoding" 8

/-- A JSON payload takes what its value is written with, and one that should have been JSON takes
what it is wrapped in, with a flag. -/
def jsonSize (parse : JsonParser) (payload : List UInt8) : ℕ :=
  match parse payload with
  | some value => Json.size value.text
  | none => wrappedSize payload.length + Json.memberSize "invalid_json" 4

def payloadSize (parse : JsonParser) (message : RoutedMessage) : ℕ :=
  if isJson message.metadata.contentType then jsonSize parse message.payload
  else wrappedSize message.payload.length

def deliverySize (parse : JsonParser) (delivery : Delivery) : ℕ :=
  1 + Json.memberSize "message"
      (1 + Json.memberSize "metadata" (metadataSize delivery.message.metadata) +
        Json.memberSize "payload" (payloadSize parse delivery.message)) +
    Json.memberSize "operation" 9 +
    Json.memberSize "subscription_ids" (arraySize (delivery.subscriptionIds.map (·.value)))

theorem quoted_encode (bytes : List UInt8) :
    Json.quoted (String.ofList (Base64.encode bytes)) = base64Size bytes.length := by
  have hplain : ∀ n : Fin 64, Json.escape (Base64.symbol n) = [Base64.symbol n] := by
    decide +kernel
  have hescape : ∀ c ∈ (String.ofList (Base64.encode bytes)).toList, Json.escape c = [c] := by
    intro c hc
    rw [String.toList_ofList] at hc
    obtain rfl | ⟨n, hn, rfl⟩ := Base64.mem_encode hc
    · decide
    · exact hplain ⟨n, hn⟩
  rw [Json.quoted_of_plain hescape, Base64.utf8ByteSize_encode, base64Size]

theorem size_optionalMember {α : Type} (name : String) (value : α → Value) (size : α → ℕ)
    (hsize : ∀ a, Json.size (value a).text = size a) (a : Option α) :
    ((optionalMember name (a.map value)).map fun m =>
      Json.memberSize m.1 (Json.size m.2.text)).sum = optionalSize name size a := by
  cases a with
  | none => rfl
  | some a => simp [optionalMember, optionalSize, hsize]

theorem size_positionValue (position : KafkaPosition) :
    Json.size (positionValue position).text = positionSize position := by
  rw [positionValue, size_object (List.cons_ne_nil _ _)]
  simp only [List.map_cons, List.map_nil, List.sum_cons, List.sum_nil, Value.text, positionSize,
    integerSize, Json.quoted]
  omega

theorem size_metadataValue (metadata : RoutingMetadata) :
    Json.size (metadataValue metadata).text = metadataSize metadata := by
  have htext : ∀ s, Json.size (Value.string s).text = Json.quoted s := fun s => rfl
  have hinteger : ∀ n, Json.size (Value.number (Json.integer n)).text = integerSize n :=
    fun n => rfl
  rw [metadataValue, size_object (by simp)]
  simp only [List.map_append, List.sum_append, List.map_cons, List.map_nil, List.sum_cons,
    List.sum_nil, size_optionalMember _ _ _ htext, size_optionalMember _ _ _ hinteger,
    size_optionalMember _ _ _ size_positionValue, htext, metadataSize]
  omega

theorem size_payloadAsJson (parse : JsonParser) (message : RoutedMessage) :
    Json.size (payloadAsJson parse message).text = payloadSize parse message := by
  have hdata : Json.size (base64Text message.payload).text = base64Size message.payload.length :=
    quoted_encode message.payload
  have hencoding : Json.size (Value.string "base64").text = 8 := by decide
  have htrue : Json.size (Value.bool true).text = 4 := by decide
  unfold payloadAsJson payloadSize
  by_cases hjson : isJson message.metadata.contentType = true
  · rw [if_pos hjson, if_pos hjson, jsonSize]
    cases parse message.payload with
    | some value => rfl
    | none =>
      simp only [Option.getD_none, invalidJsonWrapper, size_object (List.cons_ne_nil _ _),
        List.map_cons, List.map_nil, List.sum_cons, List.sum_nil, hdata, hencoding, htrue,
        wrappedSize]
      omega
  · rw [if_neg hjson, if_neg hjson]
    simp only [base64Wrapper, size_object (List.cons_ne_nil _ _), List.map_cons, List.map_nil,
      List.sum_cons, List.sum_nil, hdata, hencoding, wrappedSize]
    omega

theorem length_encodeDeliveryJson (parse : JsonParser) (delivery : Delivery) :
    (encodeDeliveryJson parse delivery).length = deliverySize parse delivery := by
  have hoperation : Json.size (Value.string "message").text = 9 := by decide
  have hids : (delivery.subscriptionIds.map fun id => Value.string id.value) =
      (delivery.subscriptionIds.map (·.value)).map .string := by
    rw [List.map_map]
    rfl
  rw [encodeDeliveryJson, length_utf8, deliveryValue, hids]
  simp only [size_object (List.cons_ne_nil _ _), List.map_cons, List.map_nil, List.sum_cons,
    List.sum_nil, size_metadataValue, size_payloadAsJson, hoperation, size_array, deliverySize,
    Nat.add_zero, Nat.add_assoc]

end Wire

namespace Daemon

open Api (validateCommand)
open Kafka (decodeMessage KafkaPublisher SourceRecord)
open Webhook (WebhookRuntime DurableRecord)
open Wire (integerSize optionalSize base64Size deliverySize)

/-- What durable webhooks are started with. -/
def AppConfig.runtime (config : AppConfig) (parse : Wire.JsonParser) (order : ℕ → HashOrder) :
    WebhookRuntime where
  router := config.router
  webhooks := config.webhooks.config
  maxPayloadBytes := config.consumer.maxPayloadBytes
  commitInvalidMessages := config.consumer.commitInvalidMessages
  encodeDeliveryJson := Wire.encodeDeliveryJson parse
  order := order

/-- The bytes of a value, or of `null`. -/
def nullableSize {α : Type} (size : α → ℕ) : Option α → ℕ
  | none => 4
  | some a => size a

def traceSize (context : TraceContext) : ℕ :=
  1 + Json.memberSize "traceparent" (Json.quoted context.traceparent) +
    Json.memberSize "tracestate" (nullableSize Json.quoted context.tracestate)

/-- The bytes of the values of a stored command that are not the same for all, and those of the
member with the trace, which may be left out. -/
structure StoredParts where
  deliveryId : ℕ
  destinationId : ℕ
  originalMessageId : ℕ
  body : ℕ
  nextAttemptAtMs : ℕ
  topic : ℕ
  partition : ℕ
  offset : ℕ
  trace : ℕ

def StoredParts.total (parts : StoredParts) : ℕ :=
  1 + Json.memberSize "schema_version" 1 + Json.memberSize "delivery_id" parts.deliveryId +
    Json.memberSize "destination_id" parts.destinationId +
    Json.memberSize "original_message_id" parts.originalMessageId +
    Json.memberSize "body_base64" parts.body + Json.memberSize "attempt" 1 +
    Json.memberSize "next_attempt_at_ms" parts.nextAttemptAtMs +
    Json.memberSize "last_error_class" 4 + Json.memberSize "source_topic" parts.topic +
    Json.memberSize "source_partition" parts.partition +
    Json.memberSize "source_offset" parts.offset + parts.trace + Json.memberSize "state" 10

def storedParts (parse : Wire.JsonParser) (destinationId messageId : String) (delivery : Delivery)
    (uuid : String) (now : ℕ) : StoredParts :=
  let source := delivery.message.metadata.source
  { deliveryId := Json.quoted uuid
    destinationId := Json.quoted destinationId
    originalMessageId := Json.quoted messageId
    body := base64Size (deliverySize parse delivery)
    nextAttemptAtMs := (Nat.toDigits 10 (min now Webhook.u64Max)).length
    topic := nullableSize Json.quoted (source.map KafkaPosition.topic)
    partition := nullableSize integerSize (source.map KafkaPosition.partition)
    offset := nullableSize integerSize (source.map KafkaPosition.offset)
    trace := optionalSize "trace_context" traceSize delivery.message.traceContext }

/-- The bytes of a stored command, from the lengths of what goes into it. -/
def storedSize (parse : Wire.JsonParser) (destinationId messageId : String) (delivery : Delivery)
    (uuid : String) (now : ℕ) : ℕ :=
  (storedParts parse destinationId messageId delivery uuid now).total

theorem size_option {α : Type} (value : α → List Char) (size : α → ℕ)
    (hsize : ∀ a, Json.size (value a) = size a) (a : Option α) :
    Json.size (Json.option value a) = nullableSize size a := by
  cases a with
  | none => exact (by decide : Json.size "null".toList = 4)
  | some a => exact hsize a

theorem size_traceJson (context : TraceContext) :
    Json.size (Webhook.traceJson context) = traceSize context := by
  have htext : ∀ s, Json.size (Json.string s) = Json.quoted s := fun s => rfl
  rw [Webhook.traceJson, Json.size_object (List.cons_ne_nil _ _)]
  simp only [List.map_cons, List.map_nil, List.sum_cons, List.sum_nil, htext,
    size_option Json.string Json.quoted htext, traceSize]
  omega

section Command

variable (config : AppConfig) (parse : Wire.JsonParser) (order : ℕ → HashOrder)
  (destination : Webhook.RouteDestination) (message : RoutedMessage) (delivery : Delivery)
  (uuid : String) (now : ℕ)

theorem size_command :
    ((config.runtime parse order).command destination message delivery uuid now).size =
      storedSize parse destination.id message.metadata.messageId delivery uuid now := by
  have htext : ∀ s, Json.size (Json.string s) = Json.quoted s := fun s => rfl
  have hinteger : ∀ n, Json.size (Json.integer n) = integerSize n := fun n => rfl
  have hone : Json.size (Json.natural 1) = 1 := by decide
  have hversion : Json.size (Json.natural Webhook.schemaVersion) = 1 := by decide
  have hstate : Json.quoted Webhook.RecordState.delivery.name = 10 := by decide
  have hclass : Json.size (Json.option
      (fun c : Webhook.FailureClass => Json.string c.name) none) = 4 := by decide
  have htrace : ((delivery.message.traceContext.toList.map fun context =>
      ("trace_context", Webhook.traceJson context)).map fun f =>
        Json.memberSize f.1 (Json.size f.2)).sum =
      optionalSize "trace_context" traceSize delivery.message.traceContext := by
    cases delivery.message.traceContext with
    | none => rfl
    | some context => simp [optionalSize, size_traceJson]
  rw [DurableRecord.size, DurableRecord.toJson, Json.size_object (by simp)]
  simp only [WebhookRuntime.command, AppConfig.runtime, List.map_append, List.sum_append,
    List.map_cons, List.map_nil, List.sum_cons, List.sum_nil, htext, htrace, hone, hversion, hstate,
    hclass, size_option Json.string Json.quoted htext,
    size_option Json.integer integerSize hinteger, Wire.quoted_encode,
    Wire.length_encodeDeliveryJson, Json.size_natural, storedSize, storedParts, StoredParts.total]
  omega

theorem publication_eq_ok :
    (((config.runtime parse order).command destination message delivery uuid now).publication
        config.webhooks.config.durable.deliveryTopic
        config.webhooks.config.durable.maxRecordBytes .done).1 = .ok () ↔
      storedSize parse destination.id message.metadata.messageId delivery uuid now ≤
        config.webhooks.config.durable.maxRecordBytes := by
  rw [← size_command config parse order]
  unfold DurableRecord.publication
  simp only
  split
  · simp only [reduceCtorEq, false_iff]
    omega
  · simp only [true_iff]
    omega

end Command

/-! ### From the publisher to the consumer -/

/-- The record that is published for the command is decoded when it is consumed. -/
def Decodes (parseMime : MimeParser) (maxPayloadBytes : ℕ) (command : PublishCommand) : Prop :=
  ∀ (publisher : KafkaPublisher) position timestampMs, ∃ sending message,
    publisher.publish parseMime command = .ok sending ∧
    decodeMessage position (sending.record.consumed timestampMs) maxPayloadBytes = .ok message

section Published

variable {parseMime : MimeParser} {command : PublishCommand} {maximum maxPayloadBytes : ℕ}

theorem validateCommand_eq_ok : validateCommand parseMime command maximum = .ok command ↔
    command.payload.length ≤ maximum ∧ command.validate parseMime = .ok () := by
  unfold validateCommand
  split
  · simp only [reduceCtorEq, false_iff]
    omega
  · rename_i hle
    cases hvalid : command.validate parseMime with
    | error e => simp [Except.mapError, bind, Except.bind]
    | ok _ =>
      have hle : command.payload.length ≤ maximum := Nat.le_of_not_gt hle
      simp [Except.mapError, bind, Except.bind, pure, Except.pure, hle]

theorem length_le_of_decodeMessage {position : KafkaPosition} {record : SourceRecord}
    {message : RoutedMessage} (h : decodeMessage position record maxPayloadBytes = .ok message) :
    (record.payload.getD []).length ≤ maxPayloadBytes := by
  simp only [decodeMessage] at h
  split_ifs at h with hlong
  · obtain ⟨_, hthrow, _⟩ := bind_eq_ok.mp h
    cases hthrow
  · exact Nat.le_of_not_gt hlong

theorem decodes_iff (hvalid : command.validate parseMime = .ok ()) :
    Decodes parseMime maxPayloadBytes command ↔ command.payload.length ≤ maxPayloadBytes := by
  have hpublish : ∀ publisher : KafkaPublisher, publisher.publish parseMime command = .ok _ :=
    fun publisher => check_eq_ok.mpr ⟨hvalid, rfl⟩
  constructor
  · intro hdecodes
    obtain ⟨sending, message, hsending, hdecode⟩ := hdecodes ⟨""⟩ ⟨"", 0, 0⟩ none
    rw [hpublish] at hsending
    cases hsending
    exact length_le_of_decodeMessage hdecode
  · intro hle publisher position timestampMs
    have hmetadata : command.metadata.validate = .ok () :=
      mapError_eq_ok.mp (check_eq_ok.mp hvalid).1
    exact ⟨_, _, hpublish publisher,
      Kafka.decodeMessage_published rfl position hmetadata rfl hle⟩

/-- A command with a payload of so many bytes. -/
def sample (length : ℕ) : PublishCommand where
  messageId := "m-1"
  tenantId := "acme"
  kind := none
  messageType := none
  channel := none
  actorId := none
  recipientType := none
  recipientIdentity := none
  orderingKey := none
  contentType := "application/octet-stream"
  payload := List.replicate length 0

theorem validate_sample
    (hmime : PublishCommand.validateContentType parseMime "application/octet-stream" = .ok ())
    (length : ℕ) : (sample length).validate parseMime = .ok () := by
  have hmetadata : (sample length).metadata.validate = .ok () :=
    (rfl : (sample 0).metadata.validate = .ok ())
  exact check_eq_ok.mpr ⟨mapError_eq_ok.mpr hmetadata, check_eq_ok.mpr ⟨hmime, rfl⟩⟩

theorem all_decode_iff
    (hmime : PublishCommand.validateContentType parseMime "application/octet-stream" = .ok ()) :
    (∀ command, validateCommand parseMime command maximum = .ok command →
      Decodes parseMime maxPayloadBytes command) ↔ maximum ≤ maxPayloadBytes := by
  constructor
  · intro hall
    have hvalid := validate_sample hmime maximum
    have hlength : (sample maximum).payload.length = maximum := List.length_replicate
    have haccepted : validateCommand parseMime (sample maximum) maximum = .ok (sample maximum) :=
      validateCommand_eq_ok.mpr ⟨Nat.le_of_eq hlength, hvalid⟩
    rw [← hlength]
    exact (decodes_iff hvalid).mp (hall _ haccepted)
  · intro hle command haccepted
    obtain ⟨hlength, hvalid⟩ := validateCommand_eq_ok.mp haccepted
    exact (decodes_iff hvalid).mpr (hlength.trans hle)

end Published

end Daemon

end KafkaEdgeRouter
