import KafkaEdgeRouter.Base64
import KafkaEdgeRouter.JsonText
import KafkaEdgeRouter.RecordDecoder
import KafkaEdgeRouter.RouterState

/-!
# The JSON envelope of a delivery

WebSocket, SSE and webhook clients get deliveries as JSON. A payload of a JSON content type is put
into the envelope as the value it denotes, every other payload as an object with its base64 text; a
payload of a JSON content type that is no JSON gets such an object too, with a flag. Nothing keeps a
producer from sending a JSON text that denotes just this object, and then the envelope does not tell
which of two payloads was sent. The JSON parser is a parameter.
-/

namespace KafkaEdgeRouter.Wire

/-- Members are in the order of their names; a number is kept as the text it is written with. -/
inductive Value
  | null
  | bool (b : Bool)
  | number (literal : List Char)
  | string (s : String)
  | array (items : List Value)
  | object (members : List (String × Value))

mutual

def Value.text : Value → List Char
  | .null => "null".toList
  | .bool b => (if b then "true" else "false").toList
  | .number literal => literal
  | .string s => Json.string s
  | .array items => '[' :: itemsText items ++ [']']
  | .object members => '\x7b' :: membersText members ++ ['\x7d']

def itemsText : List Value → List Char
  | [] => []
  | [item] => item.text
  | item :: next :: rest => item.text ++ ',' :: itemsText (next :: rest)

def membersText : List (String × Value) → List Char
  | [] => []
  | [(name, value)] => Json.string name ++ ':' :: value.text
  | (name, value) :: next :: rest =>
    Json.string name ++ ':' :: value.text ++ ',' :: membersText (next :: rest)

end

def utf8 (text : List Char) : List UInt8 := text.flatMap String.utf8EncodeChar

theorem length_utf8 (text : List Char) : (utf8 text).length = Json.size text := by
  induction text with
  | nil => rfl
  | cons c text ih =>
    rw [utf8, List.flatMap_cons, List.length_append, String.length_utf8EncodeChar]
    rw [utf8] at ih
    rw [ih, Json.size_cons]

abbrev JsonParser : Type := List UInt8 → Option Value

/-- The content type without its parameters is `application/json`. -/
def isJson (contentType : String) : Bool :=
  let essence := String.ofList (contentType.toList.takeWhile (fun c => c ≠ ';'))
  Kafka.eqIgnoreAsciiCase (String.ofList (trim essence)) "application/json"

def base64Text (payload : List UInt8) : Value := .string (String.ofList (Base64.encode payload))

def base64Wrapper (payload : List UInt8) : Value :=
  .object [("data", base64Text payload), ("encoding", .string "base64")]

def invalidJsonWrapper (payload : List UInt8) : Value :=
  .object [("data", base64Text payload), ("encoding", .string "base64"),
    ("invalid_json", .bool true)]

def payloadAsJson (parse : JsonParser) (message : RoutedMessage) : Value :=
  if isJson message.metadata.contentType then
    (parse message.payload).getD (invalidJsonWrapper message.payload)
  else base64Wrapper message.payload

/-! ### The envelope -/

def optionalMember (name : String) (value : Option Value) : List (String × Value) :=
  value.toList.map fun v => (name, v)

def positionValue (position : KafkaPosition) : Value :=
  .object [("offset", .number (Json.integer position.offset)),
    ("partition", .number (Json.integer position.partition)), ("topic", .string position.topic)]

/-- Absent fields are left out. -/
def metadataValue (metadata : RoutingMetadata) : Value :=
  .object (optionalMember "actor_id" (metadata.actorId.map .string) ++
    optionalMember "channel" (metadata.channel.map .string) ++
    [("content_type", .string metadata.contentType)] ++
    optionalMember "kind" (metadata.kind.map .string) ++
    [("message_id", .string metadata.messageId)] ++
    optionalMember "recipient_identity" (metadata.recipientIdentity.map .string) ++
    optionalMember "recipient_type" (metadata.recipientType.map .string) ++
    optionalMember "source" (metadata.source.map positionValue) ++
    [("tenant_id", .string metadata.tenantId)] ++
    optionalMember "timestamp_ms"
      (metadata.timestampMs.map fun time => .number (Json.integer time)) ++
    optionalMember "type" (metadata.messageType.map .string))

def deliveryValue (parse : JsonParser) (delivery : Delivery) : Value :=
  .object [("message", .object [("metadata", metadataValue delivery.message.metadata),
      ("payload", payloadAsJson parse delivery.message)]),
    ("operation", .string "message"),
    ("subscription_ids", .array (delivery.subscriptionIds.map fun id => .string id.value))]

def encodeDeliveryJson (parse : JsonParser) (delivery : Delivery) : List UInt8 :=
  utf8 (deliveryValue parse delivery).text

/-! ### Which payloads can be told apart -/

section Payloads

variable {parse : JsonParser} {message message' : RoutedMessage} {payload payload' : List UInt8}

theorem base64Text_injective (h : base64Text payload = base64Text payload') :
    payload = payload' := by
  rw [base64Text, base64Text, Value.string.injEq] at h
  have hencode : Base64.encode payload = Base64.encode payload' := String.ofList_injective h
  rw [← Option.some.injEq, ← Base64.decode_encode, hencode, Base64.decode_encode]

theorem base64Wrapper_injective (h : base64Wrapper payload = base64Wrapper payload') :
    payload = payload' := by
  simp only [base64Wrapper, Value.object.injEq, List.cons.injEq, Prod.mk.injEq] at h
  exact base64Text_injective h.1.2

theorem invalidJsonWrapper_injective
    (h : invalidJsonWrapper payload = invalidJsonWrapper payload') : payload = payload' := by
  simp only [invalidJsonWrapper, Value.object.injEq, List.cons.injEq, Prod.mk.injEq] at h
  exact base64Text_injective h.1.2

/-- The first payload is a JSON text for the object that stands for the second, which is no JSON. -/
def PosesAs (parse : JsonParser) (message message' : RoutedMessage) : Prop :=
  isJson message.metadata.contentType = true ∧
    parse message.payload = some (invalidJsonWrapper message'.payload) ∧
    parse message'.payload = none

theorem payloadAsJson_of_isJson (h : isJson message.metadata.contentType = true) :
    payloadAsJson parse message =
      (parse message.payload).getD (invalidJsonWrapper message.payload) := if_pos h

end Payloads

/-- Messages with the same metadata and the same payload in the envelope have the same payload
bytes, or JSON payloads of the same value, if and only if neither poses as the other. -/
theorem envelope_unambiguous_iff (parse : JsonParser) {message message' : RoutedMessage}
    (hmetadata : message.metadata = message'.metadata) :
    (payloadAsJson parse message = payloadAsJson parse message' →
      message.payload = message'.payload ∨
        isJson message.metadata.contentType = true ∧
          ∃ value, parse message.payload = some value ∧ parse message'.payload = some value) ↔
      ¬ PosesAs parse message message' ∧ ¬ PosesAs parse message' message := by
  by_cases hjson : isJson message.metadata.contentType = true
  · have hjson' : isJson message'.metadata.contentType = true := hmetadata ▸ hjson
    rw [payloadAsJson_of_isJson hjson, payloadAsJson_of_isJson hjson']
    have hne : ∀ {p p' : List UInt8} {value}, parse p = some value → parse p' = none → p ≠ p' := by
      rintro p p' value hp hp' rfl
      rw [hp] at hp'
      cases hp'
    unfold PosesAs
    cases hparse : parse message.payload with
    | none =>
      cases hparse' : parse message'.payload with
      | none => exact iff_of_true (fun h => Or.inl (invalidJsonWrapper_injective h)) (by simp)
      | some value' =>
        have hdiffer := hne hparse' hparse
        simp only [Option.getD_none, Option.getD_some, Ne.symm hdiffer, hjson, hjson', reduceCtorEq,
          Option.some.injEq, false_and, and_false, and_true, true_and, exists_false, or_false,
          not_false_eq_true, imp_false, eq_comm]
    | some value =>
      cases hparse' : parse message'.payload with
      | none =>
        have hdiffer := hne hparse hparse'
        simp only [Option.getD_none, Option.getD_some, hdiffer, hjson, hjson', reduceCtorEq,
          Option.some.injEq, and_false, and_true, true_and, exists_false, or_false,
          not_false_eq_true, imp_false]
      | some value' =>
        refine iff_of_true (fun h => Or.inr ⟨hjson, value, rfl, ?_⟩) (by simp)
        rw [show value = value' from h]
  · have hjson' : ¬ isJson message'.metadata.contentType = true := hmetadata ▸ hjson
    rw [payloadAsJson, payloadAsJson, if_neg hjson, if_neg hjson']
    exact iff_of_true (fun h => Or.inl (base64Wrapper_injective h))
      ⟨fun h => hjson h.1, fun h => hjson' h.1⟩

/-- The metadata of a JSON message. -/
def jsonMetadata : RoutingMetadata where
  messageId := "m-1"
  tenantId := "acme"
  kind := none
  messageType := none
  channel := none
  actorId := none
  recipientType := none
  recipientIdentity := none
  contentType := "application/json"
  timestampMs := none
  source := none

def jsonMessage (payload : List UInt8) : RoutedMessage := ⟨jsonMetadata, payload, none, by decide⟩

/-- A parser that reads the text of one value. -/
def readsTextOf (value : Value) : JsonParser := fun bytes =>
  if bytes = utf8 value.text then some value else none

def wrapperText : List UInt8 :=
  utf8 "\x7b\"data\":\"/w==\",\"encoding\":\"base64\",\"invalid_json\":true\x7d".toList

theorem text_invalidJsonWrapper : utf8 (invalidJsonWrapper [0xff]).text = wrapperText := by
  decide +kernel

def wrapperParser : JsonParser := readsTextOf (invalidJsonWrapper [0xff])

theorem wrapperParser_byte : wrapperParser [0xff] = none := by
  rw [wrapperParser, readsTextOf, text_invalidJsonWrapper, if_neg]
  decide +kernel

theorem wrapperParser_text : wrapperParser wrapperText = some (invalidJsonWrapper [0xff]) := by
  rw [wrapperParser, readsTextOf, text_invalidJsonWrapper, if_pos rfl]

/-- The byte `ff` is no JSON, and the text of its wrapper is; in the envelope they look alike. -/
theorem wrapper_text_ambiguous :
    wrapperParser [0xff] = none ∧ wrapperParser wrapperText = some (invalidJsonWrapper [0xff]) ∧
      payloadAsJson wrapperParser (jsonMessage [0xff]) =
        payloadAsJson wrapperParser (jsonMessage wrapperText) ∧
      (jsonMessage [0xff]).payload ≠ (jsonMessage wrapperText).payload := by
  refine ⟨wrapperParser_byte, wrapperParser_text, ?_, ?_⟩
  · have hjson : ∀ payload, isJson (jsonMessage payload).metadata.contentType = true := by
      intro payload
      change isJson "application/json" = true
      decide
    rw [payloadAsJson_of_isJson (hjson _), payloadAsJson_of_isJson (hjson _), jsonMessage,
      jsonMessage, wrapperParser_byte, wrapperParser_text, Option.getD_none, Option.getD_some]
  · change [0xff] ≠ wrapperText
    decide +kernel

theorem envelope_unambiguous_iff_plain :
    payloadAsJson (fun _ => none) (jsonMessage [0xff]) ≠
      payloadAsJson (fun _ => none) (jsonMessage [0xfe]) := by
  intro h
  have hmetadata : (jsonMessage [0xff]).metadata = (jsonMessage [0xfe]).metadata := rfl
  have hposes : ∀ message message', ¬ PosesAs (fun _ => none) message message' := by
    rintro message message' ⟨_, hp, _⟩
    cases hp
  rcases (envelope_unambiguous_iff (fun _ => none) hmetadata).mpr ⟨hposes _ _, hposes _ _⟩ h with
    heq | ⟨_, _, hp, _⟩
  · exact absurd heq (by decide)
  · cases hp

end KafkaEdgeRouter.Wire
