import KafkaEdgeRouter.KafkaPublisher
import KafkaEdgeRouter.RouteKeys

/-!
# Decoding what was published

The decoder undoes the publisher. The headers of a published record are its named fields in order,
without those that are absent. Since no two of the names agree when case is ignored, looking one of
them up finds the field of that name and nothing else.
-/

namespace KafkaEdgeRouter.Kafka

section Fields

variable {fields : List (String × Option String)} {name : String} {value : Option String}

def fieldHeader (field : String × Option String) : Option Header :=
  field.2.map fun text => ⟨field.1, some (.text text)⟩

theorem foldl_insertOptional (headers : List Header) :
    fields.foldl (fun headers field => insertOptional headers field.1 field.2) headers =
      headers ++ fields.filterMap fieldHeader := by
  induction fields generalizing headers with
  | nil => simp
  | cons field rest ih =>
    obtain ⟨key, value⟩ := field
    rw [List.foldl_cons, ih, List.filterMap_cons]
    cases value with
    | none => rfl
    | some text => simp [insertOptional, insert, fieldHeader]

theorem scanHeaders_of_forall_ne {headers : List Header} (found : Option (Option String))
    (h : ∀ header ∈ headers, eqIgnoreAsciiCase header.key name = false) :
    scanHeaders name found headers = .ok found := by
  induction headers with
  | nil => rfl
  | cons header rest ih =>
    rw [scanHeaders, h header List.mem_cons_self, if_neg (by simp)]
    exact ih fun header' hmem => h header' (List.mem_cons_of_mem _ hmem)

theorem key_of_mem_fieldHeaders {header : Header} (h : header ∈ fields.filterMap fieldHeader) :
    header.key ∈ fields.map Prod.fst := by
  obtain ⟨field, hmem, hheader⟩ := List.mem_filterMap.mp h
  obtain ⟨text, _, rfl⟩ := Option.map_eq_some_iff.mp hheader
  exact List.mem_map_of_mem hmem

/-- No two names agree when case is ignored. -/
def Distinct (names : List String) : Prop :=
  names.Pairwise fun a b => eqIgnoreAsciiCase a b = false ∧ eqIgnoreAsciiCase b a = false

instance (names : List String) : Decidable (Distinct names) :=
  inferInstanceAs (Decidable (List.Pairwise _ _))

theorem eqIgnoreAsciiCase_self (name : String) : eqIgnoreAsciiCase name name = true := by
  simp [eqIgnoreAsciiCase]

theorem scanHeaders_absent (h : ∀ key ∈ fields.map Prod.fst, eqIgnoreAsciiCase key name = false)
    (found : Option (Option String)) :
    scanHeaders name found (fields.filterMap fieldHeader) = .ok found :=
  scanHeaders_of_forall_ne found fun _ hmem => h _ (key_of_mem_fieldHeaders hmem)

theorem scanHeaders_fields (hdistinct : Distinct (fields.map Prod.fst))
    (hmem : (name, value) ∈ fields) :
    scanHeaders name none (fields.filterMap fieldHeader) = .ok (value.map some) := by
  induction fields with
  | nil => cases hmem
  | cons field rest ih =>
    obtain ⟨hhead, hrest⟩ := List.pairwise_cons.mp hdistinct
    rcases List.mem_cons.mp hmem with rfl | hlater
    · have hother : ∀ key ∈ rest.map Prod.fst, eqIgnoreAsciiCase key name = false :=
        fun key hkey => (hhead key hkey).2
      cases value with
      | none => exact scanHeaders_absent hother none
      | some text =>
        have hcons : ((name, some text) :: rest).filterMap fieldHeader =
            ⟨name, some (.text text)⟩ :: rest.filterMap fieldHeader := rfl
        rw [hcons, scanHeaders, if_pos (eqIgnoreAsciiCase_self name)]
        exact scanHeaders_absent hother _
    · have hne : eqIgnoreAsciiCase field.1 name = false :=
        (hhead name (List.mem_map_of_mem hlater)).1
      obtain ⟨key, _ | text⟩ := field
      · exact ih hrest hlater
      · have hcons : ((key, some text) :: rest).filterMap fieldHeader =
            ⟨key, some (.text text)⟩ :: rest.filterMap fieldHeader := rfl
        rw [hcons, scanHeaders, hne, if_neg (by simp)]
        exact ih hrest hlater

theorem optionalHeader_eq {record : SourceRecord} {headers : List Header}
    (hheaders : record.headers = some headers)
    (hscan : scanHeaders name none headers = .ok (value.map some)) :
    optionalHeader record name = .ok value := by
  simp only [optionalHeader, hheaders, hscan, bind, Except.bind, pure, Except.pure]
  cases value <;> rfl

end Fields

/-- The fields of a message under the names of their headers. The first nine are in the order in
which the publisher inserts them. -/
def messageFields (metadata : RoutingMetadata) (traceContext : Option TraceContext) :
    List (String × Option String) :=
  [("x-message-id", some metadata.messageId), ("x-tenant-id", some metadata.tenantId),
    ("x-content-type", some metadata.contentType), ("x-kind", metadata.kind),
    ("x-type", metadata.messageType), ("x-channel", metadata.channel),
    ("x-actor-id", metadata.actorId), ("x-recipient-type", metadata.recipientType),
    ("x-recipient-identity", metadata.recipientIdentity),
    ("traceparent", traceContext.map TraceContext.traceparent),
    ("tracestate", traceContext.bind TraceContext.tracestate)]

theorem publishHeaders_eq (command : PublishCommand) :
    publishHeaders command = (messageFields command.metadata none).filterMap fieldHeader := by
  have hfold : publishHeaders command = (messageFields command.metadata none).foldl
      (fun headers field => insertOptional headers field.1 field.2) [] := rfl
  rw [hfold, foldl_insertOptional, List.nil_append]

theorem distinct_messageFields (metadata : RoutingMetadata) (traceContext : Option TraceContext) :
    Distinct ((messageFields metadata traceContext).map Prod.fst) := by
  change Distinct ["x-message-id", "x-tenant-id", "x-content-type", "x-kind", "x-type", "x-channel",
    "x-actor-id", "x-recipient-type", "x-recipient-identity", "traceparent", "tracestate"]
  decide +kernel

theorem decodeTraceContext_fields {traceContext : Option TraceContext}
    (h : ∀ context, traceContext = some context →
      TraceContext.new context.traceparent context.tracestate = .ok context) :
    decodeTraceContext (traceContext.map TraceContext.traceparent)
      (traceContext.bind TraceContext.tracestate) = .ok traceContext := by
  cases traceContext with
  | none => rfl
  | some context => simp only [decodeTraceContext, Option.map_some, Option.bind_some, h context rfl]

/-- Decoding reads every field back. -/
theorem decodeMessage_fields {record : SourceRecord} {metadata : RoutingMetadata}
    {traceContext : Option TraceContext} {payload : List UInt8} {maxPayloadBytes : ℕ}
    (hheaders : record.headers = some ((messageFields metadata traceContext).filterMap fieldHeader))
    (hvalid : metadata.validate = .ok ())
    (htrace : ∀ context, traceContext = some context →
      TraceContext.new context.traceparent context.tracestate = .ok context)
    (hpayload : record.payload = some payload) (hsize : payload.length ≤ maxPayloadBytes)
    (position : KafkaPosition) :
    decodeMessage position record maxPayloadBytes =
      .ok ⟨{ metadata with timestampMs := record.timestampMs, source := some position }, payload,
        traceContext, hvalid⟩ := by
  have hfield : ∀ {name value}, (name, value) ∈ messageFields metadata traceContext →
      optionalHeader record name = .ok value := fun h =>
    optionalHeader_eq hheaders (scanHeaders_fields (distinct_messageFields _ _) h)
  have htenant : optionalHeader record "x-tenant-id" = .ok (some metadata.tenantId) :=
    hfield (by simp [messageFields])
  have hmessageId : optionalHeader record "x-message-id" = .ok (some metadata.messageId) :=
    hfield (by simp [messageFields])
  have hcontentType : optionalHeader record "x-content-type" = .ok (some metadata.contentType) :=
    hfield (by simp [messageFields])
  have hkind : optionalHeader record "x-kind" = .ok metadata.kind :=
    hfield (by simp [messageFields])
  have htype : optionalHeader record "x-type" = .ok metadata.messageType :=
    hfield (by simp [messageFields])
  have hchannel : optionalHeader record "x-channel" = .ok metadata.channel :=
    hfield (by simp [messageFields])
  have hactorId : optionalHeader record "x-actor-id" = .ok metadata.actorId :=
    hfield (by simp [messageFields])
  have hrecipientType : optionalHeader record "x-recipient-type" = .ok metadata.recipientType :=
    hfield (by simp [messageFields])
  have hrecipientIdentity :
      optionalHeader record "x-recipient-identity" = .ok metadata.recipientIdentity :=
    hfield (by simp [messageFields])
  have hparent : optionalHeader record "traceparent" =
      .ok (traceContext.map TraceContext.traceparent) := hfield (by simp [messageFields])
  have hstate : optionalHeader record "tracestate" =
      .ok (traceContext.bind TraceContext.tracestate) := hfield (by simp [messageFields])
  have hvalid' : ({ metadata with
      timestampMs := record.timestampMs, source := some position } : RoutingMetadata).validate =
      .ok () := hvalid
  have hnew := RoutedMessage.newWithTraceContext_eq_ok payload traceContext hvalid'
  simp only [decodeMessage, requiredHeader, hpayload, Option.getD_some, htenant, hmessageId,
    hcontentType, hkind, htype, hchannel, hactorId, hrecipientType, hrecipientIdentity, hparent,
    hstate, decodeTraceContext_fields htrace, bind, Except.bind, pure, Except.pure,
    if_neg (Nat.not_lt.mpr hsize), hnew]

theorem decodeMessage_published {command : PublishCommand} {record : SourceRecord}
    (hheaders : record.headers = some (publishHeaders command)) (position : KafkaPosition)
    {maxPayloadBytes : ℕ} (hvalid : command.metadata.validate = .ok ())
    (hpayload : record.payload = some command.payload)
    (hsize : command.payload.length ≤ maxPayloadBytes) :
    decodeMessage position record maxPayloadBytes =
      .ok ⟨{ command.metadata with timestampMs := record.timestampMs, source := some position },
        command.payload, none, hvalid⟩ := by
  rw [publishHeaders_eq] at hheaders
  exact decodeMessage_fields hheaders hvalid (fun _ h => nomatch h) hpayload hsize position

/-- Every command that passes validation and fits the payload limit is decoded as it was published,
wherever Kafka stores the record and whatever its timestamp; so the keys under which the decoded
message is routed depend on the command alone. -/
theorem decode_publish (parseMime : MimeParser) (publisher : KafkaPublisher)
    (command : PublishCommand) (hvalid : command.validate parseMime = .ok ()) {maxPayloadBytes : ℕ}
    (hsize : command.payload.length ≤ maxPayloadBytes) (position : KafkaPosition)
    (timestampMs : Option ℤ) :
    ∃ sending message, publisher.publish parseMime command = .ok sending ∧
      decodeMessage position (sending.record.consumed timestampMs) maxPayloadBytes = .ok message ∧
      message.metadata =
        { messageId := command.messageId
          tenantId := command.tenantId
          kind := command.kind
          messageType := command.messageType
          channel := command.channel
          actorId := command.actorId
          recipientType := command.recipientType
          recipientIdentity := command.recipientIdentity
          contentType := command.contentType
          timestampMs := timestampMs
          source := some position } ∧
      message.payload = command.payload ∧ message.traceContext = none ∧
      RouteKey.candidates message.metadata = RouteKey.candidates command.metadata := by
  have hmetadata : command.metadata.validate = .ok () :=
    mapError_eq_ok.mp (check_eq_ok.mp hvalid).1
  have hpublish : publisher.publish parseMime command = .ok _ := check_eq_ok.mpr ⟨hvalid, rfl⟩
  exact ⟨_, _, hpublish, decodeMessage_published rfl position hmetadata rfl hsize, rfl, rfl, rfl,
    rfl⟩

def orderPlaced : PublishCommand where
  messageId := "Bestellung-1"
  tenantId := "acme"
  kind := some "order"
  messageType := none
  channel := none
  actorId := none
  recipientType := some "größe"
  recipientIdentity := some "42"
  orderingKey := none
  contentType := "application/json"
  payload := []

theorem decode_publish_orderPlaced :
    orderPlaced.validate applicationJson = .ok () ∧
      ∃ sending message,
        (⟨"events"⟩ : KafkaPublisher).publish applicationJson orderPlaced = .ok sending ∧
        decodeMessage ⟨"events", 3, 17⟩ (sending.record.consumed none) 0 = .ok message ∧
        message.metadata.recipientType = some "größe" ∧ message.payload = [] := by
  have hvalid : orderPlaced.validate applicationJson = .ok () := by decide +kernel
  obtain ⟨sending, message, hpublish, hdecode, hmetadata, hpayload, _, _⟩ :=
    decode_publish applicationJson ⟨"events"⟩ orderPlaced hvalid (Nat.le_refl 0)
      ⟨"events", 3, 17⟩ none
  exact ⟨hvalid, sending, message, hpublish, hdecode, by rw [hmetadata]; rfl, hpayload⟩

end KafkaEdgeRouter.Kafka
