import KafkaEdgeRouter.FallbackIds
import KafkaEdgeRouter.SizeLimits
import Mathlib.Data.Set.Finite.List
import Mathlib.Order.Lattice.Nat

/-!
# Limits that agree from stage to stage

All that may be published can be consumed if the first limit is at most the second. Whether all that
may be consumed can be stored for a destination is a condition on the third: the identifiers of a
message are bounded, its coordinates and its time are machine integers, and what the filter of the
destination fixes is known, so there is a largest command, and it is attained. The worst text is one
of quotation marks, each of which takes two bytes. Only the growth of a JSON payload that is parsed
and written again is left to the parser.
-/

namespace KafkaEdgeRouter

/-! ### The longest texts -/

theorem Identifier.not_control {maxLen : ℕ} {value : String} (h : Identifier maxLen value)
    {c : Char} (hc : c ∈ value.toList) : 0x20 ≤ c.toNat := by
  have hprintable := h.printable c hc
  simp only [isControl, Bool.or_eq_false_iff, decide_eq_false_iff_not] at hprintable
  omega

theorem Identifier.quoted_le {maxLen : ℕ} {value : String} (h : Identifier maxLen value) :
    Json.quoted value ≤ 2 * maxLen + 2 := by
  have hquoted := Json.quoted_le fun c hc => h.not_control hc
  have hshort := h.short
  omega

/-- A text of quotation marks. -/
def marks (n : ℕ) : String := String.ofList (List.replicate n '"')

theorem toList_marks (n : ℕ) : (marks n).toList = List.replicate n '"' := String.toList_ofList

theorem quoted_marks (n : ℕ) : Json.quoted (marks n) = 2 * n + 2 := by
  rw [Json.quoted_eq, toList_marks, Json.size_flatMap_quotes]

theorem identifier_marks {n : ℕ} (h : 0 < n) : Identifier n (marks n) := by
  have hmem : ∀ c ∈ (marks n).toList, c = '"' := by
    rw [toList_marks]
    exact fun c => List.eq_of_mem_replicate
  refine ⟨⟨'"', ?_, by decide⟩, ?_, ?_⟩
  · rw [toList_marks]
    exact List.mem_replicate.mpr ⟨Nat.ne_of_gt h, rfl⟩
  · rw [Json.utf8ByteSize_eq_size, Json.size_of_ascii, toList_marks, List.length_replicate]
    intro c hc
    rw [hmem c hc]
    decide
  · intro c hc
    rw [hmem c hc]
    decide

namespace Wire

theorem mem_dropWhile_or {α : Type} {p : α → Bool} {a : α} {l : List α} (h : a ∈ l) :
    p a = true ∨ a ∈ l.dropWhile p := by
  rw [← List.takeWhile_append_dropWhile (p := p) (l := l)] at h
  rcases List.mem_append.mp h with htake | hdrop
  · exact Or.inl (List.mem_takeWhile_imp htake)
  · exact Or.inr hdrop

theorem mem_trim_or {c : Char} {value : String} (h : c ∈ value.toList) :
    isWhitespace c = true ∨ c ∈ trim value := by
  rcases mem_dropWhile_or h with hblank | hleft
  · exact Or.inl hblank
  · rcases mem_dropWhile_or (List.mem_reverse.mpr hleft) with hblank | hright
    · exact Or.inl hblank
    · exact Or.inr (List.mem_reverse.mpr hright)

theorem length_trim_le (value : String) : (trim value).length ≤ value.toList.length := by
  rw [trim, List.length_reverse]
  refine ((List.dropWhile_suffix _).length_le).trans ?_
  rw [List.length_reverse]
  exact (List.dropWhile_suffix _).length_le

section ContentType

variable {contentType : String}

/-- The text before the parameters of a content type. -/
def essence (contentType : String) : List Char := contentType.toList.takeWhile (fun c => c ≠ ';')

theorem map_toLower_trim (h : isJson contentType = true) :
    (trim (String.ofList (essence contentType))).map Char.toLower = "application/json".toList := by
  have hlower : "application/json".toList.map Char.toLower = "application/json".toList := by decide
  simp only [isJson, Kafka.eqIgnoreAsciiCase, beq_iff_eq, String.toList_ofList, hlower] at h
  exact h

theorem escape_of_mem_essence (hid : Identifier 256 contentType) (h : isJson contentType = true)
    {c : Char} (hc : c ∈ essence contentType) : Json.escape c = [c] := by
  have hge : 0x20 ≤ c.toNat := hid.not_control ((List.takeWhile_sublist _).subset hc)
  have hcases : c ≠ '"' ∧ c ≠ '\\' := by
    rw [← String.toList_ofList (l := essence contentType)] at hc
    rcases mem_trim_or hc with hblank | htrim
    · constructor
      · rintro rfl
        exact absurd hblank (by decide)
      · rintro rfl
        exact absurd hblank (by decide)
    · have hmem := List.mem_map_of_mem (f := Char.toLower) htrim
      rw [map_toLower_trim h] at hmem
      constructor
      · rintro rfl
        exact absurd hmem (by decide)
      · rintro rfl
        exact absurd hmem (by decide)
  exact Json.escape_of_plain hcases.1 hcases.2 hge

theorem length_essence_ge (h : isJson contentType = true) : 16 ≤ (essence contentType).length := by
  have hlength := congrArg List.length (map_toLower_trim h)
  have htrim := length_trim_le (String.ofList (essence contentType))
  have htext : "application/json".toList.length = 16 := by decide
  rw [List.length_map, htext] at hlength
  rw [String.toList_ofList] at htrim
  omega

/-- The seventeen characters up to the parameters are not escaped. -/
theorem quoted_json_le (hid : Identifier 256 contentType) (h : isJson contentType = true) :
    Json.quoted contentType ≤ 497 := by
  have hsplit := List.takeWhile_append_dropWhile (p := fun c => c ≠ ';') (l := contentType.toList)
  have hessence : (essence contentType).flatMap Json.escape = essence contentType := by
    rw [List.flatMap_congr fun c hc => escape_of_mem_essence hid h hc, List.flatMap_singleton']
  have hge := (length_essence_ge h).trans (Json.length_le_size _)
  have hshort := hid.short
  rw [Json.utf8ByteSize_eq_size, ← hsplit, Json.size_append] at hshort
  rw [Json.quoted_eq, ← hsplit, List.flatMap_append, Json.size_append]
  change Json.size (essence contentType) + _ ≤ 256 at hshort
  change Json.size ((essence contentType).flatMap Json.escape) + _ + 2 ≤ 497
  rw [hessence]
  cases hrest : contentType.toList.dropWhile (fun c => c ≠ ';') with
  | nil =>
    rw [hrest] at hshort
    simp only [List.flatMap_nil, Json.size_nil] at hshort ⊢
    omega
  | cons c rest =>
    have hsemicolon : c = ';' := by
      have hhead := List.head_dropWhile_not (fun c => decide (c ≠ ';'))
        (l := contentType.toList) (by rw [hrest]; exact List.cons_ne_nil _ _)
      simpa only [hrest, List.head_cons, decide_eq_false_iff_not, not_not] using hhead
    have hescape : Json.size (Json.escape ';') = 1 := by decide
    have hone : ';'.utf8Size = 1 := by decide
    have hparameters : Json.size (rest.flatMap Json.escape) ≤ 2 * Json.size rest := by
      refine Json.size_flatMap_escape_le fun c' hc' => hid.not_control ?_
      rw [← hsplit, hrest]
      exact List.mem_append_right _ (List.mem_cons_of_mem _ hc')
    rw [hrest] at hshort
    subst hsemicolon
    rw [List.flatMap_cons, Json.size_append, hescape]
    rw [Json.size_cons, hone] at hshort
    omega

/-- JSON with as many quotation marks as a content type may have. -/
def jsonMarks : String := String.ofList ("application/json;".toList ++ List.replicate 239 '"')

theorem toList_jsonMarks :
    jsonMarks.toList = "application/json;".toList ++ List.replicate 239 '"' :=
  String.toList_ofList

theorem isJson_jsonMarks : isJson jsonMarks = true := by
  have hessence : jsonMarks.toList.takeWhile (fun c => decide (c ≠ ';')) =
      "application/json".toList := by
    have htext : "application/json;".toList = "application/json".toList ++ [';'] := by decide
    rw [toList_jsonMarks, htext, List.append_assoc, List.takeWhile_append_of_pos]
    · rfl
    · exact List.all_eq_true.mp (by decide)
  have htrim : trim "application/json" = "application/json".toList := by decide
  rw [isJson, hessence, String.ofList_toList, htrim, String.ofList_toList]
  exact Kafka.eqIgnoreAsciiCase_self _

theorem quoted_jsonMarks : Json.quoted jsonMarks = 497 := by
  have hplain : Json.size ("application/json;".toList.flatMap Json.escape) = 17 := by decide
  rw [Json.quoted_eq, toList_jsonMarks, List.flatMap_append, Json.size_append, hplain,
    Json.size_flatMap_quotes]

theorem identifier_jsonMarks : Identifier 256 jsonMarks := by
  have hmem : ∀ c ∈ jsonMarks.toList, c ∈ "application/json;".toList ∨ c = '"' := by
    rw [toList_jsonMarks]
    intro c hc
    exact (List.mem_append.mp hc).imp_right List.eq_of_mem_replicate
  have hplain : ∀ c ∈ "application/json;".toList,
      decide (isControl c = false ∧ c.toNat < 128) = true := List.all_eq_true.mp (by decide)
  refine ⟨⟨'a', ?_, by decide⟩, ?_, ?_⟩
  · rw [toList_jsonMarks]
    exact List.mem_append_left _ (by decide)
  · rw [Json.utf8ByteSize_eq_size, Json.size_of_ascii, toList_jsonMarks, List.length_append,
      List.length_replicate]
    · decide
    · intro c hc
      rcases hmem c hc with hc | rfl
      · exact (of_decide_eq_true (hplain c hc)).2
      · decide
  · intro c hc
    rcases hmem c hc with hc | rfl
    · exact (of_decide_eq_true (hplain c hc)).1
    · decide

end ContentType

/-! ### The largest payload with its content type -/

/-- The most bytes that a payload within the limit takes when it is said to be JSON. -/
noncomputable def jsonWorst (parse : JsonParser) (maxPayloadBytes : ℕ) : ℕ :=
  sSup (jsonSize parse '' {payload | payload.length ≤ maxPayloadBytes})

/-- The most bytes that a content type and a payload take together. A content type that is JSON has
characters that are not escaped. -/
noncomputable def contentWorst (parse : JsonParser) (maxPayloadBytes : ℕ) : ℕ :=
  max (514 + wrappedSize maxPayloadBytes) (497 + jsonWorst parse maxPayloadBytes)

section Content

variable (parse : JsonParser) (maxPayloadBytes : ℕ)

theorem finite_jsonSize :
    (jsonSize parse '' {payload | payload.length ≤ maxPayloadBytes}).Finite := by
  have hbyte : Finite UInt8 := Finite.of_injective UInt8.toFin (fun _ _ h => UInt8.toFin_inj.mp h)
  exact (List.finite_length_le UInt8 maxPayloadBytes).image _

theorem jsonSize_le {payload : List UInt8} (h : payload.length ≤ maxPayloadBytes) :
    jsonSize parse payload ≤ jsonWorst parse maxPayloadBytes :=
  le_csSup (finite_jsonSize parse maxPayloadBytes).bddAbove ⟨payload, h, rfl⟩

theorem exists_jsonWorst : ∃ payload : List UInt8, payload.length ≤ maxPayloadBytes ∧
    jsonSize parse payload = jsonWorst parse maxPayloadBytes := by
  have hne : (jsonSize parse '' {payload | payload.length ≤ maxPayloadBytes}).Nonempty :=
    ⟨_, [], Nat.zero_le _, rfl⟩
  exact Nat.sSup_mem hne (finite_jsonSize parse maxPayloadBytes).bddAbove

theorem wrappedSize_mono {m n : ℕ} (h : m ≤ n) : wrappedSize m ≤ wrappedSize n := by
  have hdiv : (m + 2) / 3 ≤ (n + 2) / 3 := Nat.div_le_div_right (by omega)
  simp only [wrappedSize, base64Size, Json.memberSize]
  omega

theorem content_le (message : RoutedMessage) (h : message.payload.length ≤ maxPayloadBytes) :
    Json.quoted message.metadata.contentType + payloadSize parse message ≤
      contentWorst parse maxPayloadBytes := by
  have hid : Identifier 256 message.metadata.contentType :=
    (RoutingMetadata.validate_eq_ok.mp message.valid).2.2.1
  unfold payloadSize contentWorst
  by_cases hjson : isJson message.metadata.contentType = true
  · rw [if_pos hjson]
    exact (Nat.add_le_add (quoted_json_le hid hjson) (jsonSize_le parse _ h)).trans
      (le_max_right _ _)
  · rw [if_neg hjson]
    exact (Nat.add_le_add hid.quoted_le (wrappedSize_mono h)).trans (le_max_left _ _)

theorem isJson_marks : isJson (marks 256) = false := by
  rw [Bool.eq_false_iff]
  intro hjson
  have hle := quoted_json_le (identifier_marks (by decide)) hjson
  rw [quoted_marks] at hle
  omega

theorem exists_contentWorst : ∃ (contentType : String) (payload : List UInt8),
    Identifier 256 contentType ∧ payload.length ≤ maxPayloadBytes ∧
    ∀ message : RoutedMessage, message.metadata.contentType = contentType →
      message.payload = payload → Json.quoted contentType + payloadSize parse message =
        contentWorst parse maxPayloadBytes := by
  rcases le_total (514 + wrappedSize maxPayloadBytes) (497 + jsonWorst parse maxPayloadBytes)
    with hle | hle
  · obtain ⟨payload, hlength, hsize⟩ := exists_jsonWorst parse maxPayloadBytes
    refine ⟨jsonMarks, payload, identifier_jsonMarks, hlength, ?_⟩
    intro message hcontentType hpayload
    rw [payloadSize, hcontentType, if_pos isJson_jsonMarks, quoted_jsonMarks, hpayload, hsize,
      contentWorst, max_eq_right hle]
  · refine ⟨marks 256, List.replicate maxPayloadBytes 0, identifier_marks (by decide), ?_, ?_⟩
    · rw [List.length_replicate]
    · intro message hcontentType hpayload
      have hnot : ¬isJson (marks 256) = true := Bool.eq_false_iff.mp isJson_marks
      rw [payloadSize, hcontentType, if_neg hnot, quoted_marks, hpayload, List.length_replicate,
        contentWorst, max_eq_left hle]

end Content

end Wire

namespace Daemon

open Api (validateCommand)
open Kafka (decodeMessage SourceRecord Stored repeated messageFields fieldHeader)
open Webhook (WebhookDestinationConfig)
open Webhook.WebhookRuntime (subscriptionName)
open Wire (integerSize optionalSize positionSize metadataSize base64Size deliverySize contentWorst)

/-! ### The largest command -/

/-- The bytes of the value of a filter, or of the longest identifier. -/
def fieldWorst (field : Option String) : ℕ := field.elim 514 Json.quoted

def positionWorst : ℕ :=
  1 + Json.memberSize "offset" 19 + Json.memberSize "partition" 10 + Json.memberSize "topic" 251

/-- The content type is left to be counted with the payload. -/
def metadataWorst (filter : RouteFilter) : ℕ :=
  1 + Json.memberSize "actor_id" (fieldWorst filter.actorId) +
    Json.memberSize "channel" (fieldWorst filter.channel) + Json.memberSize "content_type" 0 +
    Json.memberSize "kind" (fieldWorst filter.kind) + Json.memberSize "message_id" 514 +
    Json.memberSize "recipient_identity" (fieldWorst filter.recipientIdentity) +
    Json.memberSize "recipient_type" (fieldWorst filter.recipientType) +
    Json.memberSize "source" positionWorst +
    Json.memberSize "tenant_id" (Json.quoted filter.tenantId) +
    Json.memberSize "timestamp_ms" 20 + Json.memberSize "type" (fieldWorst filter.messageType)

def deliveryWorst (destination : WebhookDestinationConfig) (content : ℕ) : ℕ :=
  1 + Json.memberSize "message"
      (1 + Json.memberSize "metadata" (metadataWorst destination.filter) +
        Json.memberSize "payload" content) +
    Json.memberSize "operation" 9 +
    Json.memberSize "subscription_ids" (Json.quoted (subscriptionName destination.id) + 2)

def traceWorst : ℕ :=
  1 + Json.memberSize "traceparent" 514 + Json.memberSize "tracestate" 1026

/-- The parts of the largest command for a destination, if a content type and a payload take so
many bytes. -/
def partsWorst (destination : WebhookDestinationConfig) (content : ℕ) : StoredParts where
  deliveryId := 38
  destinationId := Json.quoted destination.id
  originalMessageId := 514
  body := base64Size (deliveryWorst destination content)
  nextAttemptAtMs := 20
  topic := 251
  partition := 10
  offset := 19
  trace := Json.memberSize "trace_context" traceWorst

def storedWorst (destination : WebhookDestinationConfig) (content : ℕ) : ℕ :=
  (partsWorst destination content).total

def isUuidChar (c : Char) : Bool := "0123456789abcdef-".toList.contains c

/-- The text of a UUID. -/
structure IsUuid (uuid : String) : Prop where
  length : uuid.length = 36
  chars : ∀ c ∈ uuid.toList, isUuidChar c = true

/-- A time that fits the machine integer of Kafka. -/
def IsTime (timestampMs : ℤ) : Prop := -2 ^ 63 ≤ timestampMs ∧ timestampMs < 2 ^ 63

/-- Whatever is decoded, the command that is built of it for a destination whose filter matches it
passes the check of its size. -/
def StoresAll (config : AppConfig) (parse : Wire.JsonParser) (order : ℕ → HashOrder) : Prop :=
  ∀ position record message, Stored position → (∀ t, record.timestampMs = some t → IsTime t) →
    decodeMessage position record config.consumer.maxPayloadBytes = .ok message →
    ∀ destination ∈ config.webhooks.config.destinations,
      destination.filter.matches message.metadata = true →
      ∀ id, SubscriptionId.new (subscriptionName destination.id) = .ok id →
        ∀ receiver uuid now, IsUuid uuid →
          (((config.runtime parse order).command ⟨destination.id, receiver⟩ message
            ⟨message, [id]⟩ uuid now).publication config.webhooks.config.durable.deliveryTopic
            config.webhooks.config.durable.maxRecordBytes .done).1 = .ok ()

/-! ### No command is larger -/

section Bounds

theorem optionalSize_le {α : Type} (name : String) {size : α → ℕ} {bound : ℕ} {value : Option α}
    (h : ∀ a, value = some a → size a ≤ bound) :
    optionalSize name size value ≤ Json.memberSize name bound := by
  cases value with
  | none => exact Nat.zero_le _
  | some a =>
    have ha := h a rfl
    simp only [optionalSize, Json.memberSize]
    omega

theorem field_le (name : String) {field value : Option String}
    (hmatch : optionalMatches field value = true)
    (hvalid : ∀ text, value = some text → Identifier 256 text) :
    optionalSize name Json.quoted value ≤ Json.memberSize name (fieldWorst field) := by
  apply optionalSize_le
  intro text htext
  rcases (optionalMatches_iff field value).mp hmatch with rfl | rfl
  · exact (hvalid text htext).quoted_le
  · rw [htext]
    exact Nat.le_refl _

theorem optionalMatches_of_recipientMatches {t i t' i' : Option String}
    (h : recipientMatches t i t' i' = true) :
    optionalMatches t t' = true ∧ optionalMatches i i' = true := by
  rcases t with _ | t
  · rcases i with _ | i
    · exact ⟨rfl, rfl⟩
    · cases h
  · rcases i with _ | i
    · cases h
    · exact Bool.and_eq_true_iff.mp h

theorem length_toDigits_le {n k : ℕ} (hk : 0 < k) (h : n < 10 ^ k) :
    (Nat.toDigits 10 n).length ≤ k :=
  (Nat.length_toDigits_le_iff (by decide) hk).mpr h

theorem length_toDigits_eq {n k : ℕ} (hge : 10 ^ k ≤ n) (hlt : n < 10 ^ (k + 1)) :
    (Nat.toDigits 10 n).length = k + 1 := by
  have hle := length_toDigits_le (Nat.succ_pos k) hlt
  cases k with
  | zero =>
    have hpos : 0 < (Nat.toDigits 10 n).length := Nat.length_toDigits_pos
    omega
  | succ k =>
    have hnot := (Nat.length_toDigits_le_iff (b := 10) (n := n) (by decide)
      (Nat.succ_pos k)).not.mpr (Nat.not_lt.mpr hge)
    omega

theorem integerSize_of_nonneg {n : ℤ} (h : 0 ≤ n) :
    integerSize n = (Nat.toDigits 10 n.toNat).length := by
  obtain ⟨m, rfl⟩ := Int.eq_ofNat_of_zero_le h
  exact Json.size_natural m

theorem integerSize_le {n : ℤ} {k : ℕ} (hk : 0 < k) (h : 0 ≤ n) (hlt : n < 10 ^ k) :
    integerSize n ≤ k := by
  rw [integerSize_of_nonneg h]
  apply length_toDigits_le hk
  have hcast : ((10 ^ k : ℕ) : ℤ) = 10 ^ k := by push_cast; rfl
  omega

theorem integerSize_time_le {t : ℤ} (h : IsTime t) : integerSize t ≤ 20 := by
  obtain ⟨hge, hlt⟩ := h
  cases t with
  | ofNat n => exact integerSize_le (by decide) (Int.natCast_nonneg n) (hlt.trans (by decide))
  | negSucc n =>
    have hdigits : (Nat.toDigits 10 (n + 1)).length ≤ 19 := by
      apply length_toDigits_le (by decide)
      omega
    have hminus : '-'.utf8Size = 1 := by decide
    have hsize : integerSize (.negSucc n) = 1 + (Nat.toDigits 10 (n + 1)).length := by
      rw [integerSize, Json.integer, Json.size_cons, Json.size_natural, hminus]
    omega

theorem quoted_topic {position : KafkaPosition} (h : Stored position) :
    Json.quoted position.topic = position.topic.length + 2 := by
  have hchar : ∀ c ∈ position.topic.toList, 45 ≤ c.toNat ∧ c.toNat ≤ 122 ∧ c ≠ '\\' := by
    intro c hc
    have hcases := Kafka.isTopicChar_cases (h.chars c hc)
    refine ⟨hcases.1, hcases.2.1, ?_⟩
    rintro rfl
    exact absurd (h.chars _ hc) (by decide)
  rw [Json.quoted_of_plain, Json.utf8ByteSize_eq_size, Json.size_of_ascii, String.length_toList]
  · intro c hc
    have := hchar c hc
    omega
  · intro c hc
    obtain ⟨hge, _, hbackslash⟩ := hchar c hc
    refine Json.escape_of_plain ?_ hbackslash (by omega)
    rintro rfl
    exact absurd hge (by decide)

theorem quoted_uuid {uuid : String} (h : IsUuid uuid) : Json.quoted uuid = 38 := by
  have hplain : ∀ c ∈ "0123456789abcdef-".toList,
      decide (Json.escape c = [c] ∧ c.toNat < 128) = true := List.all_eq_true.mp (by decide)
  have hchars : ∀ c ∈ uuid.toList, Json.escape c = [c] ∧ c.toNat < 128 :=
    fun c hc => of_decide_eq_true (hplain c (List.contains_iff_mem.mp (h.chars c hc)))
  rw [Json.quoted_of_plain fun c hc => (hchars c hc).1, Json.utf8ByteSize_eq_size,
    Json.size_of_ascii fun c hc => (hchars c hc).2, String.length_toList, h.length]

theorem traceSize_le {context : TraceContext}
    (h : TraceContext.new context.traceparent context.tracestate = .ok context) :
    traceSize context ≤ traceWorst := by
  obtain ⟨hparent, hstate⟩ := (Kafka.traceContext_new_eq_ok _ _).mp ⟨context, h⟩
  have hparent := hparent.quoted_le
  have htracestate : nullableSize Json.quoted context.tracestate ≤ 1026 := by
    cases hcase : context.tracestate with
    | none => simp [nullableSize]
    | some text => exact (hstate text hcase).quoted_le
  simp only [traceSize, traceWorst, Json.memberSize]
  omega

end Bounds

section Decoded

variable {position : KafkaPosition} {record : SourceRecord} {message : RoutedMessage}
  {maxPayloadBytes : ℕ}

/-- What decoding leaves as the record has it, and what it checks besides the metadata. -/
structure Decoded (position : KafkaPosition) (timestampMs : Option ℤ) (maxPayloadBytes : ℕ)
    (message : RoutedMessage) : Prop where
  source : message.metadata.source = some position
  timestampMs : message.metadata.timestampMs = timestampMs
  payload : message.payload.length ≤ maxPayloadBytes
  trace : ∀ context, message.traceContext = some context →
    TraceContext.new context.traceparent context.tracestate = .ok context

theorem traceContext_new_self {traceparent : String} {tracestate : Option String}
    {context : TraceContext} (h : TraceContext.new traceparent tracestate = .ok context) :
    TraceContext.new context.traceparent context.tracestate = .ok context := by
  have heq : context = ⟨traceparent, tracestate⟩ := by
    obtain ⟨_, hrest⟩ := check_eq_ok.mp h
    cases tracestate with
    | none => exact (Except.ok.inj hrest).symm
    | some state => exact (Except.ok.inj (check_eq_ok.mp hrest).2).symm
  rw [heq] at h ⊢
  exact h

theorem new_of_decodeTraceContext {traceparent tracestate : Option String}
    {context : TraceContext} (h : Kafka.decodeTraceContext traceparent tracestate =
      .ok (some context)) :
    TraceContext.new context.traceparent context.tracestate = .ok context := by
  cases traceparent with
  | none => cases tracestate <;> cases h
  | some parent =>
    cases hnew : TraceContext.new parent tracestate with
    | error e => simp [Kafka.decodeTraceContext, hnew] at h
    | ok context' =>
      simp only [Kafka.decodeTraceContext, hnew, Except.ok.injEq, Option.some.injEq] at h
      subst h
      exact traceContext_new_self hnew

theorem decoded_of_decodeMessage
    (h : decodeMessage position record maxPayloadBytes = .ok message) :
    Decoded position record.timestampMs maxPayloadBytes message := by
  have hlength := length_le_of_decodeMessage h
  rw [decodeMessage, if_neg (Nat.not_lt.mpr hlength)] at h
  simp only [bind_eq_ok] at h
  obtain ⟨_, _, _, _, _, _, _, _, _, _, context, hcontext, _, _, _, _, _, _, _, _, _, _, _, _,
    hnew⟩ := h
  unfold RoutedMessage.newWithTraceContext at hnew
  split at hnew
  · rename_i hbuilt
    split at hbuilt
    · cases hbuilt
    · cases hbuilt
      cases hnew
      refine ⟨rfl, rfl, hlength, fun context' heq => ?_⟩
      have heq : context = some context' := heq
      rw [heq] at hcontext
      exact new_of_decodeTraceContext hcontext
  · cases hnew

end Decoded

section Upper

variable {position : KafkaPosition} {timestampMs : Option ℤ} {maxPayloadBytes : ℕ}
  {message : RoutedMessage} {destination : WebhookDestinationConfig}

theorem coordinates_le (h : Stored position) : Json.quoted position.topic ≤ 251 ∧
    integerSize position.partition ≤ 10 ∧ integerSize position.offset ≤ 19 := by
  have htopic := quoted_topic h
  have hlength := h.length
  exact ⟨by omega,
    integerSize_le (by decide) h.partition_nonneg (lt_of_le_of_lt h.partition_le (by decide)),
    integerSize_le (by decide) h.offset_nonneg (lt_of_le_of_lt h.offset_le (by decide))⟩

theorem positionSize_le (h : Stored position) : positionSize position ≤ positionWorst := by
  obtain ⟨htopic, hpartition, hoffset⟩ := coordinates_le h
  simp only [positionSize, positionWorst, Json.memberSize]
  omega

theorem memberSize_eq (name : String) (n : ℕ) :
    Json.memberSize name n = Json.memberSize name 0 + n := by
  simp only [Json.memberSize]
  omega

/-- What a matching filter does not fix is bounded by validation. -/
theorem metadataSize_le (hposition : Stored position) (htime : ∀ t, timestampMs = some t → IsTime t)
    (h : Decoded position timestampMs maxPayloadBytes message)
    (hmatch : destination.filter.matches message.metadata = true) :
    metadataSize message.metadata ≤
      metadataWorst destination.filter + Json.quoted message.metadata.contentType := by
  obtain ⟨hid, _, _, hfields, _⟩ := RoutingMetadata.validate_eq_ok.mp message.valid
  simp only [List.forall_mem_cons, List.not_mem_nil, false_implies, implies_true, and_true]
    at hfields
  obtain ⟨hkind, htype, hchannel, hactor, hrecipientType, hrecipientIdentity⟩ := hfields
  simp only [RouteFilter.matches, Bool.and_eq_true, beq_iff_eq] at hmatch
  obtain ⟨⟨⟨⟨⟨htenant, mkind⟩, mtype⟩, mchannel⟩, mactor⟩, mrecipient⟩ := hmatch
  obtain ⟨mrecipientType, mrecipientIdentity⟩ := optionalMatches_of_recipientMatches mrecipient
  have hid := hid.quoted_le
  have hkind := field_le "kind" mkind hkind
  have htype := field_le "type" mtype htype
  have hchannel := field_le "channel" mchannel hchannel
  have hactor := field_le "actor_id" mactor hactor
  have hrecipientType := field_le "recipient_type" mrecipientType hrecipientType
  have hrecipientIdentity := field_le "recipient_identity" mrecipientIdentity hrecipientIdentity
  have hsource : optionalSize "source" positionSize message.metadata.source ≤
      Json.memberSize "source" positionWorst := by
    rw [h.source]
    exact optionalSize_le "source" fun p hp => Option.some.inj hp ▸ positionSize_le hposition
  have htimestamp : optionalSize "timestamp_ms" integerSize message.metadata.timestampMs ≤
      Json.memberSize "timestamp_ms" 20 := by
    rw [h.timestampMs]
    exact optionalSize_le "timestamp_ms" fun t ht => integerSize_time_le (htime t ht)
  have hmessageId : Json.memberSize "message_id" (Json.quoted message.metadata.messageId) ≤
      Json.memberSize "message_id" 514 := by
    simp only [Json.memberSize]
    omega
  have hcontent := memberSize_eq "content_type" (Json.quoted message.metadata.contentType)
  rw [metadataSize, metadataWorst, ← htenant]
  omega

theorem base64Size_mono {m n : ℕ} (h : m ≤ n) : base64Size m ≤ base64Size n := by
  have hdiv : (m + 2) / 3 ≤ (n + 2) / 3 := Nat.div_le_div_right (by omega)
  simp only [base64Size]
  omega

theorem arraySize_singleton (text : String) : Wire.arraySize [text] = Json.quoted text + 2 := by
  simp only [Wire.arraySize, List.cons_ne_nil, if_false, List.map_cons, List.map_nil,
    List.sum_cons, List.sum_nil]
  omega

theorem deliverySize_eq (parse : Wire.JsonParser) (message : RoutedMessage) (id : SubscriptionId) :
    deliverySize parse ⟨message, [id]⟩ =
      1 + Json.memberSize "message"
        (1 + Json.memberSize "metadata" (metadataSize message.metadata) +
          Json.memberSize "payload" (Wire.payloadSize parse message)) +
      Json.memberSize "operation" 9 +
      Json.memberSize "subscription_ids" (Json.quoted id.value + 2) := by
  rw [deliverySize, List.map_cons, List.map_nil, arraySize_singleton]

theorem value_of_new {value : String} {id : SubscriptionId}
    (h : SubscriptionId.new value = .ok id) : id.value = value :=
  congrArg SubscriptionId.value (Except.ok.inj (check_eq_ok.mp h).2).symm

theorem storedSize_le (parse : Wire.JsonParser) (hposition : Stored position)
    (htime : ∀ t, timestampMs = some t → IsTime t)
    (h : Decoded position timestampMs maxPayloadBytes message)
    (hmatch : destination.filter.matches message.metadata = true) {id : SubscriptionId}
    (hid : SubscriptionId.new (subscriptionName destination.id) = .ok id) {uuid : String}
    (huuid : IsUuid uuid) (now : ℕ) :
    storedSize parse destination.id message.metadata.messageId ⟨message, [id]⟩ uuid now ≤
      storedWorst destination (contentWorst parse maxPayloadBytes) := by
  have hmessageId := (RoutingMetadata.validate_eq_ok.mp message.valid).1.quoted_le
  have hmetadata := metadataSize_le hposition htime h hmatch
  have hcontent := Wire.content_le parse maxPayloadBytes message h.payload
  have hdelivery : deliverySize parse ⟨message, [id]⟩ ≤
      deliveryWorst destination (contentWorst parse maxPayloadBytes) := by
    rw [deliverySize_eq, value_of_new hid]
    simp only [deliveryWorst, Json.memberSize]
    omega
  have hbody := base64Size_mono hdelivery
  have hclock : (Nat.toDigits 10 (min now Webhook.u64Max)).length ≤ 20 :=
    length_toDigits_le (by decide) (lt_of_le_of_lt (Nat.min_le_right _ _) (by decide))
  obtain ⟨htopic, hpartition, hoffset⟩ := coordinates_le hposition
  have htrace : optionalSize "trace_context" traceSize message.traceContext ≤
      Json.memberSize "trace_context" traceWorst :=
    optionalSize_le "trace_context" fun context hcontext => traceSize_le (h.trace context hcontext)
  have huuid := quoted_uuid huuid
  simp only [storedSize, storedWorst, StoredParts.total, storedParts, partsWorst, h.source,
    Option.map_some, nullableSize, Json.memberSize] at htrace ⊢
  omega

end Upper

/-! ### A command that is as large -/

section Largest

variable {filter : RouteFilter} {contentType : String}

def largestPosition : KafkaPosition := ⟨repeated 249, 2147483647, 9223372036854775807⟩

/-- Every field that the filter leaves open is as long as it may be. -/
def largestMetadata (filter : RouteFilter) (contentType : String) : RoutingMetadata where
  messageId := marks 256
  tenantId := filter.tenantId
  kind := some (filter.kind.getD (marks 256))
  messageType := some (filter.messageType.getD (marks 256))
  channel := some (filter.channel.getD (marks 256))
  actorId := some (filter.actorId.getD (marks 256))
  recipientType := some (filter.recipientType.getD (marks 256))
  recipientIdentity := some (filter.recipientIdentity.getD (marks 256))
  contentType := contentType
  timestampMs := some (-9223372036854775808)
  source := some largestPosition

def largestTrace : TraceContext := ⟨marks 256, some (marks 512)⟩

def largestRecord (filter : RouteFilter) (contentType : String) (payload : List UInt8) :
    SourceRecord where
  headers := some
    ((messageFields (largestMetadata filter contentType) (some largestTrace)).filterMap fieldHeader)
  payload := some payload
  timestampMs := some (-9223372036854775808)

theorem stored_largest : Stored largestPosition := by
  have hshort := Kafka.stored_repeated (n := 249) (by decide) (by decide)
  exact ⟨hshort.nonempty, hshort.length, hshort.chars, by decide, by decide, by decide, by decide⟩

theorem validate_largestMetadata (hfilter : filter.validate = .ok ())
    (hcontent : Identifier 256 contentType) :
    (largestMetadata filter contentType).validate = .ok () := by
  obtain ⟨htenant, hfields, _⟩ := RouteFilter.validate_eq_ok.mp hfilter
  have hmarks : Identifier 256 (marks 256) := identifier_marks (by decide)
  have hopen : ∀ {field : Option String}, (∀ text, field = some text → Identifier 256 text) →
      ∀ text, some (field.getD (marks 256)) = some text → Identifier 256 text := by
    intro field hfield text htext
    obtain rfl := Option.some.inj htext
    cases field with
    | none => exact hmarks
    | some value => exact hfield value rfl
  refine RoutingMetadata.validate_eq_ok.mpr ⟨hmarks, htenant, hcontent, ?_, rfl⟩
  simp only [List.forall_mem_cons, List.not_mem_nil, false_implies, implies_true, and_true]
    at hfields ⊢
  obtain ⟨hkind, htype, hchannel, hactor, hrecipientType, hrecipientIdentity⟩ := hfields
  exact ⟨hopen hkind, hopen htype, hopen hchannel, hopen hactor, hopen hrecipientType,
    hopen hrecipientIdentity⟩

theorem matches_largestMetadata (hfilter : filter.validate = .ok ()) (contentType : String) :
    filter.matches (largestMetadata filter contentType) = true := by
  have hopen : ∀ field : Option String,
      optionalMatches field (some (field.getD (marks 256))) = true := by
    intro field
    cases field with
    | none => rfl
    | some value => exact beq_self_eq_true _
  have hrecipient : recipientMatches filter.recipientType filter.recipientIdentity
      (some (filter.recipientType.getD (marks 256)))
      (some (filter.recipientIdentity.getD (marks 256))) = true := by
    have hpair := RouteFilter.recipient_paired hfilter
    cases htype : filter.recipientType with
    | none =>
      cases hidentity : filter.recipientIdentity with
      | none => rfl
      | some identity => simp [htype, hidentity] at hpair
    | some recipientType =>
      cases hidentity : filter.recipientIdentity with
      | none => simp [htype, hidentity] at hpair
      | some identity => simp [recipientMatches]
  simp only [RouteFilter.matches, largestMetadata, hopen, hrecipient, Bool.and_true,
    beq_self_eq_true]

theorem new_largestTrace :
    TraceContext.new largestTrace.traceparent largestTrace.tracestate = .ok largestTrace := by
  have hparent : validateIdentifier "traceparent" (marks 256) 256 = .ok () :=
    validateIdentifier_eq_ok.mpr (identifier_marks (by decide))
  have hstate : validateIdentifier "tracestate" (marks 512) 512 = .ok () :=
    validateIdentifier_eq_ok.mpr (identifier_marks (by decide))
  exact check_eq_ok.mpr ⟨hparent, check_eq_ok.mpr ⟨hstate, rfl⟩⟩

def largestMessage (hfilter : filter.validate = .ok ()) (hcontent : Identifier 256 contentType)
    (payload : List UInt8) : RoutedMessage where
  metadata := largestMetadata filter contentType
  payload := payload
  traceContext := some largestTrace
  valid := validate_largestMetadata hfilter hcontent

theorem decodeMessage_largestRecord (hfilter : filter.validate = .ok ())
    (hcontent : Identifier 256 contentType) {payload : List UInt8} {maxPayloadBytes : ℕ}
    (hpayload : payload.length ≤ maxPayloadBytes) :
    decodeMessage largestPosition (largestRecord filter contentType payload) maxPayloadBytes =
      .ok (largestMessage hfilter hcontent payload) := by
  refine Kafka.decodeMessage_fields rfl (validate_largestMetadata hfilter hcontent) ?_ rfl hpayload
    largestPosition
  intro context hcontext
  obtain rfl := Option.some.inj hcontext
  exact new_largestTrace

theorem quoted_getD (field : Option String) :
    Json.quoted (field.getD (marks 256)) = fieldWorst field := by
  cases field with
  | none => exact quoted_marks 256
  | some value => rfl

theorem coordinates_largest : Json.quoted largestPosition.topic = 251 ∧
    integerSize largestPosition.partition = 10 ∧ integerSize largestPosition.offset = 19 := by
  have hpartition : 0 ≤ largestPosition.partition := stored_largest.partition_nonneg
  have hoffset : 0 ≤ largestPosition.offset := stored_largest.offset_nonneg
  refine ⟨?_, ?_, ?_⟩
  · rw [quoted_topic stored_largest]
    exact congrArg (· + 2) (Kafka.length_repeated 249)
  · rw [integerSize_of_nonneg hpartition]
    exact length_toDigits_eq (by decide) (by decide)
  · rw [integerSize_of_nonneg hoffset]
    exact length_toDigits_eq (by decide) (by decide)

theorem integerSize_earliest : integerSize (-9223372036854775808) = 20 := by
  have hdigits : (Nat.toDigits 10 9223372036854775808).length = 19 :=
    length_toDigits_eq (by decide) (by decide)
  have hsize : integerSize (-9223372036854775808) =
      Json.size ('-' :: Json.natural 9223372036854775808) := rfl
  have hminus : '-'.utf8Size = 1 := by decide
  rw [hsize, Json.size_cons, Json.size_natural, hdigits, hminus]

theorem positionSize_largest : positionSize largestPosition = positionWorst := by
  obtain ⟨htopic, hpartition, hoffset⟩ := coordinates_largest
  rw [positionSize, htopic, hpartition, hoffset, positionWorst]

theorem metadataSize_largest (filter : RouteFilter) (contentType : String) :
    metadataSize (largestMetadata filter contentType) =
      metadataWorst filter + Json.quoted contentType := by
  have hcontent := memberSize_eq "content_type" (Json.quoted contentType)
  have hid : Json.quoted (marks 256) = 514 := quoted_marks 256
  simp only [metadataSize, largestMetadata, optionalSize, quoted_getD, hid, positionSize_largest,
    integerSize_earliest, metadataWorst]
  omega

theorem traceSize_largest : traceSize largestTrace = traceWorst := by
  have hparent : Json.quoted largestTrace.traceparent = 514 := quoted_marks 256
  have hstate : nullableSize Json.quoted largestTrace.tracestate = 1026 := quoted_marks 512
  rw [traceSize, traceWorst, hparent, hstate]

theorem storedParts_largest (parse : Wire.JsonParser) {destination : WebhookDestinationConfig}
    (hfilter : destination.filter.validate = .ok ()) (hcontent : Identifier 256 contentType)
    (payload : List UInt8) {id : SubscriptionId}
    (hid : SubscriptionId.new (subscriptionName destination.id) = .ok id) {uuid : String}
    (huuid : IsUuid uuid) :
    storedParts parse destination.id (marks 256) ⟨largestMessage hfilter hcontent payload, [id]⟩
        uuid Webhook.u64Max =
      partsWorst destination (Json.quoted contentType +
        Wire.payloadSize parse (largestMessage hfilter hcontent payload)) := by
  obtain ⟨htopic, hpartition, hoffset⟩ := coordinates_largest
  have hclock : (Nat.toDigits 10 (min Webhook.u64Max Webhook.u64Max)).length = 20 := by
    rw [Nat.min_self]
    exact length_toDigits_eq (by decide) (by decide)
  have hmarks : Json.quoted (marks 256) = 514 := quoted_marks 256
  have hmetadata : metadataSize (largestMessage hfilter hcontent payload).metadata =
      metadataWorst destination.filter + Json.quoted contentType :=
    metadataSize_largest destination.filter contentType
  have hdelivery : deliverySize parse ⟨largestMessage hfilter hcontent payload, [id]⟩ =
      deliveryWorst destination (Json.quoted contentType +
        Wire.payloadSize parse (largestMessage hfilter hcontent payload)) := by
    rw [deliverySize_eq, value_of_new hid, hmetadata]
    simp only [deliveryWorst, Json.memberSize]
    omega
  have hsource : (largestMessage hfilter hcontent payload).metadata.source =
      some largestPosition := rfl
  have htrace : (largestMessage hfilter hcontent payload).traceContext = some largestTrace := rfl
  simp only [storedParts, partsWorst, hdelivery, hsource, htrace, Option.map_some, nullableSize,
    optionalSize, traceSize_largest, htopic, hpartition, hoffset, hclock, hmarks,
    quoted_uuid huuid]

end Largest

/-! ### From stage to stage -/

theorem AppConfig.filter_valid {config : AppConfig} {parseAddr : SocketParser}
    (h : config.validate parseAddr = .ok ()) {destination : WebhookDestinationConfig}
    (hmem : destination ∈ config.webhooks.config.destinations) :
    destination.filter.validate = .ok () := by
  have hwebhooks : config.validateWebhooks = .ok () :=
    (check_eq_ok.mp (check_eq_ok.mp (check_eq_ok.mp h).2).2).2
  unfold AppConfig.validateWebhooks at hwebhooks
  split_ifs at hwebhooks
  · exact Webhook.filter_valid_of_validateDestinations
      (Webhook.WebhookConfig.validateDestinations_of_validate hwebhooks) destination hmem
  · exact Webhook.filter_valid_of_validateDestinations hwebhooks destination hmem

theorem isUuid_nil : IsUuid "00000000-0000-4000-8000-000000000000" :=
  ⟨by decide +kernel, List.all_eq_true.mp (by decide +kernel)⟩

theorem storesAll_iff {config : AppConfig} {parseAddr : SocketParser}
    (hvalid : config.validate parseAddr = .ok ()) (parse : Wire.JsonParser)
    (order : ℕ → HashOrder) :
    StoresAll config parse order ↔ ∀ destination ∈ config.webhooks.config.destinations,
      ∀ id, SubscriptionId.new (subscriptionName destination.id) = .ok id →
        storedWorst destination (contentWorst parse config.consumer.maxPayloadBytes) ≤
          config.webhooks.config.durable.maxRecordBytes := by
  constructor
  · intro hall destination hmem id hid
    have hfilter := AppConfig.filter_valid hvalid hmem
    obtain ⟨contentType, payload, hcontent, hpayload, hsize⟩ :=
      Wire.exists_contentWorst parse config.consumer.maxPayloadBytes
    have htime : ∀ t, (largestRecord destination.filter contentType payload).timestampMs =
        some t → IsTime t := by
      intro t ht
      obtain rfl := Option.some.inj ht
      exact ⟨by decide, by decide⟩
    have hstored := hall _ _ _ stored_largest htime
      (decodeMessage_largestRecord hfilter hcontent hpayload) destination hmem
      (matches_largestMetadata hfilter contentType) id hid ⟨0⟩ _ Webhook.u64Max isUuid_nil
    rw [publication_eq_ok] at hstored
    rw [storedWorst, ← hsize (largestMessage hfilter hcontent payload) rfl rfl,
      ← storedParts_largest parse hfilter hcontent payload hid isUuid_nil]
    exact hstored
  · intro hlimits position record message hposition htime hdecode destination hmem hmatch id hid
      receiver uuid now huuid
    rw [publication_eq_ok]
    exact (storedSize_le parse hposition htime (decoded_of_decodeMessage hdecode) hmatch hid huuid
      now).trans (hlimits destination hmem id hid)

/-- One destination, which takes everything of its tenant. -/
def acmeHook : WebhookDestinationConfig where
  id := "hook"
  filter := ⟨"acme", none, none, none, none, none, none⟩
  queueCapacity := 8
  timeoutMs := 1000
  maxAttempts := 3
  initialBackoffMs := 100
  maxBackoffMs := 1000

/-- The defaults but for three limits, which have nothing to do with one another. -/
def unrelatedLimits : AppConfig where
  api := { publishMaxPayloadBytes := 2 }
  consumer := { maxPayloadBytes := 1 }
  webhooks :=
    { enabled := true
      mode := .durable
      config :=
        { durable := { defaultWebhooks.durable with maxRecordBytes := 256 }
          destinations := [acmeHook] } }

def octetStream : MimeParser := fun contentType =>
  if contentType = "application/octet-stream" then some ⟨"application", "octet-stream", none⟩
  else none

def oneByteRecord : SourceRecord where
  headers := some (Kafka.publishHeaders (sample 1))
  payload := some [0]
  timestampMs := none

/-- The only payload that is small enough, as it is consumed. -/
def oneByte : RoutedMessage where
  metadata := { (sample 1).metadata with source := some ⟨"router.input", 0, 0⟩ }
  payload := [0]
  traceContext := none
  valid := rfl

/-- What the router leaves in the queue of the destination. -/
def hookDelivery : Delivery := ⟨oneByte, [⟨"webhook:hook"⟩]⟩

theorem decodeMessage_oneByte {maxPayloadBytes : ℕ} (h : 1 ≤ maxPayloadBytes) :
    decodeMessage ⟨"router.input", 0, 0⟩ oneByteRecord maxPayloadBytes = .ok oneByte :=
  Kafka.decodeMessage_published rfl _ (rfl : (sample 1).metadata.validate = .ok ()) rfl h

/-- The defaults, with one durable destination. -/
def defaultLimits : AppConfig where
  webhooks :=
    { enabled := true
      mode := .durable
      config := { defaultWebhooks with destinations := [acmeHook] } }

/-- The only JSON is `null`. -/
def nullOnly : Wire.JsonParser := fun payload =>
  if payload = [110, 117, 108, 108] then some .null else none

theorem jsonWorst_nullOnly (maxPayloadBytes : ℕ) : Wire.jsonWorst nullOnly maxPayloadBytes ≤
    Wire.wrappedSize maxPayloadBytes + Json.memberSize "invalid_json" 4 := by
  refine csSup_le ⟨_, [], Nat.zero_le _, rfl⟩ ?_
  rintro _ ⟨payload, hlength, rfl⟩
  have hwrapped := Wire.wrappedSize_mono hlength
  by_cases hnull : payload = [110, 117, 108, 108]
  · have hsize : Wire.jsonSize nullOnly payload = 4 := by
      rw [Wire.jsonSize, nullOnly, if_pos hnull]
      rfl
    rw [hsize]
    simp only [Json.memberSize]
    omega
  · rw [Wire.jsonSize, nullOnly, if_neg hnull]
    exact Nat.add_le_add_right hwrapped _

theorem storedWorst_mono (destination : WebhookDestinationConfig) {m n : ℕ} (h : m ≤ n) :
    storedWorst destination m ≤ storedWorst destination n := by
  have hdelivery : deliveryWorst destination m ≤ deliveryWorst destination n := by
    simp only [deliveryWorst, Json.memberSize]
    omega
  have hbody := base64Size_mono hdelivery
  simp only [storedWorst, StoredParts.total, partsWorst, Json.memberSize]
  omega

theorem storedWorst_defaultLimits :
    storedWorst acmeHook (contentWorst nullOnly 1048576) ≤ 2097152 := by
  have hcontent : contentWorst nullOnly 1048576 ≤
      514 + (Wire.wrappedSize 1048576 + Json.memberSize "invalid_json" 4) := by
    have hjson := jsonWorst_nullOnly 1048576
    exact max_le (by omega) (by omega)
  refine (storedWorst_mono acmeHook hcontent).trans ?_
  decide +kernel

end Daemon

end KafkaEdgeRouter
