import KafkaEdgeRouter.HeaderInvariance
import KafkaEdgeRouter.JsonText
import Mathlib.Algebra.Ring.Int.Defs

/-!
# The identifiers of records that bring none

A record without `x-message-id` is identified by its coordinates, joined by colons. A topic name has
no colon, so records at different coordinates get different identifiers. The identifier has to pass
the same check as one that a producer sends, and may be too long for it: with a long topic name,
records are refused once their partition and offset have too many digits.
-/

namespace KafkaEdgeRouter.Kafka

def isTopicChar (c : Char) : Bool := c.isAlphanum || c == '.' || c == '_' || c == '-'

/-- Coordinates that Kafka can store a record at. -/
structure Stored (position : KafkaPosition) : Prop where
  nonempty : 1 ≤ position.topic.length
  length : position.topic.length ≤ 249
  chars : ∀ c ∈ position.topic.toList, isTopicChar c = true
  partition_nonneg : 0 ≤ position.partition
  partition_le : position.partition ≤ 2 ^ 31 - 1
  offset_nonneg : 0 ≤ position.offset
  offset_le : position.offset ≤ 2 ^ 63 - 1

def decimals (n : ℤ) : ℕ := (Nat.toDigits 10 n.toNat).length

/-- The only header that the message contract knows is the tenant's. Trace headers are not part of
the contract. -/
structure OnlyTenant (tenantId : String) (record : SourceRecord) : Prop where
  tenant : valuesOf "x-tenant-id" (record.headers.getD []) = [some (.text tenantId)]
  others : ∀ name ∈ recognised, name ∉ ["x-tenant-id", "traceparent", "tracestate"] →
    valuesOf name (record.headers.getD []) = []

/-- The trace headers stand at most once, as text, within their bounds, and a state only with its
parent. -/
def TraceReadable (record : SourceRecord) : Prop :=
  ∃ traceparent tracestate,
    accepted (valuesOf "traceparent" (record.headers.getD [])) = some traceparent ∧
    accepted (valuesOf "tracestate" (record.headers.getD [])) = some tracestate ∧
    (∀ text, traceparent = some text → Identifier 256 text) ∧
    ∀ text, tracestate = some text → traceparent.isSome = true ∧ Identifier 512 text

/-! ### The text -/

section Text

variable {c : Char} {position position' : KafkaPosition}

theorem isTopicChar_cases (h : isTopicChar c = true) :
    45 ≤ c.toNat ∧ c.toNat ≤ 122 ∧ c.toNat ≠ 58 := by
  have halpha : c.isAlpha = (c.isUpper || c.isLower) := rfl
  have hupper : c.isUpper = decide (65 ≤ c.val ∧ c.val ≤ 90) := rfl
  have hlower : c.isLower = (decide (97 ≤ c.val) && decide (c.val ≤ 122)) := rfl
  simp only [isTopicChar, Bool.or_eq_true, beq_iff_eq, Char.isAlphanum, halpha, hupper, hlower,
    Char.isDigit, Bool.and_eq_true, decide_eq_true_eq, UInt32.le_iff_toNat_le, ge_iff_le] at h
  change (((((65 ≤ c.toNat ∧ c.toNat ≤ 90) ∨ (97 ≤ c.toNat ∧ c.toNat ≤ 122)) ∨
    (48 ≤ c.toNat ∧ c.toNat ≤ 57)) ∨ c = '.') ∨ c = '_') ∨ c = '-' at h
  rcases h with (((h | h) | rfl) | rfl) | rfl
  · omega
  · omega
  · decide
  · decide
  · decide

theorem toList_positionId (h : Stored position) :
    (positionId position).toList = position.topic.toList ++
      ':' :: (Nat.toDigits 10 position.partition.toNat ++
        ':' :: Nat.toDigits 10 position.offset.toNat) := by
  obtain ⟨topic, partition, offset⟩ := position
  obtain ⟨p, rfl⟩ := Int.eq_ofNat_of_zero_le h.partition_nonneg
  obtain ⟨o, rfl⟩ := Int.eq_ofNat_of_zero_le h.offset_nonneg
  have hp : (toString (p : ℤ)).toList = Nat.toDigits 10 p := by
    rw [show toString (p : ℤ) = toString p from rfl, Nat.toString_eq_ofList_toDigits,
      String.toList_ofList]
  have ho : (toString (o : ℤ)).toList = Nat.toDigits 10 o := by
    rw [show toString (o : ℤ) = toString o from rfl, Nat.toString_eq_ofList_toDigits,
      String.toList_ofList]
  simp only [positionId, String.toList_append, hp, ho, Int.toNat_natCast, List.append_assoc]
  rfl

theorem toNat_of_mem_positionId (h : Stored position) (hc : c ∈ (positionId position).toList) :
    45 ≤ c.toNat ∧ c.toNat ≤ 122 := by
  rw [toList_positionId h] at hc
  simp only [List.mem_append, List.mem_cons] at hc
  rcases hc with htopic | rfl | hpartition | rfl | hoffset
  · have := isTopicChar_cases (h.chars c htopic)
    omega
  · decide
  · have := Json.toNat_of_mem_toDigits hpartition
    omega
  · decide
  · have := Json.toNat_of_mem_toDigits hoffset
    omega

theorem utf8ByteSize_positionId (h : Stored position) : (positionId position).utf8ByteSize =
    position.topic.length + decimals position.partition + decimals position.offset + 2 := by
  rw [Json.utf8ByteSize_eq_size, Json.size_of_ascii, toList_positionId h]
  · simp only [List.length_append, List.length_cons, decimals, String.length_toList]
    omega
  · intro c hc
    have := toNat_of_mem_positionId h hc
    omega

/-- The identifier is visible and printable; it may only be too long. -/
theorem identifier_positionId (h : Stored position) : Identifier 256 (positionId position) ↔
    position.topic.length + decimals position.partition + decimals position.offset + 2 ≤ 256 := by
  rw [← utf8ByteSize_positionId h]
  refine ⟨fun hid => hid.short, fun hshort => ⟨⟨':', ?_, by decide⟩, hshort, fun c hc => ?_⟩⟩
  · rw [toList_positionId h]
    simp
  · have := toNat_of_mem_positionId h hc
    simp only [isControl, Bool.or_eq_false_iff, Bool.and_eq_false_iff, decide_eq_false_iff_not]
    omega

theorem colon_notMem_toDigits (n : ℕ) : ':' ∉ Nat.toDigits 10 n := by
  intro hmem
  have := Json.toNat_of_mem_toDigits hmem
  exact absurd this.2 (by decide)

theorem toDigits_injective {m n : ℕ} (h : Nat.toDigits 10 m = Nat.toDigits 10 n) : m = n := by
  rw [← Nat.ofDigitChars_ten_toDigits (n := m), h, Nat.ofDigitChars_ten_toDigits]

theorem append_cons_cancel {α : Type} {a : α} {x x' y y' : List α} (hx : a ∉ x) (hx' : a ∉ x')
    (h : x ++ a :: y = x' ++ a :: y') : x = x' ∧ y = y' := by
  induction x generalizing x' with
  | nil =>
    cases x' with
    | nil => exact ⟨rfl, (List.cons.inj h).2⟩
    | cons b x' => exact absurd ((List.cons.inj h).1 ▸ List.mem_cons_self) hx'
  | cons b x ih =>
    cases x' with
    | nil => exact absurd ((List.cons.inj h).1 ▸ List.mem_cons_self) hx
    | cons b' x' =>
      obtain ⟨rfl, htail⟩ := List.cons.inj h
      obtain ⟨rfl, rfl⟩ := ih (List.not_mem_of_not_mem_cons hx)
        (List.not_mem_of_not_mem_cons hx') htail
      exact ⟨rfl, rfl⟩

theorem colon_notMem_topic (h : Stored position) : ':' ∉ position.topic.toList := by
  intro hmem
  exact absurd rfl (isTopicChar_cases (h.chars _ hmem)).2.2

theorem positionId_injective (h : Stored position) (h' : Stored position')
    (heq : positionId position = positionId position') : position = position' := by
  have htext := congrArg String.toList heq
  rw [toList_positionId h, toList_positionId h'] at htext
  obtain ⟨htopic, hrest⟩ :=
    append_cons_cancel (colon_notMem_topic h) (colon_notMem_topic h') htext
  obtain ⟨hpartition, hoffset⟩ :=
    append_cons_cancel (colon_notMem_toDigits _) (colon_notMem_toDigits _) hrest
  have hp := toDigits_injective hpartition
  have ho := toDigits_injective hoffset
  have := h.partition_nonneg
  have := h'.partition_nonneg
  have := h.offset_nonneg
  have := h'.offset_nonneg
  obtain ⟨topic, partition, offset⟩ := position
  obtain ⟨topic', partition', offset'⟩ := position'
  obtain rfl : topic = topic' := String.toList_injective htopic
  obtain rfl : partition = partition' := by simp only at *; omega
  obtain rfl : offset = offset' := by simp only at *; omega
  rfl

end Text

/-! ### Decoding -/

section Decoding

variable {position : KafkaPosition} {record : SourceRecord} {tenantId : String}

theorem traceContext_new_eq_ok (traceparent : String) (tracestate : Option String) :
    (∃ context, TraceContext.new traceparent tracestate = .ok context) ↔
      Identifier 256 traceparent ∧ ∀ text, tracestate = some text → Identifier 512 text := by
  cases tracestate with
  | none => simp [TraceContext.new, check_eq_ok, validateIdentifier_eq_ok, pure, Except.pure]
  | some state => simp [TraceContext.new, check_eq_ok, validateIdentifier_eq_ok, pure, Except.pure]

theorem decodeTraceContext_eq_ok {traceparent tracestate : Option String} :
    (∃ context, decodeTraceContext traceparent tracestate = .ok context) ↔
      (∀ text, traceparent = some text → Identifier 256 text) ∧
        ∀ text, tracestate = some text → traceparent.isSome = true ∧ Identifier 512 text := by
  cases traceparent with
  | none => cases tracestate <;> simp [decodeTraceContext]
  | some parent =>
    have hnew := traceContext_new_eq_ok parent tracestate
    cases hresult : TraceContext.new parent tracestate with
    | error e => simpa [decodeTraceContext, hresult] using hnew
    | ok context => simpa [decodeTraceContext, hresult] using hnew

def fallbackMetadata (position : KafkaPosition) (tenantId : String) (timestampMs : Option ℤ) :
    RoutingMetadata where
  messageId := positionId position
  tenantId := tenantId
  kind := none
  messageType := none
  channel := none
  actorId := none
  recipientType := none
  recipientIdentity := none
  contentType := "application/octet-stream"
  timestampMs := timestampMs
  source := some position

theorem validate_fallbackMetadata (h : Stored position) (htenant : Identifier 256 tenantId)
    (timestampMs : Option ℤ) : (fallbackMetadata position tenantId timestampMs).validate = .ok () ↔
      position.topic.length + decimals position.partition + decimals position.offset + 2 ≤ 256 := by
  have hcontent : Identifier 256 "application/octet-stream" :=
    validateIdentifier_eq_ok.mp
      (show validateIdentifier "content_type" "application/octet-stream" 256 = .ok () by decide)
  rw [RoutingMetadata.validate_eq_ok, ← identifier_positionId h]
  simp [fallbackMetadata, htenant, hcontent]

theorem OnlyTenant.optionalHeader_tenant (h : OnlyTenant tenantId record) :
    optionalHeader record "x-tenant-id" = .ok (some tenantId) := by
  rw [optionalHeader_eq_ok, h.tenant]
  rfl

theorem OnlyTenant.optionalHeader_other (h : OnlyTenant tenantId record) {name : String}
    (hname : name ∈ recognised) (hother : name ∉ ["x-tenant-id", "traceparent", "tracestate"]) :
    optionalHeader record name = .ok none := by
  rw [optionalHeader_eq_ok, h.others name hname hother]
  rfl

/-- Past the headers, decoding is the check of the trace headers and of the metadata. -/
theorem OnlyTenant.decodeMessage_eq_ok (h : OnlyTenant tenantId record) {maxPayloadBytes : ℕ}
    (hsize : (record.payload.getD []).length ≤ maxPayloadBytes) {message : RoutedMessage} :
    decodeMessage position record maxPayloadBytes = .ok message ↔
      ∃ traceparent tracestate context,
        optionalHeader record "traceparent" = .ok traceparent ∧
        optionalHeader record "tracestate" = .ok tracestate ∧
        decodeTraceContext traceparent tracestate = .ok context ∧
        RoutedMessage.newWithTraceContext
          (fallbackMetadata position tenantId record.timestampMs) (record.payload.getD [])
          context = .ok message := by
  have hother : ∀ name, name ∈ recognised →
      name ∉ ["x-tenant-id", "traceparent", "tracestate"] → optionalHeader record name = .ok none :=
    fun name hname hne => h.optionalHeader_other hname hne
  rw [decodeMessage, if_neg (Nat.not_lt.mpr hsize)]
  simp only [requiredHeader, h.optionalHeader_tenant,
    hother "x-message-id" (by decide) (by decide),
    hother "x-content-type" (by decide) (by decide), hother "x-kind" (by decide) (by decide),
    hother "x-type" (by decide) (by decide), hother "x-channel" (by decide) (by decide),
    hother "x-actor-id" (by decide) (by decide),
    hother "x-recipient-type" (by decide) (by decide),
    hother "x-recipient-identity" (by decide) (by decide), bind_eq_ok,
    Except.ok.injEq, exists_eq_left', pure, Except.pure, Option.getD_none]
  simp only [fallbackMetadata, exists_and_left]
  refine exists_congr fun traceparent => and_congr_right fun _ => exists_congr fun tracestate =>
    and_congr_right fun _ => exists_congr fun context => and_congr_right fun _ => ?_
  split
  · rename_i hbuilt
    rw [hbuilt, Except.ok.injEq, Except.ok.injEq]
  · rename_i hbuilt
    rw [hbuilt]
    exact ⟨fun hthrow => (by cases hthrow), fun herror => (by cases herror)⟩

end Decoding

/-- A record with no header of the contract but its tenant is accepted under the identifier made of
its coordinates if and only if that has at most 256 bytes (and trace headers, if any, are readable).
Coordinates never share an identifier. -/
theorem decode_fallback_iff {position : KafkaPosition} (hposition : Stored position)
    {record : SourceRecord} {tenantId : String} (htenant : Identifier 256 tenantId)
    (honly : OnlyTenant tenantId record) {maxPayloadBytes : ℕ}
    (hsize : (record.payload.getD []).length ≤ maxPayloadBytes) :
    ((∃ message, decodeMessage position record maxPayloadBytes = .ok message ∧
        message.metadata.messageId = positionId position) ↔
      position.topic.length + decimals position.partition + decimals position.offset + 2 ≤ 256 ∧
        TraceReadable record) ∧
      ∀ position', Stored position' → positionId position' = positionId position →
        position' = position := by
  refine ⟨?_, fun position' hposition' heq => positionId_injective hposition' hposition heq⟩
  rw [← validate_fallbackMetadata hposition htenant record.timestampMs]
  constructor
  · rintro ⟨message, hdecode, _⟩
    obtain ⟨traceparent, tracestate, context, hparent, hstate, hcontext, hnew⟩ :=
      (honly.decodeMessage_eq_ok hsize).mp hdecode
    obtain ⟨hparent', hstate'⟩ := decodeTraceContext_eq_ok.mp ⟨context, hcontext⟩
    refine ⟨?_, traceparent, tracestate, optionalHeader_eq_ok.mp hparent,
      optionalHeader_eq_ok.mp hstate, hparent', hstate'⟩
    exact RoutedMessage.validate_of_newWithTraceContext hnew
  · rintro ⟨hvalid, traceparent, tracestate, hparent, hstate, hparent', hstate'⟩
    obtain ⟨context, hcontext⟩ := decodeTraceContext_eq_ok.mpr ⟨hparent', hstate'⟩
    have hnew := RoutedMessage.newWithTraceContext_eq_ok (record.payload.getD []) context hvalid
    exact ⟨_, (honly.decodeMessage_eq_ok hsize).mpr ⟨traceparent, tracestate, context,
      optionalHeader_eq_ok.mpr hparent, optionalHeader_eq_ok.mpr hstate, hcontext, hnew⟩, rfl⟩

def repeated (n : ℕ) : String := String.ofList (List.replicate n 'a')

theorem length_repeated (n : ℕ) : (repeated n).length = n := by
  rw [repeated, String.length_ofList, List.length_replicate]

theorem stored_repeated {n : ℕ} (hpos : 1 ≤ n) (hle : n ≤ 249) : Stored ⟨repeated n, 10, 1000⟩ := by
  refine ⟨by rwa [length_repeated], by rwa [length_repeated], fun c hc => ?_, by simp, by simp,
    by simp, by simp⟩
  rw [repeated, String.toList_ofList] at hc
  rw [List.eq_of_mem_replicate hc]
  decide

def tenantOnly : SourceRecord where
  headers := some [⟨"x-tenant-id", some (.text "acme")⟩]
  payload := none
  timestampMs := none

theorem onlyTenant_tenantOnly : OnlyTenant "acme" tenantOnly := by
  refine ⟨by decide, ?_⟩
  simp only [recognised, List.forall_mem_cons]
  decide

theorem identifier_acme : Identifier 256 "acme" :=
  validateIdentifier_eq_ok.mp (show validateIdentifier "tenant_id" "acme" 256 = .ok () by decide)

/-- On a topic with the longest name, four digits of an offset are too many for partition 10. -/
theorem fallback_refused_longTopic :
    Stored ⟨repeated 249, 10, 1000⟩ ∧ Identifier 256 "acme" ∧ OnlyTenant "acme" tenantOnly ∧
      ∀ message, decodeMessage ⟨repeated 249, 10, 1000⟩ tenantOnly 0 ≠ .ok message := by
  have hstored : Stored ⟨repeated 249, 10, 1000⟩ := stored_repeated (by decide) (by decide)
  refine ⟨hstored, identifier_acme, onlyTenant_tenantOnly, fun message hdecode => ?_⟩
  obtain ⟨_, _, _, _, _, _, hnew⟩ :=
    (onlyTenant_tenantOnly.decodeMessage_eq_ok (Nat.le_refl 0)).mp hdecode
  have hvalid := (validate_fallbackMetadata hstored identifier_acme _).mp
    (RoutedMessage.validate_of_newWithTraceContext hnew)
  have hpartition : decimals 10 = 2 := by decide
  have hoffset : decimals 1000 = 4 := by decide
  simp only [length_repeated, hpartition, hoffset] at hvalid
  omega

theorem decode_fallback_iff_events :
    ∃ message, decodeMessage ⟨"events", 2, 41⟩ tenantOnly 0 = .ok message ∧
      message.metadata.messageId = "events:2:41" := by
  have hchars : "events".toList.all isTopicChar = true := by decide +kernel
  have hstored : Stored ⟨"events", 2, 41⟩ :=
    ⟨by decide, by decide, List.all_eq_true.mp hchars, by decide, by decide, by decide, by decide⟩
  have hiff := (decode_fallback_iff hstored identifier_acme onlyTenant_tenantOnly
    (Nat.le_refl 0)).1
  exact hiff.mpr ⟨by decide, none, none, by decide, by decide, by simp, by simp⟩

end KafkaEdgeRouter.Kafka
