import KafkaEdgeRouter.RecordDecoder
import Mathlib.Data.List.Forall2
import Mathlib.Data.List.Perm.Basic
import Mathlib.Logic.Relation

/-!
# Header order, case and strangers

Decoding reads eleven names and looks at nothing else. What it finds under a name are the values of
the headers of that name; it goes on if there is none, or one that is no broken text. So the order
of the headers, the case of their names and headers of other names make no difference to whether a
record is accepted and to the message it becomes.
-/

namespace KafkaEdgeRouter.Kafka

def recognised : List String :=
  ["x-tenant-id", "x-message-id", "x-content-type", "traceparent", "tracestate", "x-kind", "x-type",
    "x-channel", "x-actor-id", "x-recipient-type", "x-recipient-identity"]

def Header.Stranger (header : Header) : Prop :=
  ∀ name ∈ recognised, eqIgnoreAsciiCase header.key name = false

/-- The headers differ in the case of the name only. -/
def Header.Recased (header header' : Header) : Prop :=
  eqIgnoreAsciiCase header.key header'.key = true ∧ header.value = header'.value

/-- One change of a header list that should not matter. -/
inductive Rewritten : List Header → List Header → Prop
  | permuted {headers headers' : List Header} : headers.Perm headers' → Rewritten headers headers'
  | recased {headers headers' : List Header} :
      List.Forall₂ Header.Recased headers headers' → Rewritten headers headers'
  | inserted (front back : List Header) {header : Header} : header.Stranger →
      Rewritten (front ++ back) (front ++ header :: back)
  | removed (front back : List Header) {header : Header} : header.Stranger →
      Rewritten (front ++ header :: back) (front ++ back)

def valuesOf (name : String) (headers : List Header) : List (Option HeaderValue) :=
  (headers.filter (fun header => eqIgnoreAsciiCase header.key name)).map Header.value

section Scanning

variable {name : String} {headers headers' : List Header}

def accepted : List (Option HeaderValue) → Option (Option String)
  | [] => some none
  | [none] => some none
  | [some (.text text)] => some (some text)
  | _ => none

theorem eqIgnoreAsciiCase_congr {a b : String} (h : eqIgnoreAsciiCase a b = true) (name : String) :
    eqIgnoreAsciiCase a name = eqIgnoreAsciiCase b name := by
  rw [eqIgnoreAsciiCase, beq_iff_eq] at h
  rw [eqIgnoreAsciiCase, eqIgnoreAsciiCase, h]

theorem scanHeaders_some (value : Option String) :
    scanHeaders name (some value) headers =
      if valuesOf name headers = [] then .ok (some value) else .error (.duplicateHeader name) := by
  induction headers with
  | nil => rfl
  | cons header headers ih =>
    rw [scanHeaders]
    by_cases hname : eqIgnoreAsciiCase header.key name = true
    · simp [valuesOf, hname]
    · simp [valuesOf, hname, ih]

theorem scanHeaders_join_eq_ok {v : Option String} :
    (scanHeaders name none headers >>= fun value => pure value.join) = .ok v ↔
      accepted (valuesOf name headers) = some v := by
  have hfound : ∀ (value : Option String) (rest : List Header),
      (scanHeaders name (some value) rest >>= fun value => pure value.join) = .ok v ↔
        valuesOf name rest = [] ∧ value = v := by
    intro value rest
    rw [scanHeaders_some]
    split_ifs with hrest
    · simp [hrest, bind, Except.bind, pure, Except.pure]
    · simp [hrest, bind, Except.bind]
  induction headers with
  | nil => simp [scanHeaders, valuesOf, accepted, bind, Except.bind, pure, Except.pure]
  | cons header headers ih =>
    rw [scanHeaders]
    by_cases hname : eqIgnoreAsciiCase header.key name = true
    · have hvalues : valuesOf name (header :: headers) = header.value :: valuesOf name headers := by
        simp [valuesOf, hname]
      rw [if_pos hname, if_neg (by simp), hvalues]
      cases hv : header.value with
      | none =>
        rw [hfound]
        cases valuesOf name headers <;> simp [accepted]
      | some value =>
        cases value with
        | text text =>
          rw [hfound]
          cases valuesOf name headers <;> simp [accepted]
        | bytes bytes => cases valuesOf name headers <;> simp [accepted, bind, Except.bind]
    · have hvalues : valuesOf name (header :: headers) = valuesOf name headers := by
        simp [valuesOf, hname]
      rw [if_neg hname, hvalues]
      exact ih

theorem optionalHeader_eq_ok {record : SourceRecord} {v : Option String} :
    optionalHeader record name = .ok v ↔
      accepted (valuesOf name (record.headers.getD [])) = some v := by
  unfold optionalHeader
  cases record.headers with
  | none => simp [valuesOf, accepted]
  | some headers => exact scanHeaders_join_eq_ok

theorem accepted_cons_cons (first second : Option HeaderValue)
    (values : List (Option HeaderValue)) : accepted (first :: second :: values) = none := by
  cases first with
  | none => rfl
  | some value => cases value <;> rfl

theorem accepted_perm {values values' : List (Option HeaderValue)} (h : values.Perm values') :
    accepted values = accepted values' := by
  match values with
  | [] => rw [List.nil_perm.mp h]
  | [value] => rw [List.singleton_perm.mp h]
  | first :: second :: values =>
    match values', h.length_eq with
    | first' :: second' :: values', _ => rw [accepted_cons_cons, accepted_cons_cons]

theorem valuesOf_append (front back : List Header) :
    valuesOf name (front ++ back) = valuesOf name front ++ valuesOf name back := by
  rw [valuesOf, List.filter_append, List.map_append]
  rfl

theorem Rewritten.valuesOf_perm (hname : name ∈ recognised) (h : Rewritten headers headers') :
    (valuesOf name headers).Perm (valuesOf name headers') := by
  have hstranger : ∀ {header : Header}, header.Stranger → ∀ back,
      valuesOf name (header :: back) = valuesOf name back := by
    intro header hheader back
    simp [valuesOf, hheader name hname]
  cases h with
  | permuted hperm => exact (hperm.filter _).map _
  | recased hrecased =>
    induction hrecased with
    | nil => exact List.Perm.refl _
    | @cons header header' headers headers' hheader _ ih =>
      obtain ⟨hkey, hvalue⟩ := hheader
      have hsame := eqIgnoreAsciiCase_congr hkey name
      by_cases hmatch : eqIgnoreAsciiCase header'.key name = true
      · simpa [valuesOf, hsame, hmatch, hvalue] using ih
      · simpa [valuesOf, hsame, hmatch] using ih
  | inserted front back hheader => rw [valuesOf_append, valuesOf_append, hstranger hheader]
  | removed front back hheader => rw [valuesOf_append, valuesOf_append, hstranger hheader]

theorem valuesOf_perm_of_rewritten (hname : name ∈ recognised)
    (h : Relation.ReflTransGen Rewritten headers headers') :
    (valuesOf name headers).Perm (valuesOf name headers') := by
  induction h with
  | refl => exact List.Perm.refl _
  | tail _ hstep ih => exact ih.trans (hstep.valuesOf_perm hname)

end Scanning

section Decoding

/-- The two results agree unless both are errors. -/
def SameSuccess {ε α : Type} (x y : Except ε α) : Prop := ∀ a, x = .ok a ↔ y = .ok a

theorem SameSuccess.refl {ε α : Type} (x : Except ε α) : SameSuccess x x := fun _ => Iff.rfl

theorem SameSuccess.bind {ε α β : Type} {x y : Except ε α} {f g : α → Except ε β}
    (h : SameSuccess x y) (hf : ∀ a, SameSuccess (f a) (g a)) :
    SameSuccess (x >>= f) (y >>= g) := by
  intro b
  rw [bind_eq_ok, bind_eq_ok]
  exact exists_congr fun a => and_congr (h a) (hf a b)

variable {record record' : SourceRecord}

theorem sameSuccess_decodeMessage (position : KafkaPosition) (maxPayloadBytes : ℕ)
    (hpayload : record'.payload = record.payload)
    (htimestamp : record'.timestampMs = record.timestampMs)
    (hheaders : ∀ name ∈ recognised,
      SameSuccess (optionalHeader record' name) (optionalHeader record name)) :
    SameSuccess (decodeMessage position record' maxPayloadBytes)
      (decodeMessage position record maxPayloadBytes) := by
  simp only [decodeMessage, requiredHeader, hpayload, htimestamp]
  split_ifs
  · exact SameSuccess.refl _
  refine SameSuccess.bind (SameSuccess.bind (hheaders _ (by simp [recognised]))
    fun _ => SameSuccess.refl _) fun _ => ?_
  refine SameSuccess.bind (hheaders _ (by simp [recognised])) fun _ => ?_
  refine SameSuccess.bind (hheaders _ (by simp [recognised])) fun _ => ?_
  refine SameSuccess.bind (hheaders _ (by simp [recognised])) fun _ => ?_
  refine SameSuccess.bind (hheaders _ (by simp [recognised])) fun _ => ?_
  refine SameSuccess.bind (SameSuccess.refl _) fun _ => ?_
  refine SameSuccess.bind (hheaders _ (by simp [recognised])) fun _ => ?_
  refine SameSuccess.bind (hheaders _ (by simp [recognised])) fun _ => ?_
  refine SameSuccess.bind (hheaders _ (by simp [recognised])) fun _ => ?_
  refine SameSuccess.bind (hheaders _ (by simp [recognised])) fun _ => ?_
  refine SameSuccess.bind (hheaders _ (by simp [recognised])) fun _ => ?_
  refine SameSuccess.bind (hheaders _ (by simp [recognised])) fun _ => ?_
  exact SameSuccess.refl _

theorem scanned_of_decodeMessage {position : KafkaPosition} {maxPayloadBytes : ℕ}
    {message : RoutedMessage} (h : decodeMessage position record maxPayloadBytes = .ok message) :
    ∀ name ∈ recognised, ∃ value, optionalHeader record name = .ok value := by
  simp only [decodeMessage, requiredHeader] at h
  split_ifs at h
  · obtain ⟨_, hthrow, _⟩ := bind_eq_ok.mp h
    cases hthrow
  obtain ⟨_, htenant, h⟩ := bind_eq_ok.mp h
  obtain ⟨tenantId, htenantId, _⟩ := bind_eq_ok.mp htenant
  obtain ⟨messageId, hmessageId, h⟩ := bind_eq_ok.mp h
  obtain ⟨contentType, hcontentType, h⟩ := bind_eq_ok.mp h
  obtain ⟨traceparent, htraceparent, h⟩ := bind_eq_ok.mp h
  obtain ⟨tracestate, htracestate, h⟩ := bind_eq_ok.mp h
  obtain ⟨_, _, h⟩ := bind_eq_ok.mp h
  obtain ⟨kind, hkind, h⟩ := bind_eq_ok.mp h
  obtain ⟨messageType, hmessageType, h⟩ := bind_eq_ok.mp h
  obtain ⟨channel, hchannel, h⟩ := bind_eq_ok.mp h
  obtain ⟨actorId, hactorId, h⟩ := bind_eq_ok.mp h
  obtain ⟨recipientType, hrecipientType, h⟩ := bind_eq_ok.mp h
  obtain ⟨recipientIdentity, hrecipientIdentity, _⟩ := bind_eq_ok.mp h
  simp only [recognised, List.forall_mem_cons]
  exact ⟨⟨_, htenantId⟩, ⟨_, hmessageId⟩, ⟨_, hcontentType⟩, ⟨_, htraceparent⟩, ⟨_, htracestate⟩,
    ⟨_, hkind⟩, ⟨_, hmessageType⟩, ⟨_, hchannel⟩, ⟨_, hactorId⟩, ⟨_, hrecipientType⟩,
    ⟨_, hrecipientIdentity⟩, by simp⟩

end Decoding

/-- Decoding ignores the order of the headers, the case of their names and headers it does not
know: however these are changed, the record is accepted or not as before and becomes the same
message. A record in which a recognised name stands twice, in whatever case, is not accepted. -/
theorem decode_ignores_order_case_strangers (position : KafkaPosition)
    (record record' : SourceRecord) (maxPayloadBytes : ℕ)
    (hpayload : record'.payload = record.payload)
    (htimestamp : record'.timestampMs = record.timestampMs)
    (hheaders : Relation.ReflTransGen Rewritten (record.headers.getD [])
      (record'.headers.getD [])) :
    (∀ message, decodeMessage position record' maxPayloadBytes = .ok message ↔
      decodeMessage position record maxPayloadBytes = .ok message) ∧
    ∀ name ∈ recognised, 2 ≤ ((record.headers.getD []).filter
        (fun header => eqIgnoreAsciiCase header.key name)).length →
      ∀ message, decodeMessage position record maxPayloadBytes ≠ .ok message := by
  constructor
  · refine sameSuccess_decodeMessage position maxPayloadBytes hpayload htimestamp ?_
    intro name hname value
    rw [optionalHeader_eq_ok, optionalHeader_eq_ok,
      accepted_perm (valuesOf_perm_of_rewritten hname hheaders)]
  · intro name hname htwice message hdecode
    obtain ⟨value, hvalue⟩ := scanned_of_decodeMessage hdecode name hname
    rw [optionalHeader_eq_ok] at hvalue
    have hlength : 2 ≤ (valuesOf name (record.headers.getD [])).length := by
      rw [valuesOf, List.length_map]
      exact htwice
    match hvalues : valuesOf name (record.headers.getD []) with
    | [] => simp [hvalues] at hlength
    | [_] => simp [hvalues] at hlength
    | first :: second :: values =>
      rw [hvalues, accepted_cons_cons] at hvalue
      cases hvalue

def plainRecord : SourceRecord where
  headers := some [⟨"x-tenant-id", some (.text "acme")⟩, ⟨"x-message-id", some (.text "m1")⟩]
  payload := none
  timestampMs := none

/-- The same record with the headers turned around, in another case and with one more. -/
def shuffledRecord : SourceRecord where
  headers := some [⟨"X-Message-Id", some (.text "m1")⟩, ⟨"x-other", some (.bytes [255])⟩,
    ⟨"X-TENANT-ID", some (.text "acme")⟩]
  payload := none
  timestampMs := none

theorem decode_ignores_shuffled :
    ∃ message, decodeMessage ⟨"events", 0, 5⟩ plainRecord 10 = .ok message ∧
      decodeMessage ⟨"events", 0, 5⟩ shuffledRecord 10 = .ok message := by
  have hplain : (decodeMessage ⟨"events", 0, 5⟩ plainRecord 10).isOk = true := by decide
  obtain ⟨message, hmessage⟩ : ∃ message,
      decodeMessage ⟨"events", 0, 5⟩ plainRecord 10 = .ok message := by
    cases hdecode : decodeMessage ⟨"events", 0, 5⟩ plainRecord 10 with
    | ok message => exact ⟨message, rfl⟩
    | error e => simp [hdecode, Except.isOk, Except.toBool] at hplain
  have hheaders : Relation.ReflTransGen Rewritten (plainRecord.headers.getD [])
      (shuffledRecord.headers.getD []) := by
    refine .tail (.tail (.single (.permuted (List.Perm.swap _ _ []))) (.recased ?_))
      (.inserted [⟨"X-Message-Id", some (.text "m1")⟩] [⟨"X-TENANT-ID", some (.text "acme")⟩] ?_)
    · exact .cons ⟨by decide, rfl⟩ (.cons ⟨by decide, rfl⟩ .nil)
    · intro name hname
      simp only [recognised, List.mem_cons, List.not_mem_nil, or_false] at hname
      rcases hname with rfl | rfl | rfl | rfl | rfl | rfl | rfl | rfl | rfl | rfl | rfl <;> decide
  exact ⟨message, hmessage, ((decode_ignores_order_case_strangers ⟨"events", 0, 5⟩ plainRecord
    shuffledRecord 10 rfl rfl hheaders).1 message).mpr hmessage⟩

end KafkaEdgeRouter.Kafka
