import KafkaEdgeRouter.Messages
import KafkaEdgeRouter.WildcardExpansion

/-!
# Route filters and candidate keys

A filter is indexed under its route key; a message is looked up under its candidate keys. On valid
filters and messages the index agrees with the reference matcher: the key of a filter is among the
candidates of a message exactly when the filter matches it, and no candidate occurs twice.
-/

namespace KafkaEdgeRouter

structure RouteFilter where
  tenantId : String
  kind : Option String
  messageType : Option String
  channel : Option String
  actorId : Option String
  recipientType : Option String
  recipientIdentity : Option String
  deriving DecidableEq

def RouteFilter.validate (filter : RouteFilter) : Except CoreError Unit := do
  validateIdentifier "tenant_id" filter.tenantId 256
  validateFields [("kind", filter.kind), ("type", filter.messageType),
    ("channel", filter.channel), ("actor_id", filter.actorId),
    ("recipient_type", filter.recipientType), ("recipient_identity", filter.recipientIdentity)]
  if filter.recipientType.isSome != filter.recipientIdentity.isSome then
    throw .incompleteRecipient

def optionalMatches (expected actual : Option String) : Bool :=
  match expected with
  | none => true
  | some expected => actual == some expected

def recipientMatches (expectedType expectedIdentity actualType actualIdentity : Option String) :
    Bool :=
  match expectedType, expectedIdentity with
  | none, none => true
  | some expectedType, some expectedIdentity =>
      actualType == some expectedType && actualIdentity == some expectedIdentity
  | _, _ => false

def RouteFilter.matches (filter : RouteFilter) (metadata : RoutingMetadata) : Bool :=
  filter.tenantId == metadata.tenantId &&
    optionalMatches filter.kind metadata.kind &&
    optionalMatches filter.messageType metadata.messageType &&
    optionalMatches filter.channel metadata.channel &&
    optionalMatches filter.actorId metadata.actorId &&
    recipientMatches filter.recipientType filter.recipientIdentity metadata.recipientType
      metadata.recipientIdentity

structure RecipientKey where
  recipientType : String
  recipientIdentity : String
  deriving DecidableEq

def recipientKey (recipientType recipientIdentity : Option String) : Option RecipientKey :=
  match recipientType, recipientIdentity with
  | some recipientType, some recipientIdentity => some ⟨recipientType, recipientIdentity⟩
  | _, _ => none

structure RouteKey where
  tenantId : String
  kind : Option String
  messageType : Option String
  channel : Option String
  actorId : Option String
  recipient : Option RecipientKey
  deriving DecidableEq

namespace RouteKey

def ofFilter (filter : RouteFilter) : RouteKey where
  tenantId := filter.tenantId
  kind := filter.kind
  messageType := filter.messageType
  channel := filter.channel
  actorId := filter.actorId
  recipient := recipientKey filter.recipientType filter.recipientIdentity

def kindDimension : Dimension RouteKey String where
  get k := k.kind
  set v k := { k with kind := v }
  get_set _ _ := rfl
  set_get _ := rfl
  set_set _ _ _ := rfl

def messageTypeDimension : Dimension RouteKey String where
  get k := k.messageType
  set v k := { k with messageType := v }
  get_set _ _ := rfl
  set_get _ := rfl
  set_set _ _ _ := rfl

def channelDimension : Dimension RouteKey String where
  get k := k.channel
  set v k := { k with channel := v }
  get_set _ _ := rfl
  set_get _ := rfl
  set_set _ _ _ := rfl

def actorIdDimension : Dimension RouteKey String where
  get k := k.actorId
  set v k := { k with actorId := v }
  get_set _ _ := rfl
  set_get _ := rfl
  set_set _ _ _ := rfl

def recipientDimension : Dimension RouteKey RecipientKey where
  get k := k.recipient
  set v k := { k with recipient := v }
  get_set _ _ := rfl
  set_get _ := rfl
  set_set _ _ _ := rfl

/-- The key of the message itself, before any dimension is cleared. -/
def exact (metadata : RoutingMetadata) : RouteKey where
  tenantId := metadata.tenantId
  kind := metadata.kind
  messageType := metadata.messageType
  channel := metadata.channel
  actorId := metadata.actorId
  recipient := recipientKey metadata.recipientType metadata.recipientIdentity

def candidates (metadata : RoutingMetadata) : List RouteKey :=
  let keys := [exact metadata]
  let keys := kindDimension.branchWildcard metadata.kind.isSome keys
  let keys := messageTypeDimension.branchWildcard metadata.messageType.isSome keys
  let keys := channelDimension.branchWildcard metadata.channel.isSome keys
  let keys := actorIdDimension.branchWildcard metadata.actorId.isSome keys
  recipientDimension.branchWildcard metadata.recipientType.isSome keys

theorem isSome_recipientKey {recipientType recipientIdentity : Option String}
    (h : recipientType.isSome = recipientIdentity.isSome) :
    (recipientKey recipientType recipientIdentity).isSome = recipientType.isSome := by
  cases recipientType <;> cases recipientIdentity <;> simp_all [recipientKey]

/-- The candidates are the keys of the message's tenant that agree with the message in every
dimension they do not leave open. -/
theorem mem_candidates {metadata : RoutingMetadata}
    (hpair : metadata.recipientType.isSome = metadata.recipientIdentity.isSome) (k : RouteKey) :
    k ∈ candidates metadata ↔ k.tenantId = metadata.tenantId ∧
      (k.kind = none ∨ k.kind = metadata.kind) ∧
      (k.messageType = none ∨ k.messageType = metadata.messageType) ∧
      (k.channel = none ∨ k.channel = metadata.channel) ∧
      (k.actorId = none ∨ k.actorId = metadata.actorId) ∧
      (k.recipient = none ∨ k.recipient = (exact metadata).recipient) := by
  have hexact : ∀ k, k ∈ [exact metadata] ↔
      (k.tenantId = metadata.tenantId ∧ k.messageType = metadata.messageType ∧
        k.channel = metadata.channel ∧ k.actorId = metadata.actorId ∧
        k.recipient = (exact metadata).recipient) ∧ k.kind = metadata.kind := by
    rintro ⟨t, kd, mt, ch, ac, rc⟩
    simp only [exact, List.mem_singleton, RouteKey.mk.injEq, and_comm, and_left_comm]
  have hkind := kindDimension.mem_branchWildcard (fun _ _ => Iff.rfl) hexact
  have htype := messageTypeDimension.mem_branchWildcard (v := metadata.messageType) (P := fun k =>
      k.tenantId = metadata.tenantId ∧ (k.kind = none ∨ k.kind = metadata.kind) ∧
        k.channel = metadata.channel ∧ k.actorId = metadata.actorId ∧
        k.recipient = (exact metadata).recipient) (fun _ _ => Iff.rfl)
    (fun k => (hkind k).trans
      (by simp only [kindDimension, messageTypeDimension, and_comm, and_left_comm]))
  have hchannel := channelDimension.mem_branchWildcard (v := metadata.channel) (P := fun k =>
      k.tenantId = metadata.tenantId ∧ (k.kind = none ∨ k.kind = metadata.kind) ∧
        (k.messageType = none ∨ k.messageType = metadata.messageType) ∧
        k.actorId = metadata.actorId ∧ k.recipient = (exact metadata).recipient)
    (fun _ _ => Iff.rfl)
    (fun k => (htype k).trans
      (by simp only [messageTypeDimension, channelDimension, and_comm, and_left_comm]))
  have hactor := actorIdDimension.mem_branchWildcard (v := metadata.actorId) (P := fun k =>
      k.tenantId = metadata.tenantId ∧ (k.kind = none ∨ k.kind = metadata.kind) ∧
        (k.messageType = none ∨ k.messageType = metadata.messageType) ∧
        (k.channel = none ∨ k.channel = metadata.channel) ∧
        k.recipient = (exact metadata).recipient)
    (fun _ _ => Iff.rfl)
    (fun k => (hchannel k).trans
      (by simp only [channelDimension, actorIdDimension, and_comm, and_left_comm]))
  have hrecipient := recipientDimension.mem_branchWildcard (v := (exact metadata).recipient)
    (P := fun k =>
      k.tenantId = metadata.tenantId ∧ (k.kind = none ∨ k.kind = metadata.kind) ∧
        (k.messageType = none ∨ k.messageType = metadata.messageType) ∧
        (k.channel = none ∨ k.channel = metadata.channel) ∧
        (k.actorId = none ∨ k.actorId = metadata.actorId))
    (fun _ _ => Iff.rfl)
    (fun k => (hactor k).trans
      (by simp only [actorIdDimension, recipientDimension, and_assoc, and_comm, and_left_comm])) k
  have hpop : (exact metadata).recipient.isSome = metadata.recipientType.isSome :=
    isSome_recipientKey hpair
  rw [hpop] at hrecipient
  exact hrecipient.trans (by simp only [recipientDimension, and_assoc])

theorem nodup_candidates {metadata : RoutingMetadata}
    (hpair : metadata.recipientType.isSome = metadata.recipientIdentity.isSome) :
    (candidates metadata).Nodup := by
  have hpop : (exact metadata).recipient.isSome = metadata.recipientType.isSome :=
    isSome_recipientKey hpair
  have hall {Q : RouteKey → Prop} (h : Q (exact metadata)) : ∀ k ∈ [exact metadata], Q k := by
    intro k hk
    rwa [List.mem_singleton.mp hk]
  have hkind := kindDimension.nodup_branchWildcard (List.nodup_singleton (exact metadata))
    (hall rfl)
  have htype := messageTypeDimension.nodup_branchWildcard hkind
    (kindDimension.forall_branchWildcard (fun _ h => h) (hall rfl))
  have hchannel := channelDimension.nodup_branchWildcard htype
    (messageTypeDimension.forall_branchWildcard (fun _ h => h)
      (kindDimension.forall_branchWildcard (fun _ h => h) (hall rfl)))
  have hactor := actorIdDimension.nodup_branchWildcard hchannel
    (channelDimension.forall_branchWildcard (fun _ h => h)
      (messageTypeDimension.forall_branchWildcard (fun _ h => h)
        (kindDimension.forall_branchWildcard (fun _ h => h) (hall rfl))))
  have hrecipient := recipientDimension.nodup_branchWildcard hactor
    (actorIdDimension.forall_branchWildcard (fun _ h => h)
      (channelDimension.forall_branchWildcard (fun _ h => h)
        (messageTypeDimension.forall_branchWildcard (fun _ h => h)
          (kindDimension.forall_branchWildcard (fun _ h => h) (hall rfl)))))
  rw [show recipientDimension.get (exact metadata) = (exact metadata).recipient from rfl, hpop]
    at hrecipient
  exact hrecipient

end RouteKey

theorem RouteFilter.validate_eq_ok {filter : RouteFilter} :
    filter.validate = .ok () ↔ Identifier 256 filter.tenantId ∧
      (∀ value ∈ [filter.kind, filter.messageType, filter.channel, filter.actorId,
        filter.recipientType, filter.recipientIdentity], ∀ text, value = some text →
          Identifier 256 text) ∧
      filter.recipientType.isSome = filter.recipientIdentity.isSome := by
  simp only [RouteFilter.validate, check_eq_ok, validateIdentifier_eq_ok, validateFields_eq_ok,
    validateRecipient_eq_ok, List.forall_mem_cons, List.not_mem_nil]
  tauto

theorem RouteFilter.recipient_paired {filter : RouteFilter} (h : filter.validate = .ok ()) :
    filter.recipientType.isSome = filter.recipientIdentity.isSome :=
  (validate_eq_ok.mp h).2.2

theorem optionalMatches_iff (expected actual : Option String) :
    optionalMatches expected actual = true ↔ expected = none ∨ expected = actual := by
  cases expected with
  | none => simp [optionalMatches]
  | some e => simpa [optionalMatches] using eq_comm

theorem recipientMatches_iff
    {expectedType expectedIdentity actualType actualIdentity : Option String}
    (hexpected : expectedType.isSome = expectedIdentity.isSome)
    (hactual : actualType.isSome = actualIdentity.isSome) :
    recipientMatches expectedType expectedIdentity actualType actualIdentity = true ↔
      recipientKey expectedType expectedIdentity = none ∨
        recipientKey expectedType expectedIdentity = recipientKey actualType actualIdentity := by
  cases expectedType <;> cases expectedIdentity <;> cases actualType <;> cases actualIdentity <;>
    simp_all [recipientMatches, recipientKey]
  exact and_congr eq_comm eq_comm

theorem ofFilter_mem_candidates {filter : RouteFilter} (hf : filter.validate = .ok ())
    {metadata : RoutingMetadata} (hm : metadata.validate = .ok ()) :
    RouteKey.ofFilter filter ∈ RouteKey.candidates metadata ↔
      filter.matches metadata = true := by
  have hpair := RoutingMetadata.recipient_paired hm
  rw [RouteKey.mem_candidates hpair]
  simp only [RouteFilter.matches, Bool.and_eq_true, optionalMatches_iff,
    recipientMatches_iff (RouteFilter.recipient_paired hf) hpair,
    RouteKey.ofFilter, RouteKey.exact, beq_iff_eq, and_assoc]

/-- Looking a filter up among a message's candidates is the reference matcher. -/
theorem ofFilter_mem_candidates_iff {filter : RouteFilter} (hf : filter.validate = .ok ())
    (message : RoutedMessage) :
    RouteKey.ofFilter filter ∈ RouteKey.candidates message.metadata ↔
      filter.matches message.metadata = true :=
  ofFilter_mem_candidates hf message.valid

/-- How many of the dimensions the message fills, the recipient pair being one of them. -/
def RoutingMetadata.populated (metadata : RoutingMetadata) : ℕ :=
  [metadata.kind.isSome, metadata.messageType.isSome, metadata.channel.isSome,
    metadata.actorId.isSome,
    metadata.recipientType.isSome && metadata.recipientIdentity.isSome].count true

theorem RoutingMetadata.populated_eq {metadata : RoutingMetadata}
    (hpair : metadata.recipientType.isSome = metadata.recipientIdentity.isSome) :
    metadata.populated = metadata.kind.isSome.toNat + metadata.messageType.isSome.toNat +
      metadata.channel.isSome.toNat + metadata.actorId.isSome.toNat +
      metadata.recipientType.isSome.toNat := by
  have hcount : ∀ (b : Bool) (l : List Bool), (b :: l).count true = b.toNat + l.count true := by
    intro b l
    cases b with
    | false => simp
    | true => simp [Nat.add_comm]
  rw [populated, ← hpair, Bool.and_self]
  simp only [hcount, List.count_nil]
  omega

theorem RouteKey.length_candidates {metadata : RoutingMetadata}
    (hpair : metadata.recipientType.isSome = metadata.recipientIdentity.isSome) :
    (RouteKey.candidates metadata).length = 2 ^ metadata.populated := by
  simp only [RouteKey.candidates, Dimension.length_branchWildcard, List.length_singleton, one_mul]
  rw [RoutingMetadata.populated_eq hpair]
  simp only [pow_add]

/-- The candidates of a message are exact: a filter's key is among them if and only if the filter
matches, none occurs twice, all are of the message's tenant, and every populated dimension doubles
their number. -/
theorem candidates_exact (metadata : RoutingMetadata) (hm : metadata.validate = .ok ()) :
    (∀ filter : RouteFilter, filter.validate = .ok () →
      (RouteKey.ofFilter filter ∈ RouteKey.candidates metadata ↔
        filter.matches metadata = true)) ∧
    (RouteKey.candidates metadata).Nodup ∧
    (∀ k ∈ RouteKey.candidates metadata, k.tenantId = metadata.tenantId) ∧
    (RouteKey.candidates metadata).length = 2 ^ metadata.populated := by
  have hpair := RoutingMetadata.recipient_paired hm
  refine ⟨fun filter hf => ofFilter_mem_candidates hf hm, RouteKey.nodup_candidates hpair,
    fun k hk => ?_, RouteKey.length_candidates hpair⟩
  exact ((RouteKey.mem_candidates hpair k).mp hk).1

/-- A message that fills every dimension. -/
def orderShipped : RoutingMetadata :=
  ⟨"m1", "acme", some "order", some "shipped", some "eu", some "a1", some "team", some "7",
    "text/plain", none, none⟩

theorem candidates_exact_orderShipped : orderShipped.validate = .ok () ∧
    (RouteKey.candidates orderShipped).Nodup ∧ (RouteKey.candidates orderShipped).length = 32 := by
  have hvalid : orderShipped.validate = .ok () := by decide
  have hexact := candidates_exact orderShipped hvalid
  exact ⟨hvalid, hexact.2.1, hexact.2.2.2⟩

end KafkaEdgeRouter
