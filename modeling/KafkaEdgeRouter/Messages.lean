import KafkaEdgeRouter.Identifiers

/-!
# Routed messages

Routing metadata decoded from Kafka headers, and messages whose metadata has passed validation.
A message carries the proof of that check, so no operation of the router meets an invalid one.
-/

namespace KafkaEdgeRouter

structure KafkaPosition where
  topic : String
  partition : ℤ
  offset : ℤ
  deriving DecidableEq

structure RoutingMetadata where
  messageId : String
  tenantId : String
  kind : Option String
  messageType : Option String
  channel : Option String
  actorId : Option String
  recipientType : Option String
  recipientIdentity : Option String
  contentType : String
  timestampMs : Option ℤ
  source : Option KafkaPosition
  deriving DecidableEq

def RoutingMetadata.validate (metadata : RoutingMetadata) : Except CoreError Unit := do
  validateIdentifier "message_id" metadata.messageId 256
  validateIdentifier "tenant_id" metadata.tenantId 256
  validateIdentifier "content_type" metadata.contentType 256
  validateFields [("kind", metadata.kind), ("type", metadata.messageType),
    ("channel", metadata.channel), ("actor_id", metadata.actorId),
    ("recipient_type", metadata.recipientType),
    ("recipient_identity", metadata.recipientIdentity)]
  if metadata.recipientType.isSome != metadata.recipientIdentity.isSome then
    throw .incompleteRecipient

structure TraceContext where
  traceparent : String
  tracestate : Option String
  deriving DecidableEq

def TraceContext.new (traceparent : String) (tracestate : Option String) :
    Except CoreError TraceContext := do
  validateIdentifier "traceparent" traceparent 256
  if let some state := tracestate then
    validateIdentifier "tracestate" state 512
  return ⟨traceparent, tracestate⟩

/-- A message is only built from metadata that passed validation. -/
structure RoutedMessage where
  metadata : RoutingMetadata
  payload : List UInt8
  traceContext : Option TraceContext
  valid : metadata.validate = .ok ()
  deriving DecidableEq

def RoutedMessage.newWithTraceContext (metadata : RoutingMetadata) (payload : List UInt8)
    (traceContext : Option TraceContext) : Except CoreError RoutedMessage :=
  match h : metadata.validate with
  | .error e => .error e
  | .ok () => .ok ⟨metadata, payload, traceContext, h⟩

theorem RoutedMessage.newWithTraceContext_eq_ok {metadata : RoutingMetadata}
    (payload : List UInt8) (traceContext : Option TraceContext)
    (h : metadata.validate = .ok ()) :
    newWithTraceContext metadata payload traceContext =
      .ok ⟨metadata, payload, traceContext, h⟩ := by
  unfold newWithTraceContext
  split
  · rename_i e he
    rw [h] at he
    cases he
  · rfl

theorem RoutedMessage.validate_of_newWithTraceContext {metadata : RoutingMetadata}
    {payload : List UInt8} {traceContext : Option TraceContext} {message : RoutedMessage}
    (h : newWithTraceContext metadata payload traceContext = .ok message) :
    metadata.validate = .ok () := by
  unfold newWithTraceContext at h
  split at h
  · cases h
  · assumption

theorem validateRecipient_eq_ok {recipientType recipientIdentity : Option String} :
    (if recipientType.isSome != recipientIdentity.isSome then
      throw CoreError.incompleteRecipient else pure () : Except CoreError Unit) = .ok () ↔
      recipientType.isSome = recipientIdentity.isSome := by
  cases recipientType <;> cases recipientIdentity <;> simp [pure, Except.pure, throw, throwThe,
    MonadExceptOf.throw]

theorem RoutingMetadata.validate_eq_ok {metadata : RoutingMetadata} :
    metadata.validate = .ok () ↔
      Identifier 256 metadata.messageId ∧ Identifier 256 metadata.tenantId ∧
      Identifier 256 metadata.contentType ∧
      (∀ value ∈ [metadata.kind, metadata.messageType, metadata.channel, metadata.actorId,
        metadata.recipientType, metadata.recipientIdentity], ∀ text, value = some text →
          Identifier 256 text) ∧
      metadata.recipientType.isSome = metadata.recipientIdentity.isSome := by
  simp only [RoutingMetadata.validate, check_eq_ok, validateIdentifier_eq_ok, validateFields_eq_ok,
    validateRecipient_eq_ok, List.forall_mem_cons, List.not_mem_nil]
  tauto

/-- Validation accepts recipients only in pairs. -/
theorem RoutingMetadata.recipient_paired {metadata : RoutingMetadata}
    (h : metadata.validate = .ok ()) :
    metadata.recipientType.isSome = metadata.recipientIdentity.isSome :=
  (validate_eq_ok.mp h).2.2.2.2

theorem RoutedMessage.recipient_paired (message : RoutedMessage) :
    message.metadata.recipientType.isSome = message.metadata.recipientIdentity.isSome :=
  RoutingMetadata.recipient_paired message.valid

end KafkaEdgeRouter
