import Mathlib.Algebra.Ring.Nat
import Mathlib.Data.Int.Notation
import Mathlib.Data.List.TakeWhile
import Mathlib.Data.Nat.Notation
import Mathlib.Tactic.Common

/-!
# Identifiers and core failures

The bounded identifiers of the router and the failures its core operations return, with the texts
that the transports show. Text is measured in UTF-8 bytes; blank and control characters are those
of the Unicode tables behind `str::trim` and `char::is_control`.
-/

namespace KafkaEdgeRouter

inductive CoreError
  | invalidIdentifier (field reason : String)
  | connectionNotFound
  | subscriptionExists
  | subscriptionNotFound
  | tenantMismatch
  | subscriptionLimitReached
  | connectionLimitReached
  | globalSubscriptionLimitReached
  | invalidQueueCapacity (requested maximum : ℕ)
  | incompleteRecipient
  | missingField (field : String)
  deriving DecidableEq

def CoreError.display : CoreError → String
  | .invalidIdentifier field reason => s!"invalid {field}: {reason}"
  | .connectionNotFound => "connection does not exist"
  | .subscriptionExists => "subscription already exists"
  | .subscriptionNotFound => "subscription does not exist"
  | .tenantMismatch => "subscription tenant differs from connection tenant"
  | .subscriptionLimitReached => "connection subscription limit reached"
  | .connectionLimitReached => "connection limit reached"
  | .globalSubscriptionLimitReached => "subscription limit reached"
  | .invalidQueueCapacity requested maximum =>
      s!"queue capacity {requested} must be between 1 and {maximum}"
  | .incompleteRecipient =>
      "recipient_type and recipient_identity must either both be set or both be absent"
  | .missingField field => s!"missing mandatory routing field: {field}"

/-- The Unicode property `White_Space`. -/
def isWhitespace (c : Char) : Bool :=
  let n := c.toNat
  (0x09 ≤ n && n ≤ 0x0D) || n == 0x20 || n == 0x85 || n == 0xA0 || n == 0x1680 ||
    (0x2000 ≤ n && n ≤ 0x200A) || n == 0x2028 || n == 0x2029 || n == 0x202F || n == 0x205F ||
    n == 0x3000

/-- The Unicode category `Cc`. -/
def isControl (c : Char) : Bool := c.toNat < 0x20 || (0x7F ≤ c.toNat && c.toNat ≤ 0x9F)

def trim (value : String) : List Char :=
  ((value.toList.dropWhile isWhitespace).reverse.dropWhile isWhitespace).reverse

def validateIdentifier (field value : String) (maxLen : ℕ) : Except CoreError Unit :=
  if (trim value).isEmpty then .error (.invalidIdentifier field "must not be empty")
  else if value.utf8ByteSize > maxLen then
    .error (.invalidIdentifier field s!"must not exceed {maxLen} bytes")
  else if value.toList.any isControl then
    .error (.invalidIdentifier field "must not contain control characters")
  else .ok ()

/-- The loop over named optional fields that filters and message metadata both run. -/
def validateFields : List (String × Option String) → Except CoreError Unit
  | [] => .ok ()
  | (field, some value) :: rest => do
    validateIdentifier field value 256
    validateFields rest
  | (_, none) :: rest => validateFields rest

/-! ### What the checks accept -/

theorem bind_eq_ok {ε α β : Type} {x : Except ε α} {f : α → Except ε β} {b : β} :
    (x >>= f) = .ok b ↔ ∃ a, x = .ok a ∧ f a = .ok b := by
  cases x with
  | error e => simp [bind, Except.bind]
  | ok a => simp [bind, Except.bind]

theorem check_eq_ok {ε β : Type} {x : Except ε Unit} {f : Unit → Except ε β} {b : β} :
    (x >>= f) = .ok b ↔ x = .ok () ∧ f () = .ok b := by
  rw [bind_eq_ok]
  exact ⟨fun ⟨_, hx, hf⟩ => ⟨hx, hf⟩, fun ⟨hx, hf⟩ => ⟨(), hx, hf⟩⟩

theorem mapError_eq_ok {ε ε' α : Type} {x : Except ε α} {f : ε → ε'} {a : α} :
    x.mapError f = .ok a ↔ x = .ok a := by
  cases x with
  | error e => simp [Except.mapError]
  | ok a' => simp [Except.mapError]

/-- The values that `validateIdentifier` accepts. -/
structure Identifier (maxLen : ℕ) (value : String) : Prop where
  visible : ∃ c ∈ value.toList, isWhitespace c = false
  short : value.utf8ByteSize ≤ maxLen
  printable : ∀ c ∈ value.toList, isControl c = false

theorem trim_eq_nil {value : String} :
    trim value = [] ↔ ∀ c ∈ value.toList, isWhitespace c = true := by
  rw [trim, List.reverse_eq_nil_iff, List.dropWhile_eq_nil_iff]
  constructor
  · intro h
    by_contra hne
    have hdrop : value.toList.dropWhile isWhitespace ≠ [] :=
      fun hnil => hne (List.dropWhile_eq_nil_iff.mp hnil)
    have hhead := List.head_dropWhile_not isWhitespace hdrop
    have hmem := h _ (List.mem_reverse.mpr (List.head_mem hdrop))
    rw [hhead] at hmem
    cases hmem
  · intro h c hc
    exact h c (List.dropWhile_subset _ (List.mem_reverse.mp hc))

theorem validateIdentifier_eq_ok {field value : String} {maxLen : ℕ} :
    validateIdentifier field value maxLen = .ok () ↔ Identifier maxLen value := by
  have hvisible : (trim value).isEmpty = false ↔ ∃ c ∈ value.toList, isWhitespace c = false := by
    rw [List.isEmpty_eq_false_iff, Ne, trim_eq_nil]
    simp
  unfold validateIdentifier
  constructor
  · intro h
    split at h
    · cases h
    rename_i hblank
    split at h
    · cases h
    split at h
    · cases h
    rename_i hshort hcontrol
    have hclean := List.any_eq_false.mp (Bool.of_not_eq_true hcontrol)
    exact ⟨hvisible.mp (Bool.of_not_eq_true hblank), by omega,
      fun c hc => Bool.of_not_eq_true (hclean c hc)⟩
  · intro h
    have hclean : value.toList.any isControl = false :=
      List.any_eq_false.mpr fun c hc => by simp [h.printable c hc]
    have hshort := h.short
    simp only [hvisible.mpr h.visible, hclean, Bool.false_eq_true, if_false]
    rw [if_neg (by omega)]

theorem validateFields_eq_ok {fields : List (String × Option String)} :
    validateFields fields = .ok () ↔
      ∀ field ∈ fields, ∀ value, field.2 = some value → Identifier 256 value := by
  induction fields with
  | nil => simp [validateFields]
  | cons field rest ih =>
    obtain ⟨name, value⟩ := field
    cases value with
    | none => simp [validateFields, ih]
    | some value => simp [validateFields, check_eq_ok, validateIdentifier_eq_ok, ih]

/-- Identifier of one protocol connection or webhook worker, a random version-4 UUID. -/
structure ConnectionId where
  uuid : ℕ
  deriving DecidableEq

structure SubscriptionId where
  value : String
  deriving DecidableEq

def SubscriptionId.new (value : String) : Except CoreError SubscriptionId := do
  validateIdentifier "subscription_id" value 128
  return ⟨value⟩

inductive DeliveryProtocol
  | webSocket
  | sse
  | grpc
  | httpWebhook
  deriving DecidableEq

end KafkaEdgeRouter
