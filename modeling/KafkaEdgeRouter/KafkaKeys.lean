import KafkaEdgeRouter.KafkaPublisher

/-!
# Kafka keys and the spaces they share

A key is made of the tenant, a tag that names the rule by which the command is keyed, and a value,
joined by colons; a command with nothing to key by has its tenant as key. The tags are `explicit`,
`channel` and the recipient type. Tenants and recipient types may contain colons themselves, so the
keys of two different tenants or rules can meet. This module says exactly when they do.
-/

namespace KafkaEdgeRouter.Kafka

/-- What a command is keyed by. -/
inductive Keying
  | explicit (orderingKey : String)
  | recipient (recipientType recipientIdentity : String)
  | channel (name : String)
  | tenant
  deriving DecidableEq

def keying (command : PublishCommand) : Keying :=
  match command.orderingKey with
  | some orderingKey => .explicit orderingKey
  | none =>
    match command.recipientType, command.recipientIdentity with
    | some recipientType, some recipientIdentity => .recipient recipientType recipientIdentity
    | _, _ =>
      match command.channel with
      | some name => .channel name
      | none => .tenant

/-- The rule of a keying, without the value. -/
inductive KeyRule
  | explicit
  | recipient (recipientType : String)
  | channel
  | tenant
  deriving DecidableEq

def Keying.rule : Keying → KeyRule
  | .explicit _ => .explicit
  | .recipient recipientType _ => .recipient recipientType
  | .channel _ => .channel
  | .tenant => .tenant

def Keying.value : Keying → Option String
  | .explicit value | .recipient _ value | .channel value => some value
  | .tenant => none

def KeyRule.tag : KeyRule → Option String
  | .explicit => some "explicit"
  | .recipient recipientType => some recipientType
  | .channel => some "channel"
  | .tenant => none

/-- All commands of one tenant that are keyed by one rule. -/
@[ext]
structure KeySpace where
  tenantId : String
  rule : KeyRule
  deriving DecidableEq

def keySpace (command : PublishCommand) : KeySpace :=
  ⟨command.tenantId, (keying command).rule⟩

/-- What comes before the value in the keys of a key space. -/
def KeySpace.root (space : KeySpace) : String :=
  match space.rule.tag with
  | some tag => space.tenantId ++ ":" ++ tag
  | none => space.tenantId

theorem Keying.ext_value {k k' : Keying} (hrule : k.rule = k'.rule) (hvalue : k.value = k'.value) :
    k = k' := by
  cases k <;> cases k' <;> simp_all [Keying.rule, Keying.value]

theorem Keying.tag_isSome (k : Keying) : k.rule.tag.isSome = k.value.isSome := by
  cases k <;> rfl

theorem kafkaKey_eq (command : PublishCommand) :
    kafkaKey command = match (keying command).value with
      | some value => (keySpace command).root ++ ":" ++ value
      | none => command.tenantId := by
  unfold kafkaKey keySpace keying KeySpace.root
  rcases command.orderingKey with _ | orderingKey
  · rcases command.recipientType with _ | recipientType <;>
      rcases command.recipientIdentity with _ | recipientIdentity <;>
      rcases command.channel with _ | channel <;>
      simp [Keying.rule, Keying.value, KeyRule.tag, String.append_assoc]
  · simp [Keying.rule, Keying.value, KeyRule.tag, String.append_assoc]

/-- The keys of `b` continue the root of `a` so that a value of `a` can fill the rest. A value has
at most 256 bytes; the separator and the value of `b` take two of them at least. -/
def KeySpace.Continues (b a : KeySpace) : Prop :=
  if b.rule = .tenant then
    ∃ value : String, (∃ c ∈ value.toList, isWhitespace c = false) ∧
      b.tenantId = a.root ++ ":" ++ value
  else ∃ rest : String, rest.utf8ByteSize ≤ 254 ∧ b.root = a.root ++ ":" ++ rest

/-- Two key spaces share a key. -/
def KeySpace.Clash (a b : KeySpace) : Prop :=
  a ≠ b ∧
    (a.rule ≠ .tenant ∧ b.rule ≠ .tenant ∧ a.root = b.root ∨
      a.rule ≠ .tenant ∧ b.Continues a ∨ b.rule ≠ .tenant ∧ a.Continues b)

section Values

variable {parseMime : MimeParser} {command : PublishCommand}

theorem validate_eq_ok : command.validate parseMime = .ok () ↔
    command.metadata.validate = .ok () ∧
      PublishCommand.validateContentType parseMime command.contentType = .ok () ∧
      ∀ key, command.orderingKey = some key → Identifier 256 key := by
  have hkey : PublishCommand.validateOrderingKey command.orderingKey = .ok () ↔
      ∀ key, command.orderingKey = some key → Identifier 256 key := by
    cases command.orderingKey with
    | none => simp [PublishCommand.validateOrderingKey]
    | some key =>
      simp [PublishCommand.validateOrderingKey, mapError_eq_ok, validateIdentifier_eq_ok]
  simp only [PublishCommand.validate, check_eq_ok, mapError_eq_ok, hkey]

/-- The command with another value for the rule it is keyed by. -/
def withValue (command : PublishCommand) (value : String) : PublishCommand :=
  match keying command with
  | .explicit _ => { command with orderingKey := some value }
  | .recipient _ _ => { command with recipientIdentity := some value }
  | .channel _ => { command with channel := some value }
  | .tenant => command

def Keying.replace (value : String) : Keying → Keying
  | .explicit _ => .explicit value
  | .recipient recipientType _ => .recipient recipientType value
  | .channel _ => .channel value
  | .tenant => .tenant

theorem keying_withValue (value : String) :
    keying (withValue command value) = (keying command).replace value := by
  obtain ⟨_, _, _, _, channel, _, recipientType, recipientIdentity, orderingKey, _, _⟩ := command
  cases orderingKey <;> cases recipientType <;> cases recipientIdentity <;> cases channel <;> rfl

theorem tenantId_withValue (value : String) :
    (withValue command value).tenantId = command.tenantId := by
  unfold withValue
  split <;> rfl

theorem validate_withValue {value : String} (hvalid : command.validate parseMime = .ok ())
    (hvalue : Identifier 256 value) : (withValue command value).validate parseMime = .ok () := by
  obtain ⟨_, _, _, _, channel, _, recipientType, recipientIdentity, orderingKey, _, _⟩ := command
  rw [validate_eq_ok, RoutingMetadata.validate_eq_ok] at hvalid ⊢
  cases orderingKey <;> cases recipientType <;> cases recipientIdentity <;> cases channel <;>
    simp_all [withValue, keying, PublishCommand.metadata]

theorem value_identifier {value : String} (hvalid : command.validate parseMime = .ok ())
    (hvalue : (keying command).value = some value) : Identifier 256 value := by
  obtain ⟨_, _, _, _, channel, _, recipientType, recipientIdentity, orderingKey, _, _⟩ := command
  rw [validate_eq_ok, RoutingMetadata.validate_eq_ok] at hvalid
  cases orderingKey <;> cases recipientType <;> cases recipientIdentity <;> cases channel <;>
    simp_all [keying, Keying.value, PublishCommand.metadata]

theorem recipientType_of_keying {recipientType recipientIdentity : String}
    (h : keying command = .recipient recipientType recipientIdentity) :
    command.recipientType = some recipientType := by
  obtain ⟨_, _, _, _, channel, _, rtype, identity, orderingKey, _, _⟩ := command
  cases orderingKey <;> cases rtype <;> cases identity <;> cases channel <;>
    simp_all [keying]

theorem printable_of_all {text : List Char} (h : text.all (fun c => !isControl c) = true) :
    ∀ c ∈ text, isControl c = false := by
  simpa using h

theorem tag_printable {tag : String} (hvalid : command.validate parseMime = .ok ())
    (htag : (keying command).rule.tag = some tag) : ∀ c ∈ tag.toList, isControl c = false := by
  cases hkeying : keying command with
  | explicit orderingKey =>
    rw [hkeying] at htag
    cases htag
    exact printable_of_all (by decide)
  | recipient recipientType recipientIdentity =>
    rw [hkeying] at htag
    cases htag
    have hmetadata := (RoutingMetadata.validate_eq_ok.mp (validate_eq_ok.mp hvalid).1).2.2.2.1
    exact (hmetadata command.recipientType (by simp [PublishCommand.metadata]) tag
      (recipientType_of_keying hkeying)).printable
  | channel name =>
    rw [hkeying] at htag
    cases htag
    exact printable_of_all (by decide)
  | tenant =>
    rw [hkeying] at htag
    cases htag

theorem tenantId_identifier (hvalid : command.validate parseMime = .ok ()) :
    Identifier 256 command.tenantId :=
  (RoutingMetadata.validate_eq_ok.mp (validate_eq_ok.mp hvalid).1).2.1

theorem root_printable (hvalid : command.validate parseMime = .ok ()) :
    ∀ c ∈ (keySpace command).root.toList, isControl c = false := by
  intro c hc
  have htenant := (tenantId_identifier hvalid).printable
  unfold KeySpace.root at hc
  split at hc
  · rename_i tag htag
    simp only [String.toList_append, List.mem_append] at hc
    rcases hc with (hc | hc) | hc
    · exact htenant c hc
    · have hcolon : c = ':' := by simpa using hc
      rw [hcolon]
      decide
    · exact tag_printable hvalid htag c hc
  · exact htenant c hc

theorem rule_eq_tenant_iff : (keySpace command).rule = .tenant ↔ (keying command).value = none := by
  unfold keySpace
  cases keying command <;> simp [Keying.rule, Keying.value]

theorem kafkaKey_of_value {value : String} (h : (keying command).value = some value) :
    kafkaKey command = (keySpace command).root ++ ":" ++ value := by
  rw [kafkaKey_eq, h]

theorem kafkaKey_of_tenant (h : (keying command).value = none) :
    kafkaKey command = command.tenantId := by
  rw [kafkaKey_eq, h]

theorem keySpace_withValue (value : String) :
    keySpace (withValue command value) = keySpace command := by
  unfold keySpace
  rw [tenantId_withValue, keying_withValue]
  cases keying command <;> rfl

theorem kafkaKey_withValue (h : (keySpace command).rule ≠ .tenant) (value : String) :
    kafkaKey (withValue command value) = (keySpace command).root ++ ":" ++ value := by
  have hvalue : (keying (withValue command value)).value = some value := by
    rw [keying_withValue]
    unfold keySpace at h
    cases hk : keying command <;> simp_all [Keying.replace, Keying.value, Keying.rule]
  rw [kafkaKey_of_value hvalue, keySpace_withValue]

end Values

/-! ### When keys meet -/

theorem identifier_rest {rest : String} (hshort : rest.utf8ByteSize ≤ 254)
    (hprintable : ∀ c ∈ rest.toList, isControl c = false) : Identifier 256 (rest ++ ":0") := by
  refine ⟨⟨':', by simp, by decide⟩, ?_, fun c hc => ?_⟩
  · have hsize : (":0" : String).utf8ByteSize = 2 := by decide
    rw [String.utf8ByteSize_append, hsize]
    omega
  · rcases List.mem_append.mp (String.toList_append ▸ hc) with hc | hc
    · exact hprintable c hc
    · have hword : ∀ c ∈ (":0" : String).toList, isControl c = false :=
        printable_of_all (by decide)
      exact hword c hc

/-- Commands of the two spaces that pass validation and get the same key are of one tenant and keyed
alike. -/
def Separated (parseMime : MimeParser) (s t : KeySpace) : Prop :=
  ∀ a b : PublishCommand, a.validate parseMime = .ok () → b.validate parseMime = .ok () →
    keySpace a = s → keySpace b = t → kafkaKey a = kafkaKey b →
      a.tenantId = b.tenantId ∧ keying a = keying b

section Clashes

variable {parseMime : MimeParser} {a b : PublishCommand}

theorem Separated.symm {s t : KeySpace} (h : Separated parseMime s t) :
    Separated parseMime t s := by
  intro a b ha hb has hbt hkey
  obtain ⟨htenant, hkeying⟩ := h b a hb ha hbt has hkey.symm
  exact ⟨htenant.symm, hkeying.symm⟩

/-- Different spaces are not separated once two of their commands share a key. -/
theorem not_separated (ha : a.validate parseMime = .ok ()) (hb : b.validate parseMime = .ok ())
    (hne : keySpace a ≠ keySpace b) (hkey : kafkaKey a = kafkaKey b) :
    ¬ Separated parseMime (keySpace a) (keySpace b) := by
  intro hseparated
  obtain ⟨htenant, hkeying⟩ := hseparated a b ha hb rfl rfl hkey
  apply hne
  rw [keySpace, keySpace, htenant, hkeying]

theorem not_separated_of_root (ha : a.validate parseMime = .ok ())
    (hb : b.validate parseMime = .ok ()) (hne : keySpace a ≠ keySpace b)
    (hruleA : (keySpace a).rule ≠ .tenant) (hruleB : (keySpace b).rule ≠ .tenant)
    (hroot : (keySpace a).root = (keySpace b).root) :
    ¬ Separated parseMime (keySpace a) (keySpace b) := by
  have hzero : Identifier 256 "0" :=
    (validateIdentifier_eq_ok : validateIdentifier "value" "0" 256 = .ok () ↔ _).mp (by decide)
  have hkey : kafkaKey (withValue a "0") = kafkaKey (withValue b "0") := by
    rw [kafkaKey_withValue hruleA, kafkaKey_withValue hruleB, hroot]
  have hspaces : keySpace (withValue a "0") ≠ keySpace (withValue b "0") := by
    rwa [keySpace_withValue, keySpace_withValue]
  have hnot :=
    not_separated (validate_withValue ha hzero) (validate_withValue hb hzero) hspaces hkey
  rwa [keySpace_withValue, keySpace_withValue] at hnot

theorem not_separated_of_continues (ha : a.validate parseMime = .ok ())
    (hb : b.validate parseMime = .ok ()) (hne : keySpace a ≠ keySpace b)
    (hrule : (keySpace a).rule ≠ .tenant) (hcontinues : (keySpace b).Continues (keySpace a)) :
    ¬ Separated parseMime (keySpace a) (keySpace b) := by
  unfold KeySpace.Continues at hcontinues
  split at hcontinues
  · rename_i htenant
    obtain ⟨value, hvisible, hkey⟩ := hcontinues
    have hb' := tenantId_identifier hb
    have hkey' : b.tenantId = (keySpace a).root ++ ":" ++ value := hkey
    have hvalue : Identifier 256 value := by
      rw [hkey'] at hb'
      refine ⟨hvisible, ?_, fun c hc => hb'.printable c ?_⟩
      · have hshort := hb'.short
        simp only [String.utf8ByteSize_append] at hshort
        omega
      · simp only [String.toList_append, List.mem_append]
        exact Or.inr hc
    have hspaces : keySpace (withValue a value) ≠ keySpace b := by rwa [keySpace_withValue]
    have hkeys : kafkaKey (withValue a value) = kafkaKey b := by
      rw [kafkaKey_withValue hrule, kafkaKey_of_tenant (rule_eq_tenant_iff.mp htenant), hkey']
    have hnot := not_separated (validate_withValue ha hvalue) hb hspaces hkeys
    rwa [keySpace_withValue] at hnot
  · rename_i htenant
    obtain ⟨rest, hshort, hroot⟩ := hcontinues
    have hprintable : ∀ c ∈ rest.toList, isControl c = false := fun c hc =>
      root_printable hb c (by simp [hroot, String.toList_append, hc])
    have hzero : Identifier 256 "0" :=
      (validateIdentifier_eq_ok : validateIdentifier "value" "0" 256 = .ok () ↔ _).mp (by decide)
    have hkey : kafkaKey (withValue a (rest ++ ":0")) = kafkaKey (withValue b "0") := by
      rw [kafkaKey_withValue hrule, kafkaKey_withValue htenant, hroot]
      simp [String.append_assoc]
    have hspaces : keySpace (withValue a (rest ++ ":0")) ≠ keySpace (withValue b "0") := by
      rwa [keySpace_withValue, keySpace_withValue]
    have hnot := not_separated (validate_withValue ha (identifier_rest hshort hprintable))
      (validate_withValue hb hzero) hspaces hkey
    rwa [keySpace_withValue, keySpace_withValue] at hnot

theorem append_colon_split {x y v w : String} {l : List Char} (hy : y.toList = x.toList ++ l)
    (hv : ':' :: v.toList = l ++ ':' :: w.toList) :
    x = y ∨ ∃ rest, y = x ++ ":" ++ rest ∧ v = rest ++ ":" ++ w := by
  cases l with
  | nil => exact Or.inl (String.toList_inj.mp (by simpa using hy.symm))
  | cons c l =>
    rw [List.cons_append] at hv
    obtain ⟨rfl, hrest⟩ := List.cons.inj hv
    refine Or.inr ⟨String.ofList l, String.toList_inj.mp ?_, String.toList_inj.mp ?_⟩
    · simp [hy, String.toList_append]
    · simp [hrest, String.toList_append]

/-- Two joined texts agree only if their roots do, or one root continues the other. -/
theorem append_colon_eq {x y v w : String} (h : x ++ ":" ++ v = y ++ ":" ++ w) :
    x = y ∨ (∃ rest, y = x ++ ":" ++ rest ∧ v = rest ++ ":" ++ w) ∨
      ∃ rest, x = y ++ ":" ++ rest ∧ w = rest ++ ":" ++ v := by
  have hlists : x.toList ++ ':' :: v.toList = y.toList ++ ':' :: w.toList := by
    have := congrArg String.toList h
    simpa [String.toList_append] using this
  rcases List.append_eq_append_iff.mp hlists with ⟨l, hy, hv⟩ | ⟨l, hx, hw⟩
  · exact (append_colon_split hy hv).imp_right Or.inl
  · exact (append_colon_split hx hw).imp Eq.symm Or.inr

theorem utf8ByteSize_rest_le {rest v w : String} (hv : Identifier 256 v) (hw : Identifier 256 w)
    (h : v = rest ++ ":" ++ w) : rest.utf8ByteSize ≤ 254 := by
  have hcolon : (":" : String).utf8ByteSize = 1 := by decide
  have hpos : w.utf8ByteSize ≠ 0 := by
    intro hzero
    obtain ⟨c, hc, _⟩ := hw.visible
    rw [String.utf8ByteSize_eq_zero_iff.mp hzero] at hc
    simp at hc
  have hshort := hv.short
  rw [h, String.utf8ByteSize_append, String.utf8ByteSize_append, hcolon] at hshort
  omega

theorem continues_of_rest {v w rest : String} {s t : KeySpace} (hrule : t.rule ≠ .tenant)
    (hv : Identifier 256 v) (hw : Identifier 256 w) (hroot : t.root = s.root ++ ":" ++ rest)
    (h : v = rest ++ ":" ++ w) : t.Continues s := by
  rw [KeySpace.Continues, if_neg hrule]
  exact ⟨rest, utf8ByteSize_rest_le hv hw h, hroot⟩

theorem continues_of_tenant {v : String} {s t : KeySpace} (hrule : t.rule = .tenant)
    (hv : Identifier 256 v) (h : t.tenantId = s.root ++ ":" ++ v) : t.Continues s := by
  rw [KeySpace.Continues, if_pos hrule]
  exact ⟨v, hv.visible, h⟩

theorem clash_of_kafkaKey_eq (ha : a.validate parseMime = .ok ())
    (hb : b.validate parseMime = .ok ()) (hne : keySpace a ≠ keySpace b)
    (hkey : kafkaKey a = kafkaKey b) : (keySpace a).Clash (keySpace b) := by
  have hvalued : ∀ {command : PublishCommand} {value : String},
      (keying command).value = some value → (keySpace command).rule ≠ .tenant := by
    intro command value hvalue hrule
    rw [rule_eq_tenant_iff.mp hrule] at hvalue
    cases hvalue
  refine ⟨hne, ?_⟩
  rcases hva : (keying a).value with _ | v <;> rcases hvb : (keying b).value with _ | w
  · rw [kafkaKey_of_tenant hva, kafkaKey_of_tenant hvb] at hkey
    have hrules : (keySpace a).rule = (keySpace b).rule :=
      (rule_eq_tenant_iff.mpr hva).trans (rule_eq_tenant_iff.mpr hvb).symm
    exact absurd (KeySpace.ext hkey hrules) hne
  · rw [kafkaKey_of_tenant hva, kafkaKey_of_value hvb] at hkey
    exact Or.inr (Or.inr ⟨hvalued hvb, continues_of_tenant (rule_eq_tenant_iff.mpr hva)
      (value_identifier hb hvb) hkey⟩)
  · rw [kafkaKey_of_value hva, kafkaKey_of_tenant hvb] at hkey
    exact Or.inr (Or.inl ⟨hvalued hva, continues_of_tenant (rule_eq_tenant_iff.mpr hvb)
      (value_identifier ha hva) hkey.symm⟩)
  · rw [kafkaKey_of_value hva, kafkaKey_of_value hvb] at hkey
    have hv := value_identifier ha hva
    have hw := value_identifier hb hvb
    rcases append_colon_eq hkey with hroot | ⟨rest, hroot, hrest⟩ | ⟨rest, hroot, hrest⟩
    · exact Or.inl ⟨hvalued hva, hvalued hvb, hroot⟩
    · exact Or.inr (Or.inl ⟨hvalued hva, continues_of_rest (hvalued hvb) hv hw hroot hrest⟩)
    · exact Or.inr (Or.inr ⟨hvalued hvb, continues_of_rest (hvalued hva) hw hv hroot hrest⟩)

theorem keying_eq_of_keySpace_eq (hspace : keySpace a = keySpace b)
    (hkey : kafkaKey a = kafkaKey b) : keying a = keying b := by
  have hrule : (keying a).rule = (keying b).rule := congrArg KeySpace.rule hspace
  have hsome : (keying a).value.isSome = (keying b).value.isSome := by
    rw [← Keying.tag_isSome, ← Keying.tag_isSome, hrule]
  apply Keying.ext_value hrule
  rcases hva : (keying a).value with _ | v <;> rcases hvb : (keying b).value with _ | w
  · rfl
  · simp [hva, hvb] at hsome
  · simp [hva, hvb] at hsome
  · rw [kafkaKey_of_value hva, kafkaKey_of_value hvb, hspace] at hkey
    rw [String.append_right_inj] at hkey
    rw [hkey]

/-- Whatever the two commands and their values, keys are shared by commands of one tenant that are
keyed alike and by no others, exactly when the key spaces of the commands do not clash. -/
theorem separated_iff_not_clash (ha : a.validate parseMime = .ok ())
    (hb : b.validate parseMime = .ok ()) :
    Separated parseMime (keySpace a) (keySpace b) ↔ ¬ (keySpace a).Clash (keySpace b) := by
  constructor
  · intro hseparated hclash
    obtain ⟨hne, ⟨hruleA, hruleB, hroot⟩ | ⟨hrule, hcontinues⟩ | ⟨hrule, hcontinues⟩⟩ := hclash
    · exact not_separated_of_root ha hb hne hruleA hruleB hroot hseparated
    · exact not_separated_of_continues ha hb hne hrule hcontinues hseparated
    · exact not_separated_of_continues hb ha (Ne.symm hne) hrule hcontinues hseparated.symm
  · intro hclash a' b' ha' hb' hspaceA hspaceB hkey
    have hspace : keySpace a' = keySpace b' := by
      by_contra hne
      have hclash' := clash_of_kafkaKey_eq ha' hb' hne hkey
      rw [hspaceA, hspaceB] at hclash'
      exact hclash hclash'
    exact ⟨congrArg KeySpace.tenantId hspace, keying_eq_of_keySpace_eq hspace hkey⟩

end Clashes

def orderedBy (tenantId orderingKey : String) : PublishCommand where
  messageId := "1"
  tenantId := tenantId
  kind := none
  messageType := none
  channel := none
  actorId := none
  recipientType := none
  recipientIdentity := none
  orderingKey := some orderingKey
  contentType := "application/json"
  payload := []

theorem separated_acme_globex :
    Separated applicationJson ⟨"acme", .explicit⟩ ⟨"globex", .explicit⟩ := by
  have hacme : (orderedBy "acme" "1").validate applicationJson = .ok () := by decide +kernel
  have hglobex : (orderedBy "globex" "1").validate applicationJson = .ok () := by decide +kernel
  have hroot₁ : (keySpace (orderedBy "acme" "1")).root = "acme:explicit" := by decide
  have hroot₂ : (keySpace (orderedBy "globex" "1")).root = "globex:explicit" := by decide
  apply (separated_iff_not_clash hacme hglobex).mpr
  rintro ⟨_, ⟨_, _, h⟩ | ⟨_, rest, _, h⟩ | ⟨_, rest, _, h⟩⟩
  all_goals
    rw [hroot₁, hroot₂] at h
    have hhead := congrArg (fun text => text.toList.head?) h
    simp [String.toList_append] at hhead

/-- Two tenants share a key although every field of the commands is accepted. -/
theorem kafkaKey_shared_by_tenants :
    (orderedBy "a" "b:explicit:c").validate applicationJson = .ok () ∧
      (orderedBy "a:explicit:b" "c").validate applicationJson = .ok () ∧
      kafkaKey (orderedBy "a" "b:explicit:c") = kafkaKey (orderedBy "a:explicit:b" "c") ∧
      (orderedBy "a" "b:explicit:c").tenantId ≠ (orderedBy "a:explicit:b" "c").tenantId := by
  decide +kernel

end KafkaEdgeRouter.Kafka
