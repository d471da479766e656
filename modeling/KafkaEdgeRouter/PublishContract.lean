import KafkaEdgeRouter.PublishEndpoints

/-!
# One contract for both publish transports

A publish request over HTTP that carries its payload as base64 and the gRPC request that carries the
same bytes are treated alike: either both commands reach the publisher and are equal, or both
requests fail with the same kind of error. The transports differ in how an absent tenant is written,
in the check of the encoded length that only HTTP makes, and in where a blank content type is found.
None of these matters. What matters is a configured identity header whose name ends in `-bin`: gRPC
does not find it, so the transports disagree on every request that HTTP authenticates by it.
-/

namespace KafkaEdgeRouter.Api

/-- The same value, or errors of one kind. -/
inductive Agree {α : Type} : Except ApiError α → Except ApiError α → Prop
  | ok (a : α) : Agree (.ok a) (.ok a)
  | error {e e' : ApiError} (h : e.code = e'.code) : Agree (.error e) (.error e')

section Agreement

variable {α : Type} {x y : Except ApiError α}

theorem Agree.refl (x : Except ApiError α) : Agree x x := by
  cases x with
  | error e => exact .error rfl
  | ok a => exact .ok a

theorem Agree.symm (h : Agree x y) : Agree y x := by
  cases h with
  | ok a => exact .ok a
  | error h => exact .error h.symm

theorem Agree.ok_iff (h : Agree x y) (a : α) : x = .ok a ↔ y = .ok a := by
  cases h with
  | ok a => rfl
  | error _ => simp

theorem Agree.error_right (h : Agree x y) (e : ApiError) (he : x = .error e) :
    ∃ e', y = .error e' ∧ e'.code = e.code := by
  cases h with
  | ok a => cases he
  | error hcode =>
    cases he
    exact ⟨_, rfl, hcode.symm⟩

end Agreement

/-! ### Requests that are not authenticated -/

section Unauthorized

variable {α β : Type}

theorem code_eq_unauthorized {e : ApiError} (h : e.code = ApiError.unauthorized.code) :
    e = .unauthorized := by
  cases e with
  | unauthorized => rfl
  | _ => simp [ApiError.code] at h

theorem orUnauthorized_some_bind (a : α) (f : α → Except ApiError β) :
    (orUnauthorized (some a) >>= f) = f a := rfl

theorem bind_ne_unauthorized {x : Except ApiError α} {f : α → Except ApiError β}
    (hx : x ≠ .error .unauthorized) (hf : ∀ a, f a ≠ .error .unauthorized) :
    x >>= f ≠ .error .unauthorized := by
  cases x with
  | error e => exact fun h => hx (congrArg Except.error (Except.error.inj h))
  | ok a => exact hf a

theorem mapError_ne_unauthorized {ε : Type} (x : Except ε α) {f : ε → ApiError}
    (hf : ∀ e, f e ≠ .unauthorized) : x.mapError f ≠ .error .unauthorized := by
  cases x with
  | error e => exact fun h => hf e (Except.error.inj h)
  | ok a => exact fun h => nomatch h

theorem principalWithPermissions_ne_unauthorized (tenant : String) (subscribe publish : Bool) :
    principalWithPermissions tenant subscribe publish ≠ .error .unauthorized := by
  unfold principalWithPermissions
  dsimp only
  split_ifs <;> simp

theorem trustedTenant_ne_unauthorized (auth : Authenticator) (tenant : String) :
    auth.trustedTenant tenant ≠ .error .unauthorized := by
  rw [Authenticator.trustedTenant]
  apply principalWithPermissions_ne_unauthorized

theorem proxyIdentity_ne_unauthorized {auth : Authenticator} {identity : String}
    {mapping : ProxyIdentity}
    (h : auth.config.proxyIdentities.lookup identity = some mapping) :
    auth.proxyIdentity identity ≠ .error .unauthorized := by
  rw [Authenticator.proxyIdentity, h]
  apply bind_ne_unauthorized
  · simp [orUnauthorized]
  · intro mapping
    apply principalWithPermissions_ne_unauthorized

theorem authorizeTenant_ne_unauthorized (principal : Principal) (requested : Option String) :
    authorizeTenant principal requested ≠ .error .unauthorized := by
  unfold authorizeTenant
  split
  · simp
  · split_ifs <;> simp

theorem authorizePublish_ne_unauthorized (principal : Principal) :
    Authenticator.authorizePublish principal ≠ .error .unauthorized := by
  unfold Authenticator.authorizePublish
  split_ifs <;> simp

theorem validateJsonContentType_ne_unauthorized (parseMime : MimeParser) (contentType : String) :
    validateJsonContentType parseMime contentType ≠ .error .unauthorized := by
  unfold validateJsonContentType
  split
  · simp
  · split_ifs <;> simp

theorem httpPublishPayload_ne_unauthorized (parseMime : MimeParser) (payload : JsonPayload)
    (payloadBase64 contentType : Option String) (maximum : ℕ) :
    httpPublishPayload parseMime payload payloadBase64 contentType maximum ≠
      .error .unauthorized := by
  unfold httpPublishPayload
  split
  · dsimp only
    apply bind_ne_unauthorized
    · apply validateJsonContentType_ne_unauthorized
    · intro _
      apply bind_ne_unauthorized
      · exact mapError_ne_unauthorized _ (by simp)
      · exact fun _ h => nomatch h
  · split
    · simp
    · split_ifs
      · simp
      · split <;> simp
  · simp
  · simp

theorem validateCommand_ne_unauthorized (parseMime : MimeParser) (command : PublishCommand)
    (maximum : ℕ) : validateCommand parseMime command maximum ≠ .error .unauthorized := by
  unfold validateCommand
  split_ifs
  · simp
  · exact bind_ne_unauthorized (mapError_ne_unauthorized _ (by simp)) fun _ h => nomatch h

theorem handOver_ne_unauthorized (state : ApiState) (command : PublishCommand) :
    state.handOver command ≠ .error .unauthorized := by
  unfold ApiState.handOver
  split <;> simp

theorem httpCommand_ne_unauthorized (state : ApiState) (moment : Moment)
    (request : HttpPublishRequest) (principal : Principal) :
    state.httpCommand moment request principal ≠ .error .unauthorized :=
  bind_ne_unauthorized (httpPublishPayload_ne_unauthorized _ _ _ _ _) fun _ =>
    bind_ne_unauthorized (validateCommand_ne_unauthorized _ _ _) fun _ =>
      handOver_ne_unauthorized _ _

/-- Only authentication answers that authentication is required. -/
theorem authenticateHttp_of_unauthorized {state : ApiState} {moment : Moment}
    {headers : Credentials} {request : HttpPublishRequest} {limiter : RateState}
    (h : (state.publishHttp moment headers (some request) limiter).1 = .error .unauthorized) :
    state.authenticator.authenticateHttp state.library moment.now headers request.tenantId =
      .error .unauthorized := by
  simp only [ApiState.publishHttp, ApiState.publishHttpInner, ApiState.limited] at h
  cases haccess : state.admitHttp moment headers request.tenantId with
  | error e =>
    rw [haccess] at h
    obtain rfl := Except.error.inj h
    cases hauthenticated : state.authenticator.authenticateHttp state.library moment.now headers
        request.tenantId with
    | error e =>
      rw [ApiState.admitHttp, hauthenticated] at haccess
      exact congrArg Except.error (Except.error.inj haccess)
    | ok principal =>
      rw [ApiState.admitHttp, hauthenticated] at haccess
      have hadmitted : (do
          ApiState.authorizeRequestedTenant principal request.tenantId
          Authenticator.authorizePublish principal
          return principal) ≠ .error .unauthorized :=
        bind_ne_unauthorized (authorizeTenant_ne_unauthorized _ _) fun _ =>
          bind_ne_unauthorized (authorizePublish_ne_unauthorized _) fun _ h => nomatch h
      exact absurd haccess hadmitted
  | ok principal =>
    rw [haccess] at h
    dsimp only at h
    split_ifs at h
    · exact absurd h (httpCommand_ne_unauthorized _ _ _ _)
    · cases h

theorem publishInner_of_unauthorized {state : ApiState} {moment : Moment}
    {metadata : Credentials} {request : GrpcPublishRequest} (limiter : RateState)
    (h : state.authenticator.authenticateGrpc state.library moment.now metadata
      (if request.tenantId.isEmpty then none else some request.tenantId) =
        .error .unauthorized) :
    (state.publishInner moment metadata request limiter).1 = .error .unauthorized := by
  simp only [ApiState.publishInner, ApiState.limited, ApiState.admitGrpc, h]
  rfl

end Unauthorized

/-! ### Admission -/

theorem filter_requested (tenant : Option String) :
    (if (tenant.getD "").isEmpty then none else some (tenant.getD "")) =
      tenant.filter (fun tenant => !tenant.isEmpty) := by
  cases tenant with
  | none => rfl
  | some tenant => cases h : tenant.isEmpty <;> simp [Option.filter, h]

theorem disabledPrincipal_filter (auth : Authenticator) (tenant : Option String) :
    auth.disabledPrincipal (tenant.filter (fun tenant => !tenant.isEmpty)) =
      auth.disabledPrincipal tenant := by
  have hblank : (tenant.filter (fun tenant => !tenant.isEmpty)).filter
      (fun tenant => !(trim tenant).isEmpty) =
        tenant.filter (fun tenant => !(trim tenant).isEmpty) := by
    rcases tenant with _ | tenant
    · rfl
    · rcases h : tenant.isEmpty with _ | _
      · simp [Option.filter, h]
      · rw [String.isEmpty_iff.mp h]
        decide
  rw [Authenticator.disabledPrincipal, Authenticator.disabledPrincipal, hblank]

/-- Where the mode reads a header that gRPC does not find, the credentials have none that HTTP
would take for an identity. -/
structure ReadsAlike (config : AuthConfig) (credentials : Credentials) : Prop where
  trusted : config.mode = .trustedHeader → isBinaryKey config.tenantHeader = true →
    credentials config.tenantHeader = none
  proxy : config.mode = .proxyMtls → isBinaryKey config.proxyIdentityHeader = true →
    ∀ identity, credentials config.proxyIdentityHeader = some identity →
      config.proxyIdentities.lookup identity = none

theorem grpcMetadata_text (credentials : Credentials) {name : String}
    (h : isBinaryKey name ≠ true) :
    grpcMetadata credentials name = httpHeader credentials name := by
  rw [grpcMetadata, if_neg h, httpHeader]

theorem grpcMetadata_binary (credentials : Credentials) {name : String}
    (h : isBinaryKey name = true) : grpcMetadata credentials name = .error .unauthorized := by
  rw [grpcMetadata, if_pos h, orUnauthorized]

section Reading

variable (auth : Authenticator) (library : TokenLibrary) (now : ℕ) (credentials : Credentials)

theorem trustedTenant_eq (h : isBinaryKey auth.config.tenantHeader = true →
      credentials auth.config.tenantHeader = none) :
    (do auth.trustedTenant (← grpcMetadata credentials auth.config.tenantHeader)) =
      (do auth.trustedTenant (← httpHeader credentials auth.config.tenantHeader)) := by
  by_cases hbinary : isBinaryKey auth.config.tenantHeader = true
  · rw [grpcMetadata_binary credentials hbinary, httpHeader, h hbinary, orUnauthorized]
  · rw [grpcMetadata_text credentials hbinary]

theorem proxyIdentity_eq (h : isBinaryKey auth.config.proxyIdentityHeader = true →
      ∀ identity, credentials auth.config.proxyIdentityHeader = some identity →
        auth.config.proxyIdentities.lookup identity = none) :
    (do auth.proxyIdentity (← grpcMetadata credentials auth.config.proxyIdentityHeader)) =
      (do auth.proxyIdentity (← httpHeader credentials auth.config.proxyIdentityHeader)) := by
  by_cases hbinary : isBinaryKey auth.config.proxyIdentityHeader = true
  · rw [grpcMetadata_binary credentials hbinary, httpHeader]
    cases hidentity : credentials auth.config.proxyIdentityHeader with
    | none => rfl
    | some identity =>
      have hunmapped := h hbinary identity hidentity
      rw [orUnauthorized_some_bind, Authenticator.proxyIdentity, hunmapped]
      rfl
  · rw [grpcMetadata_text credentials hbinary]

theorem authenticateGrpc_eq (halike : ReadsAlike auth.config credentials)
    (tenant : Option String) :
    auth.authenticateGrpc library now credentials (tenant.filter (fun tenant => !tenant.isEmpty)) =
      auth.authenticateHttp library now credentials tenant := by
  unfold Authenticator.authenticateGrpc Authenticator.authenticateHttp
  cases hmode : auth.config.mode with
  | disabled => exact disabledPrincipal_filter auth tenant
  | staticBearer => rfl
  | trustedHeader => exact trustedTenant_eq auth credentials (halike.trusted hmode)
  | jwt => rfl
  | proxyMtls => exact proxyIdentity_eq auth credentials (halike.proxy hmode)

/-- If HTTP answers as gRPC does that authentication is required, the headers are read alike. -/
theorem readsAlike_of_unauthorized (tenant tenant' : Option String)
    (h : auth.authenticateGrpc library now credentials tenant = .error .unauthorized →
      auth.authenticateHttp library now credentials tenant' = .error .unauthorized) :
    ReadsAlike auth.config credentials := by
  unfold Authenticator.authenticateGrpc Authenticator.authenticateHttp at h
  refine ⟨fun hmode hbinary => ?_, fun hmode hbinary identity hidentity => ?_⟩
  · simp only [hmode, grpcMetadata_binary credentials hbinary, httpHeader] at h
    cases htenant : credentials auth.config.tenantHeader with
    | none => rfl
    | some tenant =>
      rw [htenant, orUnauthorized_some_bind] at h
      exact absurd (h rfl) (trustedTenant_ne_unauthorized auth tenant)
  · simp only [hmode, grpcMetadata_binary credentials hbinary, httpHeader, hidentity,
      orUnauthorized_some_bind] at h
    cases hmapping : auth.config.proxyIdentities.lookup identity with
    | none => rfl
    | some mapping =>
      exact absurd (h rfl) (proxyIdentity_ne_unauthorized hmapping)

end Reading

theorem authorizeTenant_getD (principal : Principal) (tenant : Option String) :
    authorizeTenant principal (some (tenant.getD "")) = authorizeTenant principal tenant := by
  cases tenant with
  | none => rfl
  | some tenant => rfl

theorem admitGrpc_eq_admitHttp (state : ApiState) (moment : Moment) {credentials : Credentials}
    (halike : ReadsAlike state.authenticator.config credentials) (tenant : Option String) :
    state.admitGrpc moment credentials (tenant.getD "") =
      state.admitHttp moment credentials tenant := by
  simp only [ApiState.admitGrpc, ApiState.admitHttp, filter_requested,
    authenticateGrpc_eq _ _ _ _ halike, authorizeTenant_getD, ApiState.authorizeRequestedTenant]

/-! ### The payload -/

/-- The text of so many bytes passes the check of the encoded length exactly when the bytes need no
more groups of three than the limit does. -/
theorem le_maximumEncoded_iff {length maximum : ℕ} (hlength : (length + 2) / 3 * 4 ≤ usizeMax) :
    (length + 2) / 3 * 4 ≤ maximumEncoded maximum ↔ (length + 2) / 3 ≤ (maximum + 2) / 3 := by
  unfold maximumEncoded saturatingMul saturatingAdd
  rcases Nat.le_total (maximum + 2) usizeMax with hsmall | hlarge
  · rw [Nat.min_eq_left hsmall]
    omega
  · rw [Nat.min_eq_right hlarge]
    unfold usizeMax at *
    omega

theorem encoded_le_maximum {payload : List UInt8} {maximum : ℕ}
    (hlength : (String.ofList (Base64.encode payload)).utf8ByteSize ≤ usizeMax)
    (h : payload.length ≤ maximum) :
    (String.ofList (Base64.encode payload)).utf8ByteSize ≤ maximumEncoded maximum := by
  rw [Base64.utf8ByteSize_encode] at hlength ⊢
  rw [le_maximumEncoded_iff hlength]
  omega

theorem validateCommand_large {parseMime : MimeParser} {command : PublishCommand} {maximum : ℕ}
    (h : maximum < command.payload.length) :
    validateCommand parseMime command maximum =
      .error (.badRequest s!"payload exceeds maximum size of {maximum} bytes") :=
  if_pos h

/-- A blank content type does not pass validation, whatever else is wrong. -/
theorem validateCommand_blank (parseMime : MimeParser) {command : PublishCommand} (maximum : ℕ)
    (h : (trim command.contentType).isEmpty = true) :
    ∃ text, validateCommand parseMime command maximum = .error (.badRequest text) := by
  unfold validateCommand
  split
  · exact ⟨_, rfl⟩
  · cases hvalid : command.validate parseMime with
    | error e => exact ⟨e.message, rfl⟩
    | ok _ =>
      have hmetadata := (RoutingMetadata.validate_eq_ok.mp
        (mapError_eq_ok.mp (check_eq_ok.mp hvalid).1)).2.2.1
      obtain ⟨c, hc, hvisible⟩ := hmetadata.visible
      have hblank := trim_eq_nil.mp (List.isEmpty_iff.mp h) c hc
      rw [hvisible] at hblank
      cases hblank

/-- The fields that both kinds of requests have. -/
structure PublishFields where
  messageId : String
  tenantId : Option String
  kind : Option String
  messageType : Option String
  channel : Option String
  actorId : Option String
  recipientType : Option String
  recipientIdentity : Option String
  orderingKey : Option String
  contentType : String

namespace PublishFields

def http (fields : PublishFields) (payload : List UInt8) : HttpPublishRequest where
  messageId := some fields.messageId
  tenantId := fields.tenantId
  kind := fields.kind
  messageType := fields.messageType
  channel := fields.channel
  actorId := fields.actorId
  recipientType := fields.recipientType
  recipientIdentity := fields.recipientIdentity
  orderingKey := fields.orderingKey
  contentType := some fields.contentType
  payload := .missing
  payloadBase64 := some (String.ofList (Base64.encode payload))

/-- An absent tenant is the empty text. -/
def grpc (fields : PublishFields) (payload : List UInt8) : GrpcPublishRequest where
  messageId := some fields.messageId
  tenantId := fields.tenantId.getD ""
  kind := fields.kind
  messageType := fields.messageType
  channel := fields.channel
  actorId := fields.actorId
  recipientType := fields.recipientType
  recipientIdentity := fields.recipientIdentity
  orderingKey := fields.orderingKey
  contentType := fields.contentType
  payload := payload

def command (fields : PublishFields) (payload : List UInt8) (principal : Principal) :
    PublishCommand where
  messageId := fields.messageId
  tenantId := principal.tenantId
  kind := fields.kind
  messageType := fields.messageType
  channel := fields.channel
  actorId := fields.actorId
  recipientType := fields.recipientType
  recipientIdentity := fields.recipientIdentity
  orderingKey := fields.orderingKey
  contentType := fields.contentType
  payload := payload

end PublishFields

section Contract

variable (state : ApiState) (fields : PublishFields) (payload : List UInt8) (moment : Moment)

theorem grpcCommand_eq (hcontent : fields.contentType ≠ "") (principal : Principal) :
    state.grpcCommand moment (fields.grpc payload) principal =
      validateCommand state.parseMime (fields.command payload principal)
        state.config.publishMaxPayloadBytes >>= state.handOver := by
  have hempty : fields.contentType.isEmpty = false := by
    simpa [String.isEmpty_iff] using hcontent
  simp only [ApiState.grpcCommand, PublishFields.grpc, hempty]
  rfl

theorem httpPublishPayload_blank (hblank : (trim fields.contentType).isEmpty = true)
    (parseMime : MimeParser) (maximum : ℕ) (encoded : String) :
    httpPublishPayload parseMime .missing (some encoded) (some fields.contentType) maximum =
      .error (.badRequest "content_type is required with payload_base64") := by
  simp [httpPublishPayload, Option.filter, hblank]

theorem httpPublishPayload_visible (hvisible : (trim fields.contentType).isEmpty = false)
    (parseMime : MimeParser) (maximum : ℕ) :
    httpPublishPayload parseMime .missing (some (String.ofList (Base64.encode payload)))
        (some fields.contentType) maximum =
      if (String.ofList (Base64.encode payload)).utf8ByteSize > maximumEncoded maximum then
        .error (.badRequest s!"payload exceeds maximum size of {maximum} bytes")
      else .ok (payload, fields.contentType) := by
  simp [httpPublishPayload, Option.filter, hvisible, Base64.decode_encode]

theorem agree_commands (uuid : String) (hcontent : fields.contentType ≠ "")
    (hlength : (String.ofList (Base64.encode payload)).utf8ByteSize ≤ usizeMax)
    (principal : Principal) :
    Agree (state.httpCommand moment (fields.http payload) principal)
      (state.grpcCommand { moment with uuid } (fields.grpc payload) principal) := by
  rw [grpcCommand_eq state fields payload _ hcontent]
  simp only [ApiState.httpCommand, PublishFields.http]
  rcases hblank : (trim fields.contentType).isEmpty with _ | _
  · rw [httpPublishPayload_visible fields payload hblank]
    split
    · rename_i hencoded
      have hlarge : state.config.publishMaxPayloadBytes < payload.length := by
        by_contra hfits
        have := encoded_le_maximum hlength (Nat.not_lt.mp hfits)
        omega
      rw [validateCommand_large (show _ < (fields.command payload principal).payload.length
        from hlarge)]
      exact .error rfl
    · exact Agree.refl _
  · rw [httpPublishPayload_blank fields hblank]
    have hblank' : (trim (fields.command payload principal).contentType).isEmpty = true := hblank
    obtain ⟨text, hgrpc⟩ := validateCommand_blank state.parseMime
      state.config.publishMaxPayloadBytes hblank'
    rw [hgrpc]
    exact .error rfl

theorem agree_publish {credentials : Credentials} (limiter : RateState) (uuid : String)
    (hcontent : fields.contentType ≠ "")
    (hlength : (String.ofList (Base64.encode payload)).utf8ByteSize ≤ usizeMax)
    (halike : ReadsAlike state.authenticator.config credentials) :
    let http := state.publishHttp moment credentials (some (fields.http payload)) limiter
    let grpc := state.publishInner { moment with uuid } credentials (fields.grpc payload) limiter
    Agree http.1 grpc.1 ∧ http.2 = grpc.2 := by
  have haccess : state.admitGrpc { moment with uuid } credentials (fields.tenantId.getD "") =
      state.admitHttp moment credentials fields.tenantId :=
    admitGrpc_eq_admitHttp state moment halike fields.tenantId
  simp only [ApiState.publishHttp, ApiState.publishHttpInner, ApiState.publishInner,
    PublishFields.http, PublishFields.grpc, haccess, ApiState.limited]
  cases state.admitHttp moment credentials fields.tenantId with
  | error e => exact ⟨.error rfl, rfl⟩
  | ok principal =>
    simp only
    split
    · exact ⟨agree_commands state fields payload moment uuid hcontent hlength principal, rfl⟩
    · exact ⟨.error rfl, rfl⟩

/-- A publish request over HTTP with a base64 payload and one over gRPC with the same fields and raw
bytes, made by the same credentials in the same state: the one reaches the publisher if and only if
the other does, with the same command, and otherwise both fail with the same kind of error, exactly
if the credentials have no identity under a name that gRPC does not find. Then the limiter is left
in the same state, too. The length of the encoded text is a machine word. -/
theorem publish_one_contract_iff (credentials : Credentials) (limiter : RateState) (uuid : String)
    (hcontent : fields.contentType ≠ "")
    (hlength : (String.ofList (Base64.encode payload)).utf8ByteSize ≤ usizeMax) :
    let http := state.publishHttp moment credentials (some (fields.http payload)) limiter
    let grpc := state.publishInner { moment with uuid } credentials (fields.grpc payload) limiter
    ((∀ handed, http.1 = .ok handed ↔ grpc.1 = .ok handed) ∧
        (∀ e, http.1 = .error e → ∃ e', grpc.1 = .error e' ∧ e'.code = e.code) ∧
        (∀ e, grpc.1 = .error e → ∃ e', http.1 = .error e' ∧ e'.code = e.code) ↔
      ReadsAlike state.authenticator.config credentials) ∧
    (ReadsAlike state.authenticator.config credentials → http.2 = grpc.2) := by
  intro http grpc
  have hagree (halike : ReadsAlike state.authenticator.config credentials) :
      Agree http.1 grpc.1 ∧ http.2 = grpc.2 :=
    agree_publish state fields payload moment limiter uuid hcontent hlength halike
  refine ⟨⟨?_, fun halike => ?_⟩, fun halike => (hagree halike).2⟩
  · rintro ⟨_, _, herror⟩
    refine readsAlike_of_unauthorized state.authenticator state.library moment.now credentials
      (if (fields.tenantId.getD "").isEmpty then none else some (fields.tenantId.getD ""))
      fields.tenantId fun hrefused => ?_
    obtain ⟨e, he, hcode⟩ := herror .unauthorized (publishInner_of_unauthorized limiter hrefused)
    rw [code_eq_unauthorized hcode] at he
    exact authenticateHttp_of_unauthorized he
  · have hresult := (hagree halike).1
    exact ⟨hresult.ok_iff, hresult.error_right, hresult.symm.error_right⟩

end Contract

def acmeApi : ApiState where
  authenticator := ⟨{ mode := .trustedHeader, publishTenants := ["acme"] }, []⟩
  publisher := some ⟨"events"⟩
  config := {}
  library := ⟨fun _ => none, fun _ => [], fun _ _ _ _ => false⟩
  parseMime := applicationJson

def acmeFields : PublishFields where
  messageId := "m-1"
  tenantId := some "acme"
  kind := some "order"
  messageType := none
  channel := none
  actorId := none
  recipientType := none
  recipientIdentity := none
  orderingKey := none
  contentType := "application/json"

def acmeCredentials : Credentials := fun name => if name = "x-tenant-id" then some "acme" else none

theorem publish_one_contract_iff_acme :
    ∃ handed, (acmeApi.publishHttp ⟨0, ⟨0, 0, 0⟩, "u-1"⟩ acmeCredentials
        (some (acmeFields.http [123, 125])) ⟨0, 0, 0, ∅⟩).1 = .ok handed ∧
      (acmeApi.publishInner ⟨0, ⟨0, 0, 0⟩, "u-2"⟩ acmeCredentials (acmeFields.grpc [123, 125])
        ⟨0, 0, 0, ∅⟩).1 = .ok handed := by
  have hlength : (String.ofList (Base64.encode [123, 125])).utf8ByteSize ≤ usizeMax := by
    rw [Base64.utf8ByteSize_encode]
    decide
  have halike : ReadsAlike acmeApi.authenticator.config acmeCredentials :=
    ⟨fun _ hbinary => absurd hbinary (by decide), fun hmode => absurd hmode (by decide)⟩
  have hcontract := (publish_one_contract_iff acmeApi acmeFields [123, 125] ⟨0, ⟨0, 0, 0⟩, "u-1"⟩
    acmeCredentials ⟨0, 0, 0, ∅⟩ "u-2" (by decide) hlength).1.mpr halike
  have hreached : (acmeApi.publishHttp ⟨0, ⟨0, 0, 0⟩, "u-1"⟩ acmeCredentials
      (some (acmeFields.http [123, 125])) ⟨0, 0, 0, ∅⟩).1.toBool = true := by decide +kernel
  cases hhttp : (acmeApi.publishHttp ⟨0, ⟨0, 0, 0⟩, "u-1"⟩ acmeCredentials
      (some (acmeFields.http [123, 125])) ⟨0, 0, 0, ∅⟩).1 with
  | error e =>
    rw [hhttp] at hreached
    cases hreached
  | ok handed => exact ⟨handed, rfl, (hcontract.1 handed).mp hhttp⟩

/-- The same service, but with a name for the header that ends in `-bin`. -/
def binaryHeaderApi : ApiState :=
  { acmeApi with
    authenticator := ⟨{ acmeApi.authenticator.config with tenantHeader := "x-tenant-bin" }, []⟩ }

/-- The tenant may publish over HTTP and is not known over gRPC. -/
theorem binary_header_unknown_to_grpc :
    let credentials : Credentials := fun name =>
      if name = "x-tenant-bin" then some "acme" else none
    (binaryHeaderApi.publishHttp ⟨0, ⟨0, 0, 0⟩, "u-1"⟩ credentials
        (some (acmeFields.http [123, 125])) ⟨0, 0, 0, ∅⟩).1.toBool = true ∧
      (binaryHeaderApi.publishInner ⟨0, ⟨0, 0, 0⟩, "u-2"⟩ credentials (acmeFields.grpc [123, 125])
        ⟨0, 0, 0, ∅⟩).1 = .error .unauthorized :=
  ⟨by decide +kernel, rfl⟩

/-! ### The size of base64 text -/

/-- The first check of `validateCommand`, on the payload alone. -/
def checkSize (payload : List UInt8) (maximumPayloadBytes : ℕ) : Except ApiError Unit :=
  if payload.length > maximumPayloadBytes then
    .error (.badRequest s!"payload exceeds maximum size of {maximumPayloadBytes} bytes")
  else .ok ()

theorem validateCommand_eq (parseMime : MimeParser) (command : PublishCommand) (maximum : ℕ) :
    validateCommand parseMime command maximum = do
      checkSize command.payload maximum
      (command.validate parseMime).mapError fun e => .badRequest e.message
      return command := by
  unfold validateCommand checkSize
  split <;> rfl

theorem checkSize_eq_ok {payload : List UInt8} {maximum : ℕ} :
    checkSize payload maximum = .ok () ↔ payload.length ≤ maximum := by
  unfold checkSize
  split
  · simp only [reduceCtorEq, false_iff]
    omega
  · simp only [true_iff]
    omega

theorem httpPublishPayload_base64 (parseMime : MimeParser) {contentType : Option String}
    {visible : String}
    (hcontent : (contentType.filter fun value => !(trim value).isEmpty) = some visible)
    (encoded : String) (maximum : ℕ) (payload : List UInt8) (type : String) :
    httpPublishPayload parseMime .missing (some encoded) contentType maximum =
        .ok (payload, type) ↔
      encoded.utf8ByteSize ≤ maximumEncoded maximum ∧
        Base64.decode encoded.toList = some payload ∧ type = visible := by
  unfold httpPublishPayload
  simp only [hcontent]
  by_cases hlong : encoded.utf8ByteSize > maximumEncoded maximum
  · rw [if_pos hlong]
    simp [Nat.not_le_of_gt hlong]
  · rw [if_neg hlong]
    cases hdecode : Base64.decode encoded.toList with
    | none => simp
    | some decoded =>
      simp [Nat.le_of_not_gt hlong, eq_comm]

/-- For text that is as long as text can be, the check of the encoded length, the decoder and the
check of the size together accept the text exactly when it decodes to a payload within the limit.
The first check refuses no such text, and what it lets through decodes to at most two bytes more.
The check of the size is the one that a command has to pass first. -/
theorem base64_size_accepted_iff (parseMime : MimeParser) {contentType : Option String}
    {visible : String}
    (hcontent : (contentType.filter fun value => !(trim value).isEmpty) = some visible)
    (maximum : ℕ) (encoded : String) (hlength : encoded.utf8ByteSize ≤ usizeMax) :
    ((∃ payload, httpPublishPayload parseMime .missing (some encoded) contentType maximum =
        .ok (payload, visible) ∧ checkSize payload maximum = .ok ()) ↔
      ∃ payload, Base64.decode encoded.toList = some payload ∧ payload.length ≤ maximum) ∧
    (∀ payload, Base64.decode encoded.toList = some payload → payload.length ≤ maximum →
      encoded.utf8ByteSize ≤ maximumEncoded maximum) ∧
    (∀ payload type, httpPublishPayload parseMime .missing (some encoded) contentType maximum =
      .ok (payload, type) → payload.length ≤ maximum + 2) ∧
    (∀ command, validateCommand parseMime command maximum = do
      checkSize command.payload maximum
      (command.validate parseMime).mapError fun e => .badRequest e.message
      return command) := by
  have hsize : ∀ payload, Base64.decode encoded.toList = some payload →
      (encoded.utf8ByteSize ≤ maximumEncoded maximum ↔
        (payload.length + 2) / 3 ≤ (maximum + 2) / 3) := by
    intro payload hdecode
    have hbytes := Base64.utf8ByteSize_of_decode hdecode
    rw [String.ofList_toList] at hbytes
    rw [hbytes] at hlength ⊢
    exact le_maximumEncoded_iff hlength
  have hcomplete : ∀ payload, Base64.decode encoded.toList = some payload →
      payload.length ≤ maximum → encoded.utf8ByteSize ≤ maximumEncoded maximum := by
    intro payload hdecode hle
    rw [hsize payload hdecode]
    omega
  refine ⟨⟨?_, ?_⟩, hcomplete, ?_, fun command => validateCommand_eq parseMime command maximum⟩
  · rintro ⟨payload, hpayload, hchecked⟩
    have hdecode := ((httpPublishPayload_base64 parseMime hcontent _ _ _ _).mp hpayload).2.1
    exact ⟨payload, hdecode, checkSize_eq_ok.mp hchecked⟩
  · rintro ⟨payload, hdecode, hle⟩
    refine ⟨payload, ?_, checkSize_eq_ok.mpr hle⟩
    rw [httpPublishPayload_base64 parseMime hcontent]
    exact ⟨hcomplete payload hdecode hle, hdecode, rfl⟩
  · intro payload type hpayload
    obtain ⟨hpassed, hdecode, _⟩ :=
      (httpPublishPayload_base64 parseMime hcontent _ _ _ _).mp hpayload
    have hgroups := (hsize payload hdecode).mp hpassed
    omega

/-- Four symbols against a limit of one byte: the first check lets three bytes through. -/
theorem base64_size_accepted_iff_abc :
    httpPublishPayload applicationJson .missing (some "YWJj") (some "text/plain") 1 =
        .ok ([97, 98, 99], "text/plain") ∧
      ([97, 98, 99] : List UInt8).length ≤ 1 + 2 := by
  have hpayload : httpPublishPayload applicationJson .missing (some "YWJj") (some "text/plain") 1 =
      .ok ([97, 98, 99], "text/plain") := by decide +kernel
  exact ⟨hpayload, (base64_size_accepted_iff applicationJson rfl 1 "YWJj" (by decide)).2.2.1 _ _
    hpayload⟩

end KafkaEdgeRouter.Api
