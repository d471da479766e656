import KafkaEdgeRouter.PublishContract
import KafkaEdgeRouter.StreamRequests

/-!
# The tenant of the credentials

Unless authentication is disabled, the credentials alone say on whose behalf a request is made: not
the tenant that the request names, nor its filter, nor the moment at which a token is checked. A
request may name this tenant or none, and nothing is published or subscribed without permission.
-/

namespace KafkaEdgeRouter.Api

/-- The principal that the credentials name, whatever else the request says. A token is taken at its
word; whether it is valid is another question. -/
def Authenticator.identity (auth : Authenticator) (library : TokenLibrary)
    (credentials : Credentials) : Except ApiError Principal :=
  match auth.config.mode with
  | .disabled => .error .unauthorized
  | .staticBearer => do auth.staticToken (← httpAuthorization credentials)
  | .trustedHeader => do auth.trustedTenant (← httpHeader credentials auth.config.tenantHeader)
  | .jwt => do
    let token ← parseBearer (← httpAuthorization credentials)
    auth.claimedPrincipal (library.claims token)
  | .proxyMtls => do auth.proxyIdentity (← httpHeader credentials auth.config.proxyIdentityHeader)

section Identity

variable {auth : Authenticator} {library : TokenLibrary} {now : ℕ} {credentials : Credentials}
  {requested : Option String} {principal : Principal}

theorem orUnauthorized_eq_ok {α : Type} {value : Option α} {a : α}
    (h : orUnauthorized value = .ok a) : value = some a := by
  cases value with
  | none => cases h
  | some a' => rw [Except.ok.inj h]

theorem decode_eq_some {token key : String} {validation : Validation}
    {claims : List (String × ClaimValue)}
    (h : library.decode now token key validation = some claims) :
    claims = library.claims token := by
  unfold TokenLibrary.decode at h
  split_ifs at h
  exact (Option.some.inj h).symm

/-- A token that is accepted stands for what its claims say. -/
theorem jwtPrincipal_eq_ok {value : String}
    (h : auth.jwtPrincipal library now value = .ok principal) :
    (do auth.claimedPrincipal (library.claims (← parseBearer value))) = .ok principal := by
  obtain ⟨token, htoken, h⟩ := bind_eq_ok.mp h
  obtain ⟨header, _, h⟩ := bind_eq_ok.mp h
  obtain ⟨kid, _, h⟩ := bind_eq_ok.mp h
  obtain ⟨allowed, _, h⟩ := bind_eq_ok.mp h
  split_ifs at h with halg
  · obtain ⟨key, _, h⟩ := bind_eq_ok.mp h
    obtain ⟨claims, hclaims, h⟩ := bind_eq_ok.mp h
    rw [decode_eq_some (orUnauthorized_eq_ok hclaims)] at h
    exact bind_eq_ok.mpr ⟨token, htoken, h⟩
  · cases h

theorem httpHeader_of_grpcMetadata {name value : String}
    (h : grpcMetadata credentials name = .ok value) : httpHeader credentials name = .ok value := by
  unfold grpcMetadata at h
  split_ifs at h with hbinary
  · cases h
  · exact h

theorem authenticateHttp_identity (hmode : auth.config.mode ≠ .disabled)
    (h : auth.authenticateHttp library now credentials requested = .ok principal) :
    auth.identity library credentials = .ok principal := by
  unfold Authenticator.authenticateHttp at h
  unfold Authenticator.identity
  cases hm : auth.config.mode with
  | disabled => exact absurd hm hmode
  | staticBearer => rwa [hm] at h
  | trustedHeader => rwa [hm] at h
  | proxyMtls => rwa [hm] at h
  | jwt =>
    rw [hm] at h
    obtain ⟨value, hvalue, h⟩ := bind_eq_ok.mp h
    exact bind_eq_ok.mpr ⟨value, hvalue, jwtPrincipal_eq_ok h⟩

theorem authenticateGrpc_identity (hmode : auth.config.mode ≠ .disabled)
    (h : auth.authenticateGrpc library now credentials requested = .ok principal) :
    auth.identity library credentials = .ok principal := by
  have hhttp : auth.authenticateHttp library now credentials requested = .ok principal := by
    unfold Authenticator.authenticateGrpc at h
    unfold Authenticator.authenticateHttp
    cases hm : auth.config.mode with
    | disabled => exact absurd hm hmode
    | staticBearer => rwa [hm] at h
    | jwt => rwa [hm] at h
    | trustedHeader | proxyMtls =>
      rw [hm] at h
      obtain ⟨value, hvalue, h⟩ := bind_eq_ok.mp h
      exact bind_eq_ok.mpr ⟨value, httpHeader_of_grpcMetadata hvalue, h⟩
  exact authenticateHttp_identity hmode hhttp

theorem authenticateHttp_cases (hmode : auth.config.mode ≠ .disabled)
    (hidentity : auth.identity library credentials = .ok principal) (now : ℕ)
    (requested : Option String) :
    (∃ e, auth.authenticateHttp library now credentials requested = .error e) ∨
      auth.authenticateHttp library now credentials requested = .ok principal := by
  cases hauthenticated : auth.authenticateHttp library now credentials requested with
  | error e => exact Or.inl ⟨e, rfl⟩
  | ok principal' =>
    have hidentity' := authenticateHttp_identity hmode hauthenticated
    exact Or.inr (hidentity'.symm.trans hidentity)

theorem authenticateGrpc_cases (hmode : auth.config.mode ≠ .disabled)
    (hidentity : auth.identity library credentials = .ok principal) (now : ℕ)
    (requested : Option String) :
    (∃ e, auth.authenticateGrpc library now credentials requested = .error e) ∨
      auth.authenticateGrpc library now credentials requested = .ok principal := by
  cases hauthenticated : auth.authenticateGrpc library now credentials requested with
  | error e => exact Or.inl ⟨e, rfl⟩
  | ok principal' =>
    have hidentity' := authenticateGrpc_identity hmode hauthenticated
    exact Or.inr (hidentity'.symm.trans hidentity)

/-- The request names the tenant or none. -/
def Names (tenantId : String) (requested : Option String) : Prop :=
  requested.filter (fun tenant => !tenant.isEmpty) = none ∨
    requested.filter (fun tenant => !tenant.isEmpty) = some tenantId

theorem authorizeTenant_eq_ok (h : authorizeTenant principal requested = .ok ()) :
    Names principal.tenantId requested := by
  unfold authorizeTenant at h
  unfold Names
  cases hrequested : requested.filter (fun tenant => !tenant.isEmpty) with
  | none => exact Or.inl rfl
  | some tenant =>
    rw [hrequested] at h
    dsimp only at h
    split_ifs at h with heq
    rw [heq]
    exact Or.inr rfl

theorem authorizeTenant_of_not_names (h : ¬ Names principal.tenantId requested) :
    authorizeTenant principal requested = .error .forbidden := by
  unfold authorizeTenant
  unfold Names at h
  cases hrequested : requested.filter (fun tenant => !tenant.isEmpty) with
  | none => exact absurd (Or.inl hrequested) h
  | some tenant =>
    dsimp only
    rw [if_neg]
    intro heq
    exact h (Or.inr (by rw [hrequested, heq]))

theorem authorizeSubscribe_eq_ok (h : Authenticator.authorizeSubscribe principal = .ok ()) :
    principal.canSubscribe = true := by
  unfold Authenticator.authorizeSubscribe at h
  split_ifs at h with hcan
  exact hcan

theorem authorizePublish_eq_ok (h : Authenticator.authorizePublish principal = .ok ()) :
    principal.canPublish = true := by
  unfold Authenticator.authorizePublish at h
  split_ifs at h with hcan
  exact hcan

end Identity

/-! ### Publishing -/

section Publishing

variable {state : ApiState} {moment : Moment} {credentials : Credentials} {limiter : RateState}
  {principal : Principal} {handed : Handed}

theorem limited_eq_ok {α : Type} {clock : Readings} {admitted : Except ApiError Principal}
    {next : Principal → Except ApiError α} {a : α}
    (h : (state.limited clock admitted next limiter).1 = .ok a) :
    ∃ principal, admitted = .ok principal ∧ next principal = .ok a := by
  unfold ApiState.limited at h
  cases admitted with
  | error e => cases h
  | ok principal =>
    dsimp only at h
    split_ifs at h
    exact ⟨principal, rfl, h⟩

theorem validateCommand_eq_of_ok {parseMime : MimeParser} {command command' : PublishCommand}
    {maximum : ℕ} (h : validateCommand parseMime command maximum = .ok command') :
    command' = command := by
  unfold validateCommand at h
  split_ifs at h
  obtain ⟨_, h⟩ := check_eq_ok.mp h
  exact (Except.ok.inj h).symm

theorem handOver_eq_ok {command : PublishCommand} (h : state.handOver command = .ok handed) :
    handed.command = command := by
  unfold ApiState.handOver at h
  cases hpublisher : state.publisher with
  | none =>
    rw [hpublisher] at h
    cases h
  | some publisher =>
    rw [hpublisher] at h
    rw [← Except.ok.inj h]

theorem httpCommand_tenant {request : HttpPublishRequest}
    (h : state.httpCommand moment request principal = .ok handed) :
    handed.command.tenantId = principal.tenantId := by
  obtain ⟨content, _, h⟩ := bind_eq_ok.mp h
  obtain ⟨command, hcommand, h⟩ := bind_eq_ok.mp h
  rw [handOver_eq_ok h, validateCommand_eq_of_ok hcommand]

theorem grpcCommand_tenant {request : GrpcPublishRequest}
    (h : state.grpcCommand moment request principal = .ok handed) :
    handed.command.tenantId = principal.tenantId := by
  obtain ⟨command, hcommand, h⟩ := bind_eq_ok.mp h
  rw [handOver_eq_ok h, validateCommand_eq_of_ok hcommand]

inductive Publication
  | http (request : Option HttpPublishRequest)
  | grpc (request : GrpcPublishRequest)

def Publication.requestedTenant : Publication → Option String
  | .http request => request.bind HttpPublishRequest.tenantId
  | .grpc request => some request.tenantId

/-- What is handed to the publisher. -/
def ApiState.publishAny (state : ApiState) (moment : Moment) (credentials : Credentials)
    (publication : Publication) (limiter : RateState) : Except ApiError Handed × RateState :=
  match publication with
  | .http request => state.publishHttp moment credentials request limiter
  | .grpc request => state.publishInner moment credentials request limiter

theorem publishAny_principal {publication : Publication}
    (h : (state.publishAny moment credentials publication limiter).1 = .ok handed) :
    ∃ principal, (state.authenticator.config.mode ≠ .disabled →
        state.authenticator.identity state.library credentials = .ok principal) ∧
      Names principal.tenantId publication.requestedTenant ∧ principal.canPublish = true ∧
      handed.command.tenantId = principal.tenantId := by
  cases publication with
  | http request =>
    cases request with
    | none => cases h
    | some request =>
      obtain ⟨principal, hadmitted, h⟩ := limited_eq_ok h
      obtain ⟨principal', hauthenticated, hadmitted⟩ := bind_eq_ok.mp hadmitted
      obtain ⟨htenant, hadmitted⟩ := check_eq_ok.mp hadmitted
      obtain ⟨hpublish, hadmitted⟩ := check_eq_ok.mp hadmitted
      cases Except.ok.inj hadmitted
      exact ⟨principal, fun hmode => authenticateHttp_identity hmode hauthenticated,
        authorizeTenant_eq_ok htenant, authorizePublish_eq_ok hpublish, httpCommand_tenant h⟩
  | grpc request =>
    obtain ⟨principal, hadmitted, h⟩ := limited_eq_ok h
    obtain ⟨principal', hauthenticated, hadmitted⟩ := bind_eq_ok.mp hadmitted
    obtain ⟨htenant, hadmitted⟩ := check_eq_ok.mp hadmitted
    obtain ⟨hpublish, hadmitted⟩ := check_eq_ok.mp hadmitted
    cases Except.ok.inj hadmitted
    exact ⟨principal, fun hmode => authenticateGrpc_identity hmode hauthenticated,
      authorizeTenant_eq_ok htenant, authorizePublish_eq_ok hpublish, grpcCommand_tenant h⟩

/-- Two requests to publish with the same credentials, by any transports and at any times, are
published for the same tenant, which may publish and is the only one that either may name. -/
theorem same_credentials_publish_for_same_tenant {moment' : Moment} {limiter' : RateState}
    {publication publication' : Publication} {handed' : Handed}
    (hmode : state.authenticator.config.mode ≠ .disabled)
    (h : (state.publishAny moment credentials publication limiter).1 = .ok handed)
    (h' : (state.publishAny moment' credentials publication' limiter').1 = .ok handed') :
    ∃ principal, state.authenticator.identity state.library credentials = .ok principal ∧
      principal.canPublish = true ∧
      handed.command.tenantId = principal.tenantId ∧
      handed'.command.tenantId = principal.tenantId ∧
      Names principal.tenantId publication.requestedTenant ∧
      Names principal.tenantId publication'.requestedTenant := by
  obtain ⟨principal, hidentity, hnames, hpublish, htenant⟩ := publishAny_principal h
  obtain ⟨principal', hidentity', hnames', _, htenant'⟩ := publishAny_principal h'
  obtain rfl := Except.ok.inj ((hidentity hmode).symm.trans (hidentity' hmode))
  exact ⟨principal, hidentity hmode, hpublish, htenant, htenant', hnames, hnames'⟩

theorem same_credentials_publish_for_same_tenant_acme :
    ∃ handed handed', (acmeApi.publishAny ⟨0, ⟨0, 0, 0⟩, "u-1"⟩ acmeCredentials
        (.http (some (acmeFields.http [123, 125]))) ⟨0, 0, 0, ∅⟩).1 = .ok handed ∧
      (acmeApi.publishAny ⟨9, ⟨9, 9, 9⟩, "u-2"⟩ acmeCredentials
        (.grpc { acmeFields.grpc [] with tenantId := "" }) ⟨0, 0, 0, ∅⟩).1 = .ok handed' ∧
      handed.command.tenantId = handed'.command.tenantId := by
  cases hhttp : (acmeApi.publishAny ⟨0, ⟨0, 0, 0⟩, "u-1"⟩ acmeCredentials
      (.http (some (acmeFields.http [123, 125]))) ⟨0, 0, 0, ∅⟩).1 with
  | error e =>
    have hreached : (acmeApi.publishAny ⟨0, ⟨0, 0, 0⟩, "u-1"⟩ acmeCredentials
      (.http (some (acmeFields.http [123, 125]))) ⟨0, 0, 0, ∅⟩).1.toBool = true := by
      decide +kernel
    rw [hhttp] at hreached
    cases hreached
  | ok handed =>
    have hgrpc : ∃ handed', (acmeApi.publishAny ⟨9, ⟨9, 9, 9⟩, "u-2"⟩ acmeCredentials
        (.grpc { acmeFields.grpc [] with tenantId := "" }) ⟨0, 0, 0, ∅⟩).1 = .ok handed' :=
      ⟨_, rfl⟩
    obtain ⟨handed', hgrpc⟩ := hgrpc
    obtain ⟨principal, _, _, htenant, htenant', _⟩ :=
      same_credentials_publish_for_same_tenant (by decide) hhttp hgrpc
    exact ⟨handed, handed', rfl, hgrpc, htenant.trans htenant'.symm⟩

end Publishing

/-! ### Streams -/

section Streams

variable {state : ApiState} {now : ℕ} {credentials : Credentials} {principal : Principal}

/-- What an admitted request for a stream says about its principal. -/
structure Admitted (state : ApiState) (credentials : Credentials) (requested : Option String)
    (principal : Principal) : Prop where
  identity : state.authenticator.config.mode ≠ .disabled →
    state.authenticator.identity state.library credentials = .ok principal
  names : Names principal.tenantId requested
  subscribes : principal.canSubscribe = true

theorem websocket_admitted {query : ConnectionQuery} {queueCapacity : ℕ}
    (h : state.websocket now credentials query = .ok (principal, queueCapacity)) :
    Admitted state credentials query.tenantId principal := by
  obtain ⟨principal', hauthenticated, h⟩ := bind_eq_ok.mp h
  obtain ⟨htenant, h⟩ := check_eq_ok.mp h
  obtain ⟨hsubscribe, h⟩ := check_eq_ok.mp h
  obtain ⟨capacity, _, h⟩ := bind_eq_ok.mp h
  obtain ⟨rfl, _⟩ := Prod.mk.inj (Except.ok.inj h)
  exact ⟨fun hmode => authenticateHttp_identity hmode hauthenticated,
    authorizeTenant_eq_ok htenant, authorizeSubscribe_eq_ok hsubscribe⟩

theorem sse_admitted {lastEventId : HeaderValue} {query : SseQuery} {plan : ApiState.StreamPlan}
    (h : state.sse now credentials lastEventId query = .ok plan) :
    Admitted state credentials query.tenantId plan.principal := by
  obtain ⟨principal, hauthenticated, h⟩ := bind_eq_ok.mp h
  obtain ⟨hsubscribe, h⟩ := check_eq_ok.mp h
  obtain ⟨_, h⟩ := check_eq_ok.mp h
  obtain ⟨_, hfilter, h⟩ := bind_eq_ok.mp h
  obtain ⟨sid, _, h⟩ := bind_eq_ok.mp h
  obtain ⟨queueCapacity, _, h⟩ := bind_eq_ok.mp h
  obtain ⟨filter, hfilter, _⟩ := bind_eq_ok.mp hfilter
  obtain ⟨htenant, _⟩ := check_eq_ok.mp hfilter
  rw [← Except.ok.inj h]
  exact ⟨fun hmode => authenticateHttp_identity hmode hauthenticated,
    authorizeTenant_eq_ok htenant, authorizeSubscribe_eq_ok hsubscribe⟩

theorem subscribe_admitted {request : SubscribeRequest} {plan : ApiState.StreamPlan}
    (h : state.subscribe now credentials request = .ok plan) :
    Admitted state credentials (request.filter.map ProtoRouteFilter.tenantId) plan.principal := by
  obtain ⟨principal, hauthenticated, h⟩ := bind_eq_ok.mp h
  obtain ⟨hsubscribe, h⟩ := check_eq_ok.mp h
  cases hrequest : request.filter with
  | none =>
    rw [hrequest] at h
    cases h
  | some input =>
    rw [hrequest] at h
    obtain ⟨_, hinput, h⟩ := bind_eq_ok.mp h
    obtain ⟨filter, hfilter, h⟩ := bind_eq_ok.mp h
    obtain ⟨sid, _, h⟩ := bind_eq_ok.mp h
    obtain ⟨queueCapacity, _, h⟩ := bind_eq_ok.mp h
    rw [← Except.ok.inj hinput] at hfilter
    obtain ⟨htenant, _⟩ := check_eq_ok.mp (mapError_eq_ok.mp hfilter)
    rw [← Except.ok.inj h]
    exact ⟨fun hmode => authenticateGrpc_identity hmode (mapError_eq_ok.mp hauthenticated),
      authorizeTenant_eq_ok htenant, authorizeSubscribe_eq_ok (mapError_eq_ok.mp hsubscribe)⟩

theorem connect_admitted (h : state.connect now credentials = .ok principal) :
    Admitted state credentials none principal := by
  obtain ⟨principal', hauthenticated, h⟩ := bind_eq_ok.mp h
  obtain ⟨hsubscribe, h⟩ := check_eq_ok.mp h
  obtain rfl := Except.ok.inj h
  exact ⟨fun hmode => authenticateGrpc_identity hmode (mapError_eq_ok.mp hauthenticated),
    Or.inl rfl, authorizeSubscribe_eq_ok (mapError_eq_ok.mp hsubscribe)⟩

end Streams

/-! ### Other tenants -/

section Refusals

variable {state : ApiState} {credentials : Credentials} {principal : Principal}

theorem intoFilter_refused {input : FilterInput}
    (hnames : ¬ Names principal.tenantId input.tenantId) :
    input.intoFilter principal = .error .forbidden := by
  unfold FilterInput.intoFilter ApiState.authorizeRequestedTenant
  rw [authorizeTenant_of_not_names hnames]
  rfl

theorem protoFilter_refused {filter : ProtoRouteFilter}
    (hnames : ¬ Names principal.tenantId (some filter.tenantId)) :
    protoFilter filter principal = .error .forbidden := by
  unfold protoFilter
  rw [authorizeTenant_of_not_names hnames]
  rfl

variable (hmode : state.authenticator.config.mode ≠ .disabled)
  (hidentity : state.authenticator.identity state.library credentials = .ok principal)

include hmode hidentity

theorem websocket_refused (now : ℕ) {query : ConnectionQuery}
    (hnames : ¬ Names principal.tenantId query.tenantId) :
    ∃ e, state.websocket now credentials query = .error e ∧
      (e = .forbidden ∨ state.authenticator.authenticateHttp state.library now credentials
        query.tenantId = .error e) := by
  unfold ApiState.websocket
  rcases authenticateHttp_cases hmode hidentity now query.tenantId with ⟨e, heq⟩ | heq
  · rw [heq]
    exact ⟨e, rfl, Or.inr rfl⟩
  · rw [heq]
    refine ⟨.forbidden, ?_, Or.inl rfl⟩
    change (authorizeTenant principal query.tenantId >>= _) = _
    rw [authorizeTenant_of_not_names hnames]
    rfl

theorem sse_refused (now : ℕ) (lastEventId : HeaderValue) {query : SseQuery}
    (hnames : ¬ Names principal.tenantId query.tenantId) :
    ∃ e, state.sse now credentials lastEventId query = .error e ∧
      (e = .forbidden ∨ state.authenticator.authenticateHttp state.library now credentials
        query.tenantId = .error e ∨ parseLastEventId lastEventId = .error e) := by
  unfold ApiState.sse
  rcases authenticateHttp_cases hmode hidentity now query.tenantId with ⟨e, heq⟩ | heq
  · rw [heq]
    exact ⟨e, rfl, Or.inr (Or.inl rfl)⟩
  · rw [heq]
    change ∃ e, (Authenticator.authorizeSubscribe principal >>= fun _ =>
      parseLastEventId lastEventId >>= fun _ =>
        (query.toFilterInput.intoFilter principal >>= _) >>= _) = .error e ∧ _
    rw [intoFilter_refused hnames]
    unfold Authenticator.authorizeSubscribe
    split_ifs
    · cases parseLastEventId lastEventId with
      | error e => exact ⟨e, rfl, Or.inr (Or.inr rfl)⟩
      | ok _ => exact ⟨.forbidden, rfl, Or.inl rfl⟩
    · exact ⟨.forbidden, rfl, Or.inl rfl⟩

theorem subscribe_refused (now : ℕ) {request : SubscribeRequest}
    (hnames : ¬ Names principal.tenantId (request.filter.map ProtoRouteFilter.tenantId)) :
    ∃ e : ApiError, state.subscribe now credentials request = .error e.intoStatus ∧
      (e = .forbidden ∨ state.authenticator.authenticateGrpc state.library now credentials
        ((request.filter.map ProtoRouteFilter.tenantId).filter (fun tenant => !tenant.isEmpty)) =
          .error e) := by
  cases hfilter : request.filter with
  | none =>
    rw [hfilter] at hnames
    exact absurd (Or.inl rfl) hnames
  | some filter =>
    rw [hfilter] at hnames
    unfold ApiState.subscribe ApiState.authenticate
    rw [hfilter]
    generalize ((some filter).map ProtoRouteFilter.tenantId).filter _ = requested
    dsimp only
    rcases authenticateGrpc_cases hmode hidentity now requested with ⟨e, heq⟩ | heq
    · rw [heq]
      exact ⟨e, rfl, Or.inr rfl⟩
    · rw [heq]
      refine ⟨.forbidden, ?_, Or.inl rfl⟩
      change ((Authenticator.authorizeSubscribe principal).mapError ApiError.intoStatus >>= fun _ =>
        (protoFilter filter principal).mapError ApiError.intoStatus >>= _) = _
      rw [protoFilter_refused hnames]
      unfold Authenticator.authorizeSubscribe
      split_ifs <;> rfl

theorem publishHttp_refused {moment : Moment} {request : HttpPublishRequest} (limiter : RateState)
    (hnames : ¬ Names principal.tenantId request.tenantId) :
    ∃ e, state.publishHttp moment credentials (some request) limiter = (.error e, limiter) ∧
      (e = .forbidden ∨ state.authenticator.authenticateHttp state.library moment.now credentials
        request.tenantId = .error e) := by
  unfold ApiState.publishHttp ApiState.publishHttpInner ApiState.admitHttp
  dsimp only
  rcases authenticateHttp_cases hmode hidentity moment.now request.tenantId with ⟨e, heq⟩ | heq
  · rw [heq]
    exact ⟨e, rfl, Or.inr rfl⟩
  · rw [heq]
    refine ⟨.forbidden, ?_, Or.inl rfl⟩
    change state.limited moment.clock (authorizeTenant principal request.tenantId >>= _) _ _ = _
    rw [authorizeTenant_of_not_names hnames]
    rfl

theorem publishInner_refused {moment : Moment} {request : GrpcPublishRequest} (limiter : RateState)
    (hnames : ¬ Names principal.tenantId (some request.tenantId)) :
    ∃ e, state.publishInner moment credentials request limiter = (.error e, limiter) ∧
      (e = .forbidden ∨ state.authenticator.authenticateGrpc state.library moment.now credentials
        (if request.tenantId.isEmpty then none else some request.tenantId) = .error e) := by
  unfold ApiState.publishInner ApiState.admitGrpc
  generalize (if request.tenantId.isEmpty then none else some request.tenantId) = requested
  dsimp only
  rcases authenticateGrpc_cases hmode hidentity moment.now requested with ⟨e, heq⟩ | heq
  · rw [heq]
    exact ⟨e, rfl, Or.inr rfl⟩
  · rw [heq]
    refine ⟨.forbidden, ?_, Or.inl rfl⟩
    change state.limited moment.clock (authorizeTenant principal (some request.tenantId) >>= _)
      _ _ = _
    rw [authorizeTenant_of_not_names hnames]
    rfl

end Refusals
end KafkaEdgeRouter.Api
