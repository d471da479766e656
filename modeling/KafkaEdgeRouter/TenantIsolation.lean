import KafkaEdgeRouter.RecordRoundTrip
import KafkaEdgeRouter.RequestEffects
import KafkaEdgeRouter.SessionSystem

/-!
# Tenants from end to end

Credentials decide on both ends of the router. Who streams is shown messages of the tenant that the
credentials name and of no other; what the publisher of the process has sent was sent for
credentials of the same tenant, and arrives as it was published.
-/

namespace KafkaEdgeRouter.Stream

open Api Router

section Tenants

variable {S : Service} {P P' : Sessions} {t : ℕ} {c : ConnectionId} {principal : Principal}

/-! ### Streams -/

def Arrival.credentials : Arrival → Option Credentials
  | .websocket _ headers _ => some headers
  | .sse _ headers _ _ => some headers
  | .subscribe _ metadata _ => some metadata
  | .connect _ metadata => some metadata
  | .webhook _ => none

def Arrival.requestedTenant : Arrival → Option String
  | .websocket _ _ query => query.tenantId
  | .sse _ _ _ query => query.tenantId
  | .subscribe _ _ request => request.filter.map ProtoRouteFilter.tenantId
  | .connect _ _ => none
  | .webhook _ => none

theorem Service.Admits.admitted {arrival : Arrival} {credentials : Credentials}
    (h : S.Admits principal arrival) (hcredentials : arrival.credentials = some credentials) :
    Admitted S.api credentials arrival.requestedTenant principal := by
  cases arrival with
  | websocket now headers query =>
    cases hcredentials
    obtain ⟨_, hplan⟩ := h
    exact websocket_admitted hplan
  | sse now headers lastEventId query =>
    cases hcredentials
    obtain ⟨_, hplan, rfl⟩ := h
    exact sse_admitted hplan
  | subscribe now metadata request =>
    cases hcredentials
    obtain ⟨_, hplan, rfl⟩ := h
    exact subscribe_admitted hplan
  | connect now metadata =>
    cases hcredentials
    exact connect_admitted h
  | webhook destination => cases hcredentials

theorem Service.Reachable.admitted (h : S.Reachable P)
    (hopened : (P.ledger t).opened = some (c, principal)) {arrival : Arrival}
    (harrival : (P.ledger t).arrival = some arrival) {credentials : Credentials}
    (hcredentials : arrival.credentials = some credentials) :
    Admitted S.api credentials arrival.requestedTenant principal := by
  obtain ⟨arrival', harrival', hadmits⟩ := (h.faithful t).sound.admitted c principal hopened
  cases harrival.symm.trans harrival'
  exact hadmits.admitted hcredentials

/-- Two sessions with the same credentials, in any two runs and over any transports, are sessions of
the same principal, which may subscribe. All that either subscribes to or is shown is for the tenant
of this principal, and neither request has named another. -/
theorem same_credentials_stream_for_same_tenant
    (hmode : S.api.authenticator.config.mode ≠ .disabled) (h : S.Reachable P)
    (h' : S.Reachable P') {u : ℕ} {c' : ConnectionId} {principal' : Principal}
    (hopened : (P.ledger t).opened = some (c, principal))
    (hopened' : (P'.ledger u).opened = some (c', principal')) {arrival arrival' : Arrival}
    (harrival : (P.ledger t).arrival = some arrival)
    (harrival' : (P'.ledger u).arrival = some arrival')
    {credentials : Credentials} (hcredentials : arrival.credentials = some credentials)
    (hcredentials' : arrival'.credentials = some credentials) :
    principal' = principal ∧ principal.canSubscribe = true ∧
    Names principal.tenantId arrival.requestedTenant ∧
    Names principal.tenantId arrival'.requestedTenant ∧
    (∀ sid filter, (P.ledger t).held.lookup sid = some filter ∨
      (P'.ledger u).held.lookup sid = some filter → filter.tenantId = principal.tenantId) ∧
    ∀ delivery ∈ (P.ledger t).shown ++ (P'.ledger u).shown,
      delivery.message.metadata.tenantId = principal.tenantId := by
  have htenant : ∀ {P : Sessions} {t c principal}, S.Reachable P →
      (P.ledger t).opened = some (c, principal) →
      (∀ sid filter, (P.ledger t).held.lookup sid = some filter →
        filter.tenantId = principal.tenantId) ∧
      ∀ delivery ∈ (P.ledger t).shown, delivery.message.metadata.tenantId = principal.tenantId := by
    intro P t c principal h hopened
    refine ⟨fun sid filter hl => ?_, fun delivery hmem => ?_⟩
    · obtain ⟨c₁, principal₁, hopened₁, htenant⟩ := (h.faithful t).sound.tenant sid filter hl
      cases hopened.symm.trans hopened₁
      exact htenant
    · exact h.tenant_of_accepted hopened ((h.shown_begins hopened).subset hmem)
  have ha := h.admitted hopened harrival hcredentials
  have ha' := h'.admitted hopened' harrival' hcredentials'
  obtain rfl := Except.ok.inj ((ha.identity hmode).symm.trans (ha'.identity hmode))
  refine ⟨rfl, ha.subscribes, ha.names, ha'.names, fun sid filter hl => ?_, fun delivery hd => ?_⟩
  · rcases hl with hl | hl
    · exact (htenant h hopened).1 sid filter hl
    · exact (htenant h' hopened').1 sid filter hl
  · rcases List.mem_append.mp hd with hd | hd
    · exact (htenant h hopened).2 delivery hd
    · exact (htenant h' hopened').2 delivery hd

theorem same_credentials_stream_for_same_tenant_acme :
    (acmeServed.ledger 0).shown ++ (acmeServed.ledger 3).shown = [⟨acmeOrder, [⟨"all"⟩]⟩] ∧
    ∀ delivery ∈ (acmeServed.ledger 0).shown ++ (acmeServed.ledger 3).shown,
      delivery.message.metadata.tenantId = "acme" :=
  ⟨rfl, (same_credentials_stream_for_same_tenant (S := acmeService) (by decide)
    reachable_acmeServed reachable_acmeServed opened_acmeServed connected_acmeServed rfl rfl
    rfl rfl).2.2.2.2.2⟩

/-! ### Requests -/

/-- Unless authentication is disabled, the credentials of a request name the tenant. Whatever a
request with these credentials asks for, and whatever the server does meanwhile, new connections and
filters are for their tenant, which may subscribe; so are the connection of a session and all its
subscriptions at every moment; and what is handed to the publisher is for their tenant, which may
publish. A request that names another tenant leaves everything as it is and ends with `Forbidden`,
if it is not refused before its tenant is looked at. So does a command, which is answered with
`tenant_mismatch` over WebSocket and ends a gRPC stream; at the end of the stream only its own
connection leaves the router. -/
theorem tenant_comes_from_credentials (hmode : S.api.authenticator.config.mode ≠ .disabled)
    (credentials : Credentials) :
    (∀ t order task, task.credentials = some credentials →
      (S.thread t (order, task)).Always (AddsFor (S.Subscriber credentials))) ∧
    (∀ P : Sessions, S.Reachable P → ∀ t c principal arrival,
      (P.ledger t).opened = some (c, principal) → (P.ledger t).arrival = some arrival →
      arrival.credentials = some credentials →
      ∀ connection, P.shared.router.connections.lookup c = some connection →
        S.Subscriber credentials connection.tenantId ∧
        ∀ sid filter, connection.subscriptions.lookup sid = some filter →
          filter.tenantId = connection.tenantId) ∧
    (∀ moment publication limiter handed,
      (S.api.publishAny moment credentials publication limiter).1 = .ok handed →
      S.Publisher credentials handed.command.tenantId ∧
      Names handed.command.tenantId publication.requestedTenant) ∧
    ∀ principal, S.api.authenticator.identity S.api.library credentials = .ok principal →
      (∀ t order task, task.credentials = some credentials →
        ¬ Names principal.tenantId task.requestedTenant →
        (S.thread t (order, task)).Always Untouched ∧
        (S.thread t (order, task)).Yields (fun ending => ∃ e : ApiError,
          ending = task.refused e ∧ (e = .forbidden ∨ S.Precludes e task))) ∧
      (∀ t order n c allowed subscriptionId input, ¬ Names principal.tenantId input.tenantId →
        (S.answer t order n principal c allowed
          (.text (.command (.subscribe subscriptionId (some input))))).Always Untouched ∧
        (S.answer t order n principal c allowed
          (.text (.command (.subscribe subscriptionId (some input))))).Yields (fun reply =>
            reply = .error "tenant_mismatch" "filter tenant is not authorized" ∨
            allowed = false ∧ reply = wsRateLimited ∨
            (∃ e, SubscriptionId.new subscriptionId = .error e) ∧
              reply = .error "invalid_subscription_id" "subscription_id is invalid")) ∧
      ∀ t order n c subscriptionId (filter : ProtoRouteFilter),
        ¬ Names principal.tenantId (some filter.tenantId) →
        (S.connectTurn t order principal c n
          (.command (.subscribe subscriptionId (some filter)))).Always Untouched ∧
        (S.connectTurn t order principal c n
          (.command (.subscribe subscriptionId (some filter)))).Yields (fun next =>
            ∃ status, next = .done (n + 1, .error status) ∧
              (status = ApiError.forbidden.intoStatus ∨
                status = ⟨.resourceExhausted, "rate limit exceeded"⟩ ∨
                ∃ e, SubscriptionId.new subscriptionId = .error e ∧ status = .ofCore e)) ∧
        (S.leaveStream t order (n + 1) c).Always (fun w w' => ∀ c', c' ≠ c →
          w'.router.connections.lookup c' = w.router.connections.lookup c') := by
  refine ⟨fun t order task hcredentials => addsFor_thread hmode hcredentials, ?_, ?_, ?_⟩
  · intro P h t c principal arrival hopened harrival hcredentials connection hl
    have hadmitted := h.admitted hopened harrival hcredentials
    obtain ⟨call, hmem⟩ := h.inv.base.registered c connection hl
    have htenant := h.tenant_of_registered hopened hmem
    exact ⟨⟨principal, hadmitted.identity hmode, hadmitted.subscribes, htenant.symm⟩,
      h.holds.inv.tenanted c connection hl⟩
  · intro moment publication limiter handed hhanded
    obtain ⟨principal, hidentity, hnames, hpublish, htenant⟩ := publishAny_principal hhanded
    exact ⟨⟨principal, hidentity hmode, hpublish, htenant.symm⟩, htenant ▸ hnames⟩
  · intro principal hidentity
    refine ⟨fun t order task hcredentials hnames =>
        thread_refused hmode hidentity hcredentials hnames,
      fun t order n c allowed subscriptionId input hnames => answer_refused hnames,
      fun t order n c subscriptionId filter hnames => ?_⟩
    obtain ⟨hkept, hended⟩ := connectTurn_refused (S := S) (t := t) (n := n) (c := c) hnames
    exact ⟨hkept, hended, elsewhere_leaveStream⟩

/-- The client asks for the filter of another tenant under an invalid name. -/
def acmeStraying : List (Move (HashOrder × Task) Draw) :=
  .spawn (.listed, .websocket 0 acmeCredentials {}
    [.incoming (some (.text (.command
      (.subscribe "" (some { tenantId := some "globex" }))))) true]) :: acting 0 7 15

/-- A gRPC client subscribes, and then asks for the filter of another tenant. -/
def acmeStrayed (accesses : ℕ) : Sessions :=
  sessionsAfter acmeService (acmeStraying ++ .spawn (.listed, .connect 0 acmeCredentials
    [.command (.subscribe "all" (some {})),
      .command (.subscribe "other" (some { tenantId := "globex" }))]) :: acting 1 8 accesses)

theorem other_tenant_refused_otherwise_acme :
    acmeService.api.authenticator.config.mode ≠ .disabled ∧
    ¬ Names acmePrincipal.tenantId (some "globex") ∧
    acmeService.Reachable (acmeStrayed 0) ∧
    (acmeStrayed 0).shared.transcripts 0 =
      [.arrived (.websocket 0 acmeCredentials {}), .opened ⟨7⟩ acmePrincipal,
        .takes (.text (.command (.subscribe "" (some { tenantId := some "globex" })))),
        .sends (.ws (.reply (.error "invalid_subscription_id" "subscription_id is invalid")))] ∧
    acmeService.Reachable (acmeStrayed 24) ∧
    (acmeStrayed 24).shared.transcripts 1 =
      (acmeStrayed 23).shared.transcripts 1 ++
        [.takes (.grpc (.subscribe "other" (some { tenantId := "globex" })))] ∧
    ⟨8⟩ ∈ (acmeStrayed 24).shared.router.connections ∧
    acmeService.Reachable (acmeStrayed 36) ∧
    (acmeStrayed 36).threads[1]? = some (.ret (.grpc (.error ApiError.forbidden.intoStatus))) ∧
    ⟨8⟩ ∉ (acmeStrayed 36).shared.router.connections :=
  ⟨by decide, by simp [Names, acmePrincipal], reachable_sessionsAfter rfl, rfl,
    reachable_sessionsAfter rfl, rfl, by decide, reachable_sessionsAfter rfl, rfl, by decide⟩

theorem tenant_comes_from_credentials_acme :
    (∃ connection, acmeServed.shared.router.connections.lookup ⟨7⟩ = some connection ∧
      acmeService.Subscriber acmeCredentials connection.tenantId) ∧
    (acmeService.thread 0 (.listed, .websocket 0 acmeCredentials
      { tenantId := some "globex" } [])).Yields
        (fun ending => ending = .http (.error .forbidden)) := by
  obtain ⟨_, hsessions, _, hrefused⟩ :=
    tenant_comes_from_credentials (S := acmeService) (by decide) acmeCredentials
  obtain ⟨connection, hl⟩ : ∃ connection,
      acmeServed.shared.router.connections.lookup ⟨7⟩ = some connection := ⟨_, rfl⟩
  refine ⟨⟨connection, hl, (hsessions acmeServed reachable_acmeServed 0 ⟨7⟩ acmePrincipal _
    opened_acmeServed rfl rfl connection hl).1⟩, ?_⟩
  obtain ⟨hrequests, _⟩ := hrefused acmePrincipal rfl
  refine Prog.yields_mono (hrequests 0 .listed (.websocket 0 acmeCredentials
    { tenantId := some "globex" } []) rfl (by simp [Names, acmePrincipal,
      Task.requestedTenant])).2 ?_
  rintro _ ⟨e, rfl, rfl | hprecludes⟩
  · rfl
  · cases hprecludes

/-! ### Messages -/

theorem payload_le_of_decode {position : KafkaPosition} {record : Kafka.SourceRecord}
    {maxPayloadBytes : ℕ} {message : RoutedMessage}
    (h : Kafka.decodeMessage position record maxPayloadBytes = .ok message) :
    (record.payload.getD []).length ≤ maxPayloadBytes := by
  by_contra hsize
  rw [Kafka.decodeMessage, if_pos (Nat.lt_of_not_le hsize)] at h
  cases h

theorem Service.Published.message {stored : Stored} {message : RoutedMessage}
    (h : S.Published stored) (hdecode : S.decode stored = .ok message) :
    ∃ moment credentials publication limiter handed timestampMs,
      (S.api.publishAny moment credentials publication limiter).1 = .ok handed ∧
      message.metadata = { handed.command.metadata with
        timestampMs := timestampMs, source := some stored.position } ∧
      message.payload = handed.command.payload := by
  obtain ⟨moment, credentials, publication, limiter, handed, sending, timestampMs, hhanded,
    hsending, hrecord⟩ := h
  obtain ⟨hvalid, hsending⟩ := check_eq_ok.mp hsending
  have hmetadata : handed.command.metadata.validate = .ok () :=
    mapError_eq_ok.mp (check_eq_ok.mp hvalid).1
  have hheaders : (sending.record.consumed timestampMs).headers =
      some (Kafka.publishHeaders handed.command) := by
    rw [← Except.ok.inj hsending]
    rfl
  have hpayload : (sending.record.consumed timestampMs).payload = some handed.command.payload := by
    rw [← Except.ok.inj hsending]
    rfl
  rw [Service.decode, hrecord] at hdecode
  have hsize := payload_le_of_decode hdecode
  rw [hpayload] at hsize
  have hdecoded := Kafka.decodeMessage_published hheaders stored.position hmetadata hpayload hsize
  cases Except.ok.inj (hdecoded.symm.trans hdecode)
  exact ⟨moment, credentials, publication, limiter, handed, timestampMs, hhanded, rfl, rfl⟩

/-- Every message that a session was shown was decoded from a record of the topic. If the publisher
of this process has sent the record, it did so for a request whose credentials name the tenant of
the session, with permission to publish, and the message has the fields and the payload that were
published. -/
theorem shown_messages_were_published (hmode : S.api.authenticator.config.mode ≠ .disabled)
    (h : S.Reachable P) (hopened : (P.ledger t).opened = some (c, principal)) {delivery : Delivery}
    (hshown : delivery ∈ (P.ledger t).shown) :
    ∃ stored ∈ P.shared.topic, S.decode stored = .ok delivery.message ∧
      (stored.ours = true → ∃ moment credentials publication limiter handed author timestampMs,
        (S.api.publishAny moment credentials publication limiter).1 = .ok handed ∧
        S.api.authenticator.identity S.api.library credentials = .ok author ∧
        author.canPublish = true ∧ author.tenantId = principal.tenantId ∧
        delivery.message.metadata = { handed.command.metadata with
          timestampMs := timestampMs, source := some stored.position } ∧
        delivery.message.payload = handed.command.payload) := by
  have haccepted := (h.shown_begins hopened).subset hshown
  have htenant := h.tenant_of_accepted hopened haccepted
  obtain ⟨e, he, heq⟩ := List.mem_filterMap.mp haccepted
  obtain ⟨call, rfl⟩ := acceptedBy_eq_some heq
  obtain ⟨before, after, hsplit, hbegan, _⟩ := h.inv.base.justified.of_mem he
  have hmem : .began call (.dispatch delivery.message) ∈ P.shared.router.history := by
    rw [hsplit]
    exact List.mem_append_left _ hbegan
  obtain ⟨stored, hstored, hdecode⟩ :=
    h.holds.inv.traced.dispatched _ _ hmem delivery.message rfl
  refine ⟨stored, hstored, hdecode, fun hours => ?_⟩
  obtain ⟨moment, credentials, publication, limiter, handed, timestampMs, hhanded, hmetadata,
    hpayload⟩ := (h.holds.inv.traced.published stored hstored hours).message hdecode
  obtain ⟨author, hidentity, _, hpublish, hauthor⟩ := publishAny_principal hhanded
  refine ⟨moment, credentials, publication, limiter, handed, author, timestampMs, hhanded,
    hidentity hmode, hpublish, ?_, hmetadata, hpayload⟩
  rw [← hauthor, ← htenant, hmetadata]
  rfl

theorem shown_messages_were_published_acme :
    ∃ stored ∈ acmeServed.shared.topic, stored.ours = true ∧
      acmeService.decode stored = .ok acmeOrder ∧
      ∃ moment credentials publication limiter handed,
        (acmeApi.publishAny moment credentials publication limiter).1 = .ok handed ∧
        acmeOrder.payload = handed.command.payload := by
  obtain ⟨stored, hmem, hdecode, hours⟩ := shown_messages_were_published (S := acmeService)
    (by decide) reachable_acmeServed opened_acmeServed
    (show ⟨acmeOrder, [⟨"all"⟩]⟩ ∈ (acmeServed.ledger 0).shown from List.mem_singleton.mpr rfl)
  have hstored : stored.ours = true := by
    rw [List.mem_singleton.mp (show stored ∈ [_] from hmem)]
  obtain ⟨moment, credentials, publication, limiter, handed, author, timestampMs, hhanded, _, _, _,
    _, hpayload⟩ := hours hstored
  exact ⟨stored, hmem, hstored, hdecode, moment, credentials, publication, limiter, handed,
    hhanded, hpayload⟩

end Tenants
end KafkaEdgeRouter.Stream
