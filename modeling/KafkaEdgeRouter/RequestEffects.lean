import KafkaEdgeRouter.SessionThreads

/-!
# What requests change

Everything that a client can make of its credentials passes through a request. What a request adds
to the router is for the tenant that the credentials name, access by access, and a request or a
command that names another tenant changes nothing.
-/

namespace KafkaEdgeRouter.Stream

open Api Router

/-! ### Requests -/

def Task.credentials : Task → Option Credentials
  | .websocket _ headers _ _ => some headers
  | .sse _ headers _ _ _ => some headers
  | .subscribe _ metadata _ _ => some metadata
  | .connect _ metadata _ => some metadata
  | .publish _ _ credentials _ _ _ => some credentials
  | _ => none

def Task.requestedTenant : Task → Option String
  | .websocket _ _ query _ => query.tenantId
  | .sse _ _ _ query _ => query.tenantId
  | .subscribe _ _ request _ => request.filter.map ProtoRouteFilter.tenantId
  | .publish _ _ _ publication _ _ => publication.requestedTenant
  | _ => none

def Task.refused (e : ApiError) : Task → Ending
  | .websocket _ _ _ _ => .http (.error e)
  | .sse _ _ _ _ _ => .http (.error e)
  | .publish _ _ _ _ _ _ => .published (.error e)
  | _ => .grpc (.error e.intoStatus)

/-- The request may be refused with this error before its tenant is looked at. -/
def Service.Precludes (S : Service) (e : ApiError) : Task → Prop
  | .websocket now headers query _ =>
    S.api.authenticator.authenticateHttp S.api.library now headers query.tenantId = .error e
  | .sse now headers lastEventId query _ =>
    S.api.authenticator.authenticateHttp S.api.library now headers query.tenantId = .error e ∨
      parseLastEventId lastEventId = .error e
  | .subscribe now metadata request _ =>
    S.api.authenticator.authenticateGrpc S.api.library now metadata
      ((request.filter.map ProtoRouteFilter.tenantId).filter (fun tenant => !tenant.isEmpty)) =
        .error e
  | .publish now _ credentials (.http request) _ _ =>
    S.api.authenticator.authenticateHttp S.api.library now credentials
      (request.bind HttpPublishRequest.tenantId) = .error e
  | .publish now _ credentials (.grpc request) _ _ =>
    S.api.authenticator.authenticateGrpc S.api.library now credentials
      (if request.tenantId.isEmpty then none else some request.tenantId) = .error e
  | _ => False

/-- Connections and subscriptions stay as they are, and nothing is added to the topic. -/
structure Untouched (w w' : Server) : Prop where
  connections : w'.router.connections = w.router.connections
  routes : w'.router.routes = w.router.routes
  topic : w'.topic = w.topic

/-- A connection that is new, and a filter that is new to its connection, is for a tenant that is
allowed. -/
structure AddsFor (allowed : String → Prop) (w w' : Server) : Prop where
  connection : ∀ c connection', w'.router.connections.lookup c = some connection' →
    (∃ connection, w.router.connections.lookup c = some connection ∧
      connection.tenantId = connection'.tenantId) ∨ allowed connection'.tenantId
  subscription : ∀ c connection', w'.router.connections.lookup c = some connection' →
    ∀ sid filter, connection'.subscriptions.lookup sid = some filter →
      (∃ connection, w.router.connections.lookup c = some connection ∧
        connection.subscriptions.lookup sid = some filter) ∨ allowed filter.tenantId

/-- The credentials name this tenant and may subscribe. -/
def Service.Subscriber (S : Service) (credentials : Credentials) (tenantId : String) : Prop :=
  ∃ principal, S.api.authenticator.identity S.api.library credentials = .ok principal ∧
    principal.canSubscribe = true ∧ principal.tenantId = tenantId

def Service.Publisher (S : Service) (credentials : Credentials) (tenantId : String) : Prop :=
  ∃ principal, S.api.authenticator.identity S.api.library credentials = .ok principal ∧
    principal.canPublish = true ∧ principal.tenantId = tenantId

/-- What the request adds is for this tenant. -/
def IsFor (tenantId : String) : Request → Prop
  | .register tenantId' _ _ => tenantId' = tenantId
  | .subscribe _ _ filter => filter.tenantId = tenantId
  | _ => True

section Requests

variable {S : Service} {t n : ℕ} {order : HashOrder} {c : ConnectionId} {principal : Principal}
  {credentials : Credentials} {α β : Type} {allowed : String → Prop} {w w' : Server}

theorem addsFor_of_eq (h : w'.router.connections = w.router.connections) :
    AddsFor allowed w w' := by
  refine ⟨fun c connection' hl' => ?_, fun c connection' hl' sid filter hsid => ?_⟩
  · rw [h] at hl'
    exact Or.inl ⟨connection', hl', rfl⟩
  · rw [h] at hl'
    exact Or.inl ⟨connection', hl', hsid⟩

theorem addsFor_of_untouched {p : ServerProg α} (h : p.Always Untouched) :
    p.Always (AddsFor allowed) :=
  Prog.always_mono h fun _ _ h => addsFor_of_eq h.connections

theorem untouched_note (line : Line) : (note t line).Always Untouched :=
  Prog.always_access fun _ => ⟨rfl, rfl, rfl⟩

theorem untouched_send (taken : Bool) (frame : Frame) : (send t taken frame).Always Untouched := by
  cases taken with
  | true => exact untouched_note _
  | false => exact Prog.always_ret _

theorem untouched_recv : (recv t c).Always Untouched := by
  unfold recv receive
  rw [Prog.annotate_await]
  refine Prog.always_await fun draw w _ => ?_
  dsimp only
  split <;> exact ⟨rfl, rfl, rfl⟩

theorem untouched_readConnectionClock : Service.readConnectionClock.Always Untouched :=
  Prog.always_await fun _ _ _ => ⟨rfl, rfl, rfl⟩

theorem untouched_allowRate (tenantId : String) (kind : RateKind) :
    (S.allowRate tenantId kind).Always Untouched := by
  refine Prog.always_bind (Prog.always_await fun _ _ _ => ⟨rfl, rfl, rfl⟩) fun allowed => ?_
  cases allowed with
  | true => exact Prog.always_ret _
  | false =>
    exact Prog.always_bind (Prog.always_access fun _ => ⟨rfl, rfl, rfl⟩) fun _ => Prog.always_ret _

theorem untouched_allowCommand (limiter : CommandRateLimiter) :
    (S.allowCommand principal limiter).Always Untouched := by
  refine Prog.always_bind untouched_readConnectionClock fun clock => ?_
  dsimp only
  split_ifs
  · exact Prog.always_bind (untouched_allowRate _ _) fun _ => Prog.always_ret _
  · exact Prog.always_ret _

/-! ### What is added -/

theorem addsFor_call {request : Request} {tenantId : String} (hallowed : allowed tenantId)
    (hrequest : IsFor tenantId request) :
    (S.call t order n request).Always (AddsFor allowed) := by
  refine Prog.always_zoom (conduct_serve order) fun w s' hconduct => ?_
  refine ⟨fun c connection' hl' => ?_, fun c connection' hl' sid filter hsid => ?_⟩
  · rcases hconduct.additions.connection c connection' hl' with hold | ⟨_, _, rfl⟩
    · exact Or.inl hold
    · exact Or.inr (hrequest ▸ hallowed)
  · rcases hconduct.additions.subscription c connection' hl' sid filter hsid with
      ⟨connection, hl, _, hold⟩ | ⟨rfl, _⟩
    · exact Or.inl ⟨connection, hl, hold⟩
    · exact Or.inr (hrequest ▸ hallowed)

theorem addsFor_handleWsCommand (hallowed : allowed principal.tenantId) (text : WsText) :
    (S.handleWsCommand t order n principal c text).Always (AddsFor allowed) := by
  unfold Service.handleWsCommand
  split
  · exact Prog.always_ret _
  · exact Prog.always_ret _
  · split
    · exact Prog.always_ret _
    · split
      · exact Prog.always_ret _
      · split
        · exact Prog.always_ret _
        · exact Prog.always_ret _
        · next hfilter =>
          refine Prog.always_bind (addsFor_call hallowed ?_) fun response => ?_
          · rw [intoFilter_eq_ok hfilter]
            rfl
          · split <;> exact Prog.always_ret _
  · split
    · exact Prog.always_ret _
    · refine Prog.always_bind (addsFor_call hallowed (by trivial)) fun response => ?_
      split <;> exact Prog.always_ret _
  · exact Prog.always_ret _

theorem addsFor_commandTurn (hallowed : allowed principal.tenantId) (limiter : CommandRateLimiter)
    (command : Command) (taken : Bool) :
    (S.commandTurn t order principal c limiter n command taken).Always (AddsFor allowed) := by
  refine Prog.always_bind (addsFor_of_untouched (untouched_note _)) fun _ =>
    Prog.always_bind (addsFor_of_untouched (untouched_allowCommand limiter)) fun result =>
    Prog.always_bind ?_ fun reply => ?_
  · obtain ⟨accepted, limiter⟩ := result
    cases accepted with
    | false => exact Prog.always_ret _
    | true =>
      cases command with
      | text text => exact addsFor_handleWsCommand hallowed text
      | binary => exact Prog.always_ret _
      | stream fields => exact Prog.always_ret _
      | grpc command => exact Prog.always_ret _
  · cases taken with
    | false => exact Prog.always_ret _
    | true =>
      exact Prog.always_bind (addsFor_of_untouched (untouched_note _)) fun _ => Prog.always_ret _

theorem addsFor_websocketTurn (hallowed : allowed principal.tenantId)
    (point : CommandRateLimiter × ℕ) (turn : WsTurn) :
    (S.websocketTurn t order principal c point turn).Always (AddsFor allowed) := by
  have hsend : ∀ {taken : Bool} {frame : Frame} {next : Next (CommandRateLimiter × ℕ) ℕ},
      (send t taken frame >>= fun _ => pure next).Always (AddsFor allowed) := fun {taken frame _} =>
    Prog.always_bind (addsFor_of_untouched (untouched_send taken frame)) fun _ => Prog.always_ret _
  have hnote : ∀ {line : Line} {next : Next (CommandRateLimiter × ℕ) ℕ},
      (note t line >>= fun _ => pure next).Always (AddsFor allowed) := fun {line _} =>
    Prog.always_bind (addsFor_of_untouched (untouched_note line)) fun _ => Prog.always_ret _
  cases turn with
  | delivery taken =>
    refine Prog.always_bind (addsFor_of_untouched untouched_recv) fun delivery => ?_
    cases delivery with
    | none => exact hsend
    | some delivery =>
      cases taken with
      | true => exact hnote
      | false => exact Prog.always_ret _
  | incoming message taken =>
    cases message with
    | none => exact Prog.always_ret _
    | some message =>
      cases message with
      | text text => exact addsFor_commandTurn hallowed _ _ _
      | binary => exact addsFor_commandTurn hallowed _ _ _
      | ping payload =>
        cases taken with
        | true => exact hnote
        | false => exact Prog.always_ret _
      | pong => exact Prog.always_ret _
      | close frame => exact hsend
      | failed oversized => exact hsend

theorem addsFor_websocketSession (hallowed : allowed principal.tenantId) (queueCapacity : ℕ)
    (script : List WsTurn) :
    (S.websocketSession t order principal queueCapacity script).Always (AddsFor allowed) := by
  refine Prog.always_bind (addsFor_call hallowed rfl) fun response => ?_
  cases registration response with
  | error e => exact Prog.always_ret _
  | ok c =>
    exact Prog.always_bind (addsFor_of_untouched (untouched_note _)) fun _ =>
      Prog.always_bind (addsFor_of_untouched untouched_readConnectionClock) fun clock =>
      Prog.always_bind (Prog.always_follow (addsFor_websocketTurn hallowed) script _) fun n =>
      Prog.always_bind (addsFor_call hallowed trivial) fun _ =>
      Prog.always_bind (addsFor_call hallowed trivial) fun _ => Prog.always_ret _

theorem addsFor_leaveStream (hallowed : allowed principal.tenantId) :
    (S.leaveStream t order n c).Always (AddsFor allowed) :=
  Prog.always_bind (addsFor_call hallowed trivial) fun _ =>
    Prog.always_bind (addsFor_call hallowed trivial) fun _ => Prog.always_ret _

theorem addsFor_streamTurn (event : Delivery → Frame) (turn : StreamTurn) :
    (Service.streamTurn t event c () turn).Always (AddsFor allowed) := by
  cases turn with
  | dropped => exact Prog.always_ret _
  | delivery =>
    refine Prog.always_bind (addsFor_of_untouched untouched_recv) fun delivery => ?_
    cases delivery with
    | none => exact Prog.always_ret _
    | some delivery =>
      exact Prog.always_bind (addsFor_of_untouched (untouched_note _)) fun _ => Prog.always_ret _

theorem addsFor_streamSession {protocol : DeliveryProtocol} {response : SubscriptionId → Frame}
    {event : Delivery → Frame} {plan : ApiState.StreamPlan} {fields : FilterFields}
    (hallowed : allowed plan.principal.tenantId)
    (hplan : plan.filter.tenantId = plan.principal.tenantId) (script : List StreamTurn) :
    (S.streamSession t order protocol response event plan fields script).Always
      (AddsFor allowed) := by
  refine Prog.always_bind (addsFor_call hallowed rfl) fun answer => ?_
  cases registration answer with
  | error e => exact Prog.always_ret _
  | ok c =>
    refine Prog.always_bind (addsFor_of_untouched (untouched_note _)) fun _ =>
      Prog.always_bind (addsFor_of_untouched (untouched_note _)) fun _ =>
      Prog.always_bind (addsFor_call hallowed hplan) fun answer => ?_
    cases settlement answer with
    | error e =>
      exact Prog.always_bind (addsFor_leaveStream hallowed) fun _ => Prog.always_ret _
    | ok result =>
      exact Prog.always_bind (addsFor_of_untouched (untouched_note _)) fun _ =>
        Prog.always_bind (Prog.always_follow (fun _ => addsFor_streamTurn event) script ()) fun _ =>
        Prog.always_bind (addsFor_leaveStream hallowed) fun _ => Prog.always_ret _

theorem addsFor_connectCommand (hallowed : allowed principal.tenantId) (command : ClientCommand) :
    (S.connectCommand t order n principal c command).Always (AddsFor allowed) := by
  refine Prog.always_bind (addsFor_of_untouched (untouched_allowRate _ _)) fun accepted => ?_
  cases accepted with
  | false => exact Prog.always_ret _
  | true =>
    cases command with
    | subscribe subscriptionId filter =>
      change (S.grpcSubscribe t order n principal c subscriptionId filter).Always _
      unfold Service.grpcSubscribe
      cases SubscriptionId.new subscriptionId with
      | error e => exact Prog.always_ret _
      | ok sid =>
        cases filter with
        | none => exact Prog.always_ret _
        | some input =>
          dsimp only
          cases hfilter : protoFilter input principal with
          | error e => exact Prog.always_ret _
          | ok filter =>
            refine Prog.always_bind (addsFor_call hallowed ?_) fun response => ?_
            · rw [protoFilter_eq_ok hfilter]
              rfl
            · cases settlement response <;> exact Prog.always_ret _
    | unsubscribe subscriptionId =>
      change (S.grpcUnsubscribe t order n c subscriptionId).Always _
      unfold Service.grpcUnsubscribe
      cases SubscriptionId.new subscriptionId with
      | error e => exact Prog.always_ret _
      | ok sid =>
        refine Prog.always_bind (addsFor_call hallowed trivial) fun response => ?_
        cases settlement response <;> exact Prog.always_ret _
    | ping opaqueText => exact Prog.always_ret _
    | none => exact Prog.always_ret _

theorem addsFor_connectTurn (hallowed : allowed principal.tenantId) (n : ℕ) (turn : ConnectTurn) :
    (S.connectTurn t order principal c n turn).Always (AddsFor allowed) := by
  cases turn with
  | delivery =>
    refine Prog.always_bind (addsFor_of_untouched untouched_recv) fun delivery => ?_
    cases delivery with
    | none => exact Prog.always_ret _
    | some delivery =>
      exact Prog.always_bind (addsFor_of_untouched (untouched_note _)) fun _ => Prog.always_ret _
  | command command =>
    refine Prog.always_bind (addsFor_of_untouched (untouched_note _)) fun _ =>
      Prog.always_bind (addsFor_connectCommand hallowed command) fun result => ?_
    cases result with
    | error status => exact Prog.always_ret _
    | ok event =>
      exact Prog.always_bind (addsFor_of_untouched (untouched_note _)) fun _ => Prog.always_ret _
  | finished => exact Prog.always_ret _
  | failed status => exact Prog.always_ret _
  | dropped => exact Prog.always_ret _

theorem addsFor_connectSession (hallowed : allowed principal.tenantId)
    (script : List ConnectTurn) :
    (S.connectSession t order principal script).Always (AddsFor allowed) := by
  refine Prog.always_bind (addsFor_call hallowed rfl) fun response => ?_
  cases registration response with
  | error e => exact Prog.always_ret _
  | ok c =>
    exact Prog.always_bind (addsFor_of_untouched (untouched_note _)) fun _ =>
      Prog.always_bind (Prog.always_follow (addsFor_connectTurn hallowed) script 1) fun result =>
      Prog.always_bind (addsFor_leaveStream hallowed) fun _ => Prog.always_ret _

theorem addsFor_publish {now : ℕ} {uuid : String} {publication : Publication}
    (placed : Option (KafkaPosition × Option ℤ)) (answer : Except Kafka.KafkaError Kafka.Delivery) :
    (S.publish now uuid credentials publication placed answer).Always (AddsFor allowed) := by
  refine Prog.always_bind (Prog.always_await fun _ _ _ => addsFor_of_eq rfl) fun handed => ?_
  split
  · exact Prog.always_bind (Prog.always_access fun _ => addsFor_of_eq rfl) fun _ =>
      Prog.always_ret _
  · exact Prog.always_ret _
  · split
    · exact Prog.always_ret _
    · cases placed with
      | none => exact Prog.always_ret _
      | some place =>
        exact Prog.always_bind (Prog.always_access fun _ => addsFor_of_eq rfl) fun _ =>
          Prog.always_ret _

theorem addsFor_thread (hmode : S.api.authenticator.config.mode ≠ .disabled) {task : Task}
    (hcredentials : task.credentials = some credentials) :
    (S.thread t (order, task)).Always (AddsFor (S.Subscriber credentials)) := by
  have hnote : ∀ line, (note t line).Always (AddsFor (S.Subscriber credentials)) :=
    fun line => addsFor_of_untouched (untouched_note line)
  have hallowed : ∀ {requested : Option String} {principal : Principal},
      Admitted S.api credentials requested principal →
      S.Subscriber credentials principal.tenantId :=
    fun {_ principal} h => ⟨principal, h.identity hmode, h.subscribes, rfl⟩
  cases task with
  | websocket now headers query script =>
    cases hcredentials
    refine Prog.always_bind (hnote _) fun _ => ?_
    cases hplan : S.api.websocket now credentials query with
    | error e => exact Prog.always_ret _
    | ok result =>
      obtain ⟨principal, queueCapacity⟩ := result
      exact Prog.always_bind (addsFor_websocketSession (hallowed (websocket_admitted hplan))
        queueCapacity script) fun _ => Prog.always_ret _
  | sse now headers lastEventId query script =>
    cases hcredentials
    refine Prog.always_bind (hnote _) fun _ => ?_
    cases hplan : S.api.sse now credentials lastEventId query with
    | error e => exact Prog.always_ret _
    | ok plan =>
      have htenant : plan.filter.tenantId = plan.principal.tenantId := by
        rw [sse_filter hplan]
        rfl
      exact Prog.always_bind (Prog.always_bind (addsFor_streamSession
        (hallowed (sse_admitted hplan)) htenant script) fun _ => Prog.always_ret _)
        fun _ => Prog.always_ret _
  | subscribe now metadata request script =>
    cases hcredentials
    refine Prog.always_bind (hnote _) fun _ => ?_
    cases hplan : S.api.subscribe now credentials request with
    | error e => exact Prog.always_ret _
    | ok plan =>
      have htenant : plan.filter.tenantId = plan.principal.tenantId := by
        rw [subscribe_filter hplan]
        rfl
      exact Prog.always_bind (Prog.always_bind (addsFor_streamSession
        (hallowed (subscribe_admitted hplan)) htenant script) fun _ => Prog.always_ret _)
        fun _ => Prog.always_ret _
  | connect now metadata script =>
    cases hcredentials
    refine Prog.always_bind (hnote _) fun _ => ?_
    cases hplan : S.api.connect now credentials with
    | error e => exact Prog.always_ret _
    | ok principal =>
      exact Prog.always_bind (addsFor_connectSession (hallowed (connect_admitted hplan)) script)
        fun _ => Prog.always_ret _
  | publish now uuid headers publication placed answer =>
    exact Prog.always_bind (addsFor_publish placed answer) fun _ => Prog.always_ret _
  | webhook destination checked script => cases hcredentials
  | produce position record => cases hcredentials
  | ingest index => cases hcredentials

/-! ### What is refused -/

theorem refused_publish {now : ℕ} {uuid : String} {publication : Publication}
    (placed : Option (KafkaPosition × Option ℤ)) (answer : Except Kafka.KafkaError Kafka.Delivery)
    {G : ApiError → Prop} (h : ∀ clock limiter, ∃ e,
      S.api.publishAny ⟨now, clock, uuid⟩ credentials publication limiter = (.error e, limiter) ∧
        G e) :
    (S.publish now uuid credentials publication placed answer).Always Untouched ∧
      (S.publish now uuid credentials publication placed answer).Yields
        (fun result => ∃ e, result = .error e ∧ G e) := by
  have hadmitted : (S.admitPublication now uuid credentials publication).Yields
      (fun handed => ∃ e, handed = .error e ∧ G e) := by
    intro draw w _
    obtain ⟨e, heq, he⟩ := h draw.clock w.limiter
    exact ⟨e, congrArg Prod.fst heq, he⟩
  constructor
  · refine Prog.always_bind_yields (Prog.always_await fun _ _ _ => ⟨rfl, rfl, rfl⟩) hadmitted ?_
    rintro _ ⟨e, rfl, _⟩
    split
    · exact Prog.always_bind (Prog.always_access fun _ => ⟨rfl, rfl, rfl⟩) fun _ =>
        Prog.always_ret _
    · exact Prog.always_ret _
    · next heq => cases heq
  · refine Prog.yields_bind (Prog.yields_mono hadmitted ?_)
    rintro _ ⟨e, rfl, he⟩
    split
    · next heq =>
      cases heq
      exact Prog.yields_tail _ fun _ => ⟨_, rfl, he⟩
    · next heq =>
      cases heq
      exact ⟨e, rfl, he⟩
    · next heq => cases heq

/-- A request that names another tenant than its credentials leaves everything as it is. It ends
with `Forbidden`, unless it is refused before its tenant is looked at. -/
theorem thread_refused (hmode : S.api.authenticator.config.mode ≠ .disabled)
    (hidentity : S.api.authenticator.identity S.api.library credentials = .ok principal)
    {task : Task} (hcredentials : task.credentials = some credentials)
    (hnames : ¬ Names principal.tenantId task.requestedTenant) :
    (S.thread t (order, task)).Always Untouched ∧
      (S.thread t (order, task)).Yields (fun ending => ∃ e : ApiError,
        ending = task.refused e ∧ (e = .forbidden ∨ S.Precludes e task)) := by
  have harrival : ∀ {arrival : Arrival} {ending : Ending} {G : Ending → Prop}, G ending →
      ((note t (.arrived arrival) >>= fun _ => pure ending) : ServerProg Ending).Always
          Untouched ∧
        ((note t (.arrived arrival) >>= fun _ => pure ending) : ServerProg Ending).Yields G :=
    fun h => ⟨Prog.always_bind (untouched_note _) fun _ => Prog.always_ret _,
      Prog.yields_tail _ fun _ => h⟩
  cases task with
  | websocket now headers query script =>
    cases hcredentials
    obtain ⟨e, heq, he⟩ := websocket_refused hmode hidentity now hnames
    unfold Service.thread
    dsimp only
    rw [heq]
    exact harrival ⟨e, rfl, he⟩
  | sse now headers lastEventId query script =>
    cases hcredentials
    obtain ⟨e, heq, he⟩ := sse_refused hmode hidentity now lastEventId hnames
    unfold Service.thread
    dsimp only
    rw [heq]
    exact harrival ⟨e, rfl, he⟩
  | subscribe now metadata request script =>
    cases hcredentials
    obtain ⟨e, heq, he⟩ := subscribe_refused hmode hidentity now hnames
    unfold Service.thread
    dsimp only
    rw [heq]
    exact harrival ⟨e, rfl, he⟩
  | connect now metadata script => exact absurd (Or.inl rfl) hnames
  | publish now uuid headers publication placed answer =>
    cases hcredentials
    have hrefused : ∀ clock limiter, ∃ e,
        S.api.publishAny ⟨now, clock, uuid⟩ credentials publication limiter =
          (.error e, limiter) ∧ (e = .forbidden ∨
            S.Precludes e (.publish now uuid credentials publication placed answer)) := by
      intro clock limiter
      cases publication with
      | http request =>
        cases request with
        | none => exact absurd (Or.inl rfl) hnames
        | some request => exact publishHttp_refused hmode hidentity limiter hnames
      | grpc request => exact publishInner_refused hmode hidentity limiter hnames
    obtain ⟨hkept, hresult⟩ := refused_publish placed answer hrefused
    refine ⟨Prog.always_bind hkept fun _ => Prog.always_ret _,
      Prog.yields_bind (Prog.yields_mono hresult ?_)⟩
    rintro _ ⟨e, rfl, he⟩
    exact ⟨e, rfl, he⟩
  | webhook destination checked script => cases hcredentials
  | produce position record => cases hcredentials
  | ingest index => cases hcredentials

/-- What a WebSocket client is told when it asks for a filter of another tenant. -/
theorem answer_refused {allowed : Bool} {subscriptionId : String} {input : FilterInput}
    (hnames : ¬ Names principal.tenantId input.tenantId) :
    (S.answer t order n principal c allowed
      (.text (.command (.subscribe subscriptionId (some input))))).Always Untouched ∧
    (S.answer t order n principal c allowed
      (.text (.command (.subscribe subscriptionId (some input))))).Yields (fun reply =>
        reply = .error "tenant_mismatch" "filter tenant is not authorized" ∨
        allowed = false ∧ reply = wsRateLimited ∨
        (∃ e, SubscriptionId.new subscriptionId = .error e) ∧
          reply = .error "invalid_subscription_id" "subscription_id is invalid") := by
  cases allowed with
  | false => exact ⟨Prog.always_ret _, Or.inr (Or.inl ⟨rfl, rfl⟩)⟩
  | true =>
    unfold Service.answer Service.handleWsCommand
    dsimp only
    rw [intoFilter_refused hnames]
    cases SubscriptionId.new subscriptionId with
    | error e => exact ⟨Prog.always_ret _, Or.inr (Or.inr ⟨⟨e, rfl⟩, rfl⟩)⟩
    | ok sid => exact ⟨Prog.always_ret _, Or.inl rfl⟩

/-- A gRPC client that asks for a filter of another tenant loses its stream. -/
theorem connectTurn_refused {subscriptionId : String} {filter : ProtoRouteFilter}
    (hnames : ¬ Names principal.tenantId (some filter.tenantId)) :
    (S.connectTurn t order principal c n
      (.command (.subscribe subscriptionId (some filter)))).Always Untouched ∧
    (S.connectTurn t order principal c n
      (.command (.subscribe subscriptionId (some filter)))).Yields (fun next =>
        ∃ status, next = .done (n + 1, .error status) ∧
          (status = ApiError.forbidden.intoStatus ∨
            status = ⟨.resourceExhausted, "rate limit exceeded"⟩ ∨
            ∃ e, SubscriptionId.new subscriptionId = .error e ∧ status = .ofCore e)) := by
  obtain ⟨status, hcommand, hstatus⟩ : ∃ status,
      S.grpcSubscribe t order n principal c subscriptionId (some filter) =
        pure (.error status) ∧ (status = ApiError.forbidden.intoStatus ∨
          ∃ e, SubscriptionId.new subscriptionId = .error e ∧ status = .ofCore e) := by
    unfold Service.grpcSubscribe
    dsimp only
    rw [protoFilter_refused hnames]
    cases SubscriptionId.new subscriptionId with
    | error e => exact ⟨_, rfl, Or.inr ⟨e, rfl, rfl⟩⟩
    | ok sid => exact ⟨_, rfl, Or.inl rfl⟩
  unfold Service.connectTurn Service.connectCommand
  dsimp only
  rw [hcommand]
  constructor
  · refine Prog.always_bind (untouched_note _) fun _ => Prog.always_bind
      (Prog.always_bind (untouched_allowRate _ _) fun accepted => ?_) fun result => ?_
    · cases accepted <;> exact Prog.always_ret _
    · cases result with
      | error status => exact Prog.always_ret _
      | ok event => exact Prog.always_bind (untouched_note _) fun _ => Prog.always_ret _
  · refine Prog.yields_tail _ fun _ => Prog.yields_bind (Prog.yields_tail _ fun accepted => ?_)
    cases accepted with
    | false => exact ⟨_, rfl, Or.inr (Or.inl rfl)⟩
    | true => exact ⟨status, rfl, hstatus.imp_right Or.inr⟩

theorem elsewhere_leaveStream :
    (S.leaveStream t order n c).Always (fun w w' => ∀ c', c' ≠ c →
      w'.router.connections.lookup c' = w.router.connections.lookup c') := by
  have hcall : ∀ {n : ℕ} {request : Request}, Solely c request →
      (S.call t order n request).Always (fun w w' => ∀ c', c' ≠ c →
        w'.router.connections.lookup c' = w.router.connections.lookup c') :=
    fun hsolely => Prog.always_zoom (conduct_serve order) fun _ _ h => h.elsewhere c hsolely
  exact Prog.always_bind (hcall rfl) fun _ => Prog.always_bind (hcall rfl) fun _ =>
    Prog.always_ret _

end Requests
end KafkaEdgeRouter.Stream
