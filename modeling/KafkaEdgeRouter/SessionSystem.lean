import KafkaEdgeRouter.ConcurrentSafety
import KafkaEdgeRouter.CredentialTenants
import KafkaEdgeRouter.GaugeAccounts
import KafkaEdgeRouter.RetrySchedules
import KafkaEdgeRouter.SessionThreads
import KafkaEdgeRouter.ThreadAccounts

/-!
# The server under any number of sessions

Sessions and dispatches come and go, interleaved access by access. In every such run what a client
was told is what the router holds for it, what it was shown is what the router accepted for it, and
a session that has ended has left nothing behind.
-/

namespace KafkaEdgeRouter.Stream

open Api Router InvertedIndex

abbrev Sessions := Pool Server Draw Ending

def Sessions.start (limiter : RateState) : Sessions := ⟨⟨Shared.new, limiter, fun _ => [], []⟩, []⟩

def Sessions.ledger (P : Sessions) (t : ℕ) : Ledger := Stream.ledger (P.shared.transcripts t)

/-- The states of the server under any number of sessions and dispatches in any interleaving. -/
def Service.Reachable (S : Service) (P : Sessions) : Prop :=
  ∃ limiter, (Sessions.start limiter).Reaches S.thread P

def sessionsAfter (S : Service) (moves : List (Move (HashOrder × Task) Draw)) : Sessions :=
  ((Sessions.start ⟨0, 0, 0, ∅⟩).run S.thread moves).getD (Sessions.start ⟨0, 0, 0, ∅⟩)

theorem reachable_sessionsAfter {S : Service} {moves : List (Move (HashOrder × Task) Draw)}
    (h : ((Sessions.start ⟨0, 0, 0, ∅⟩).run S.thread moves).isSome = true) :
    S.Reachable (sessionsAfter S moves) := by
  obtain ⟨P, hP⟩ := Option.isSome_iff_exists.mp h
  exact ⟨_, moves, by rw [sessionsAfter, hP]; rfl⟩

/-- A tenant that may publish, behind a proxy that names it. -/
def acmeService : Service := ⟨acmeApi, {}, 1024⟩

def acmePrincipal : Principal := ⟨"acme", true, true⟩

def acting (t id accesses : ℕ) : List (Move (HashOrder × Task) Draw) :=
  List.replicate accesses (.act t ⟨⟨id⟩, ⟨0, 0, 0⟩, ⟨0, 0, 0⟩⟩)

def acmeOpening : List (Move (HashOrder × Task) Draw) :=
  .spawn (.listed, .websocket 0 acmeCredentials {}
    [.incoming (some (.text (.command (.subscribe "all" (some {}))))) true, .delivery true,
      .incoming none true]) :: acting 0 7 25

/-- A message is published over gRPC, and its record ingested. -/
def acmePublishing (t : ℕ) : List (Move (HashOrder × Task) Draw) :=
  .spawn (.listed, .publish 0 "u-1" acmeCredentials (.grpc (acmeFields.grpc [123, 125]))
    (some (⟨"events", 0, 0⟩, none)) (.ok ⟨0, 0⟩)) :: acting t 7 2 ++
  .spawn (.listed, .ingest 0) :: acting (t + 1) 7 8

def acmeOrder : RoutedMessage where
  metadata := ⟨"m-1", "acme", some "order", none, none, none, none, none, "application/json", none,
    some ⟨"events", 0, 0⟩⟩
  payload := [123, 125]
  traceContext := none
  valid := by decide

/-- Meanwhile a gRPC client connects with the same credentials. -/
def acmeDispatch : List (Move (HashOrder × Task) Draw) :=
  acmePublishing 1 ++ .spawn (.listed, .connect 0 acmeCredentials [.dropped]) :: acting 3 8 10

/-- The client takes the message, and goes; then the other one goes. -/
def acmeServing : List (Move (HashOrder × Task) Draw) := acmeOpening ++ acmeDispatch ++ acting 0 7 2

def acmeClosing : List (Move (HashOrder × Task) Draw) :=
  acmeServing ++ acting 0 7 11 ++ acting 3 8 9

def acmeOpened : Sessions := sessionsAfter acmeService acmeOpening

def acmeServed : Sessions := sessionsAfter acmeService acmeServing

def acmeClosed : Sessions := sessionsAfter acmeService acmeClosing

theorem reachable_acmeOpened : acmeService.Reachable acmeOpened := reachable_sessionsAfter rfl

theorem reachable_acmeServed : acmeService.Reachable acmeServed := reachable_sessionsAfter rfl

theorem reachable_acmeClosed : acmeService.Reachable acmeClosed := reachable_sessionsAfter rfl

theorem opened_acmeOpened : (acmeOpened.ledger 0).opened = some (⟨7⟩, acmePrincipal) := by rfl

theorem opened_acmeServed : (acmeServed.ledger 0).opened = some (⟨7⟩, acmePrincipal) := by rfl

theorem connected_acmeServed : (acmeServed.ledger 3).opened = some (⟨8⟩, acmePrincipal) := by rfl

section System

variable {S : Service} {P P' : Sessions} {t : ℕ} {c : ConnectionId} {principal : Principal}

theorem stable_unborn (t : ℕ) : (S.protocol.contract t).Stable (S.protocol.fresh t) := by
  rintro w w' _ _ ⟨u, hu, hg, _, htranscripts, _, _⟩ ⟨hlock, hevents, htranscript⟩
  obtain ⟨hlock', hevents'⟩ := hg.unused hu ⟨hlock, hevents⟩
  exact ⟨hlock', hevents', (htranscripts t hu.symm).trans htranscript⟩

theorem faithful_new (t : ℕ) (s : Shared) : Faithful S t (ledger []) s := by
  refine ⟨⟨fun _ _ hopened => ?_, fun _ _ hl => ?_, Or.inl rfl, fun _ => rfl, rfl⟩,
    fun _ _ hopened => ?_⟩
  · cases hopened
  · cases hl
  · cases hopened

theorem traced_new : Traced S [] Shared.new :=
  ⟨fun _ _ hmem => absurd hmem List.not_mem_nil, fun _ hmem => absurd hmem List.not_mem_nil⟩

theorem holds_start (limiter : RateState) :
    S.protocol.Holds id (fun t (ending : Ending) => Parted t ending.Failed)
      (Sessions.start limiter) := by
  refine ⟨⟨inv_new S.router, fun t => faithful_new t _, ?_, traced_new⟩, fun k p hp => ?_,
    fun k _ => ?_⟩
  · intro c connection hl
    cases hl
  · cases hp
  · exact ⟨nofun, fun e he => absurd he List.not_mem_nil, rfl⟩

theorem Service.Reachable.holds (h : S.Reachable P) :
    S.protocol.Holds id (fun t (ending : Ending) => Parted t ending.Failed) P := by
  obtain ⟨limiter, hrun⟩ := h
  exact Protocol.holds_run Function.injective_id stable_unborn
    (fun t task w hinv hfresh => sat_thread task hinv hfresh) (holds_start limiter) hrun

theorem Service.Reachable.inv (h : S.Reachable P) :
    Inv S.router (fun _ => False) P.shared.router :=
  h.holds.inv.router

theorem Service.Reachable.faithful (h : S.Reachable P) (t : ℕ) :
    Faithful S t (P.ledger t) P.shared.router :=
  h.holds.inv.faithful t

theorem Service.Reachable.agrees (h : S.Reachable P)
    (hopened : (P.ledger t).opened = some (c, principal)) :
    Agrees t (P.ledger t) c principal P.shared.router :=
  (h.faithful t).agrees c principal hopened

theorem Service.Reachable.tenant_of_registered (h : S.Reachable P)
    (hopened : (P.ledger t).opened = some (c, principal)) {registrar : CallId} {tenantId : String}
    (hmem : .registered registrar c tenantId ∈ P.shared.router.history) :
    tenantId = principal.tenantId := by
  obtain ⟨serial, hmem'⟩ := (h.agrees hopened).registered
  exact h.inv.base.tenant_unique hmem hmem'

/-! ### Subscriptions -/

/-- A client that waits for no answer has just the subscriptions that it was told of, as long as its
connection is registered. They are also what the index has for the connection whenever nobody
changes it. -/
theorem told_subscriptions_are_held (h : S.Reachable P)
    (hopened : (P.ledger t).opened = some (c, principal)) (hidle : (P.ledger t).handling = none)
    {connection : ConnectionState}
    (hl : P.shared.router.connections.lookup c = some connection) :
    connection.tenantId = principal.tenantId ∧
    connection.subscriptions = (P.ledger t).held ∧
    (P.shared.router.mutationLock = none → ∀ k sid, sid ∈ items P.shared.router.routes k c ↔
      ∃ filter, (P.ledger t).held.lookup sid = some filter ∧ RouteKey.ofFilter filter = k) := by
  have hheld := (h.agrees hopened).held hidle connection hl
  refine ⟨?_, hheld, fun hlock k sid => ?_⟩
  · obtain ⟨call, hmem⟩ := h.inv.base.registered c connection hl
    exact h.tenant_of_registered hopened hmem
  · have hr : P.shared.router.registry.connections.lookup c = some connection.toRegistration := by
      rw [registry_lookup, hl]
      rfl
    refine ((h.inv.reachable hlock).consistent.mem_iff k c sid).trans ?_
    constructor
    · rintro ⟨filter, ⟨r, hr', hsid⟩, hk⟩
      rw [hr] at hr'
      cases hr'
      exact ⟨filter, hheld ▸ hsid, hk⟩
    · rintro ⟨filter, hsid, hk⟩
      exact ⟨filter, ⟨connection.toRegistration, hr, hheld ▸ hsid⟩, hk⟩

theorem told_subscriptions_are_held_acme :
    (acmeOpened.ledger 0).held.lookup ⟨"all"⟩ = some acmeFilter ∧
    ⟨"all"⟩ ∈ items acmeOpened.shared.router.routes (RouteKey.ofFilter acmeFilter) ⟨7⟩ :=
  ⟨rfl, ((told_subscriptions_are_held reachable_acmeOpened opened_acmeOpened rfl rfl).2.2 rfl
    _ _).mpr ⟨acmeFilter, rfl, rfl⟩⟩

/-! ### Deliveries -/

/-- What a client was shown, at most one delivery in the hands of its session, and the queue make up
what the router accepted for the connection, in this order. Nothing is in hand or queued once the
session has found its queue drained. -/
theorem shown_deliveries_are_accepted (h : S.Reachable P)
    (hopened : (P.ledger t).opened = some (c, principal)) :
    ∃ hand channel, P.shared.router.channels.lookup c = some channel ∧ hand.length ≤ 1 ∧
      (P.ledger t).shown ++ hand ++ channel.queue =
        P.shared.router.history.filterMap (Event.acceptedBy c) ∧
      ((P.ledger t).drained = true →
        c ∉ P.shared.router.connections ∧ hand = [] ∧ channel.queue = []) := by
  obtain ⟨channel, hl, hreceived, hdrained⟩ := (h.agrees hopened).taken
  have hsound := (h.faithful t).sound
  have hlog : channel.received ++ channel.queue = _ := h.inv.base.log c channel hl
  rw [hreceived] at hlog
  have hhand : ∃ hand, (P.ledger t).taken = (P.ledger t).shown ++ hand ∧ hand.length ≤ 1 := by
    rcases hsound.shown with heq | ⟨delivery, heq⟩
    · exact ⟨[], by rw [heq, List.append_nil], Nat.zero_le 1⟩
    · exact ⟨[delivery], heq, Nat.le_refl 1⟩
  obtain ⟨hand, hhand, hlength⟩ := hhand
  rw [hhand] at hlog
  refine ⟨hand, channel, hl, hlength, hlog, fun hd => ?_⟩
  obtain ⟨hgone, hqueue⟩ := hdrained hd
  have hcaught := hsound.caught hd
  rw [hhand] at hcaught
  exact ⟨hgone, List.append_cancel_left (hcaught.trans (List.append_nil _).symm), hqueue⟩

/-- The first full queue is one too many. -/
def strictService : Service := ⟨acmeApi, { slowConsumerStrikes := 1 }, 1024⟩

/-- A session with room for one delivery. The record is ingested once more while the first delivery
is in the queue, which evicts the connection; then the client is shown the delivery. -/
def acmeEvicted : Sessions :=
  sessionsAfter strictService
    (.spawn (.listed, .websocket 0 acmeCredentials { queueCapacity := some 1 }
      [.incoming (some (.text (.command (.subscribe "all" (some {}))))) true, .delivery true,
        .delivery true]) :: acting 0 7 25 ++ acmePublishing 1 ++
      .spawn (.listed, .ingest 0) :: acting 3 7 15 ++ acting 0 7 3)

theorem shown_deliveries_are_accepted_acme :
    (acmeEvicted.ledger 0).opened = some (⟨7⟩, acmePrincipal) ∧
    (acmeEvicted.ledger 0).drained = true ∧ ⟨7⟩ ∉ acmeEvicted.shared.router.connections ∧
    acmeEvicted.shared.router.history.filterMap (Event.acceptedBy ⟨7⟩) =
      [⟨acmeOrder, [⟨"all"⟩]⟩] := by
  have hreachable : strictService.Reachable acmeEvicted := reachable_sessionsAfter rfl
  have hopened : (acmeEvicted.ledger 0).opened = some (⟨7⟩, acmePrincipal) := rfl
  have hshown : (acmeEvicted.ledger 0).shown = [⟨acmeOrder, [⟨"all"⟩]⟩] := rfl
  obtain ⟨hand, channel, _, _, hlog, hdrained⟩ :=
    shown_deliveries_are_accepted hreachable hopened
  obtain ⟨hgone, rfl, hqueue⟩ := hdrained rfl
  refine ⟨hopened, rfl, hgone, ?_⟩
  rw [← hlog, hqueue, hshown]
  rfl

/-! ### Webhooks -/

theorem Service.Reachable.shown_begins (h : S.Reachable P)
    (hopened : (P.ledger t).opened = some (c, principal)) :
    (P.ledger t).shown <+: P.shared.router.history.filterMap (Event.acceptedBy c) := by
  obtain ⟨channel, hl, hreceived, _⟩ := (h.agrees hopened).taken
  rw [← h.inv.base.log c channel hl, Channel.log, hreceived]
  rcases (h.faithful t).sound.shown with heq | ⟨delivery, heq⟩
  · rw [heq]
    exact List.prefix_append _ _
  · rw [heq, List.append_assoc]
    exact List.prefix_append _ _

theorem Service.Reachable.tenant_of_accepted (h : S.Reachable P)
    (hopened : (P.ledger t).opened = some (c, principal)) {delivery : Delivery}
    (hmem : delivery ∈ P.shared.router.history.filterMap (Event.acceptedBy c)) :
    delivery.message.metadata.tenantId = principal.tenantId := by
  obtain ⟨e, he, haccepted⟩ := List.mem_filterMap.mp hmem
  obtain ⟨call, rfl⟩ := acceptedBy_eq_some haccepted
  obtain ⟨before, after, heq, _, _, ⟨registrar, hregistered⟩, _⟩ := h.inv.base.justified.of_mem he
  have hmem' : .registered registrar c delivery.message.metadata.tenantId ∈
      P.shared.router.history := heq ▸ List.mem_append_left _ hregistered
  exact h.tenant_of_registered hopened hmem'

theorem Service.Reachable.courses (h : S.Reachable P)
    {destination : Webhook.WebhookDestinationConfig}
    (harrival : (P.ledger t).arrival = some (.webhook destination)) :
    Courses (Webhook.WebhookWorker.new destination).maxAttempts (P.ledger t).shown
      (P.ledger t).posts := by
  have horderly := (h.faithful t).sound.orderly
  rwa [Orderly, harrival] at horderly

/-- A volatile webhook makes its attempts one delivery after the other, in the order in which the
router accepted them: the deliveries of its first attempts are a beginning of what was accepted, an
attempt follows one with a result that allows it or begins the next delivery after one that is over,
and no number exceeds the limit. All it posts is for the tenant of its destination. -/
theorem webhook_attempts_in_order (h : S.Reachable P)
    {destination : Webhook.WebhookDestinationConfig}
    (harrival : (P.ledger t).arrival = some (.webhook destination))
    (hopened : (P.ledger t).opened = some (c, principal)) :
    ((P.ledger t).posts.filter (fun post => post.attempt = 1)).map Post.delivery <+:
      P.shared.router.history.filterMap (Event.acceptedBy c) ∧
    (P.ledger t).posts.IsChain (Follows (Webhook.WebhookWorker.new destination).maxAttempts) ∧
    (∀ post ∈ (P.ledger t).posts.head?, post.attempt = 1) ∧
    ∀ post ∈ (P.ledger t).posts,
      (1 ≤ post.attempt ∧ post.attempt ≤ (Webhook.WebhookWorker.new destination).maxAttempts) ∧
      post.delivery.message.metadata.tenantId = destination.filter.tenantId := by
  have hcourses := h.courses harrival
  have hbegins := h.shown_begins hopened
  have hone : 1 ≤ (Webhook.WebhookWorker.new destination).maxAttempts := Nat.le_max_right _ _
  have hprincipal : principal = webhookPrincipal destination := by
    obtain ⟨arrival, harrival', hadmits⟩ := (h.faithful t).sound.admitted c principal hopened
    cases harrival.symm.trans harrival'
    exact hadmits
  refine ⟨hcourses.shown ▸ hbegins, hcourses.chain, hcourses.first, ?_⟩
  refine hcourses.forall (fun post hmem hattempt => ⟨by omega, ?_⟩) ?_
  · have hshown : post.delivery ∈ (P.ledger t).shown := by
      rw [← hcourses.shown]
      exact List.mem_map_of_mem (List.mem_filter.mpr ⟨hmem, decide_eq_true hattempt⟩)
    rw [h.tenant_of_accepted hopened (hbegins.subset hshown), hprincipal]
    rfl
  · rintro post next ⟨hbounds, htenant⟩ hdelivery hattempt hlimit
    exact ⟨by omega, hdelivery ▸ htenant⟩

def acmePosting : List (Move (HashOrder × Task) Draw) :=
  .spawn (.listed, .webhook Webhook.DurableWorker.ordersDestination (.ok ())
    [.delivery false Webhook.DurableWorker.busyAtFirst none]) :: acting 0 7 22 ++
  acmePublishing 1 ++ acting 0 7 5

def acmePosted : Sessions := sessionsAfter acmeService acmePosting

theorem webhook_attempts_in_order_acme :
    (acmePosted.ledger 0).posts = [⟨⟨acmeOrder, [⟨"webhook:orders"⟩]⟩, 1, some .retryable⟩,
      ⟨⟨acmeOrder, [⟨"webhook:orders"⟩]⟩, 2, some (.delivered 200)⟩] ∧
    (acmePosted.ledger 0).posts.IsChain
      (Follows (Webhook.WebhookWorker.new Webhook.DurableWorker.ordersDestination).maxAttempts) :=
  ⟨rfl, (webhook_attempts_in_order (S := acmeService) (reachable_sessionsAfter rfl)
    rfl (show _ = some (⟨7⟩, ⟨"acme", true, false⟩) from rfl)).2.1⟩

/-! ### Endings -/

theorem Service.Reachable.parted (h : S.Reachable P) {ending : Ending}
    (hret : P.threads[t]? = some (.ret ending)) : Parted t ending.Failed P.shared :=
  h.holds.sat t _ hret P.shared h.holds.inv (Contract.rely_refl _ _)

theorem Service.Reachable.no_routes (h : S.Reachable P)
    (hlock : P.shared.router.mutationLock = none) (hc : c ∉ P.shared.router.connections)
    (k : RouteKey) : items P.shared.router.routes k c = [] := by
  rw [List.eq_nil_iff_forall_not_mem]
  intro sid hsid
  obtain ⟨filter, ⟨r, hr, _⟩, _⟩ := ((h.inv.reachable hlock).consistent.mem_iff k c sid).mp hsid
  rw [registry_lookup] at hr
  obtain ⟨connection, hl, _⟩ := Option.map_eq_some_iff.mp hr
  exact hc (AList.mem_of_lookup hl)

/-- A session that has come to its end, however it ended, has no connection in the router and, as
soon as nobody changes the registry, no route in the index. -/
theorem ended_sessions_leave_nothing (h : S.Reachable P) {ending : Ending}
    (hret : P.threads[t]? = some (.ret ending))
    (hopened : (P.ledger t).opened = some (c, principal)) :
    c ∉ P.shared.router.connections ∧ P.shared.router.mutationLock ≠ some t ∧
    (P.shared.router.mutationLock = none → ∀ k, items P.shared.router.routes k c = []) := by
  obtain ⟨⟨hlock, hretired⟩, _⟩ := h.parted hret
  have hc := hretired c (h.agrees hopened).owns
  exact ⟨hc, hlock, fun hfree => h.no_routes hfree hc⟩

theorem ended_sessions_leave_nothing_acme : (acmeClosed.ledger 0).opened =
    some (⟨7⟩, acmePrincipal) ∧ ⟨7⟩ ∉ acmeClosed.shared.router.connections :=
  ⟨rfl, (ended_sessions_leave_nothing (S := acmeService) (t := 0) reachable_acmeClosed
    (show _ = some (Prog.ret (Ending.http (.ok ()))) from rfl) rfl).1⟩

theorem ret_of_isRet {σ ι α : Type} {p : Prog σ ι α} (h : p.isRet = true) : ∃ a, p = .ret a := by
  cases p with
  | ret a => exact ⟨a, rfl⟩
  | act e u k => cases h

/-- A server all of whose sessions and dispatches have come to an end is as it was before any of
them: no connection, no route, nothing on the gauges, and nobody has the lock. -/
theorem quiet_server_is_empty (h : S.Reachable P) (hended : ∀ p ∈ P.threads, p.isRet = true) :
    P.shared.router.connections = ∅ ∧ P.shared.router.mutationLock = none ∧
    P.shared.router.routes = ∅ ∧
    ∀ protocol, P.shared.router.gauges.activeConnections protocol = 0 ∧
      P.shared.router.gauges.activeSubscriptions protocol = 0 := by
  have hthread : ∀ u, (P.shared.router.mutationLock = some u ∨
      ∃ e ∈ P.shared.router.history, e.call.thread = u) → Ended u P.shared := by
    intro u hu
    cases hp : P.threads[u]? with
    | none =>
      have hfresh := h.holds.fresh u (List.getElem?_eq_none_iff.mp hp)
      rcases hu with hu | ⟨e, he, hu⟩
      · exact absurd hu hfresh.1
      · exact absurd hu (hfresh.2.1 e he)
    | some p =>
      obtain ⟨ending, rfl⟩ := ret_of_isRet (hended p (List.mem_of_getElem? hp))
      exact (h.parted hp).1
  have hconnections : P.shared.router.connections = ∅ := by
    refine AList.eq_empty_of_lookup (fun c => Option.eq_none_iff_forall_ne_some.mpr ?_)
    intro connection hl
    obtain ⟨call, hmem⟩ := h.inv.base.registered c connection hl
    have hretired := (hthread call.thread (Or.inr ⟨_, hmem, rfl⟩)).2
    exact hretired c ⟨call.serial, connection.tenantId, hmem⟩ (AList.mem_of_lookup hl)
  have hlock : P.shared.router.mutationLock = none := by
    refine Option.eq_none_iff_forall_ne_some.mpr (fun u hu => ?_)
    exact (hthread u (Or.inl hu)).1 hu
  have hreachable := h.inv.reachable hlock
  have hempty : P.shared.router.registry.connections = ∅ := by
    refine AList.eq_empty_of_lookup (fun c => ?_)
    rw [registry_lookup, hconnections]
    rfl
  refine ⟨hconnections, hlock, hreachable.consistent.routes_eq_empty hempty, fun protocol => ?_⟩
  obtain ⟨hconn, hsubs⟩ := hreachable.metered
  refine ⟨(hconn protocol).trans ?_, (hsubs protocol).trans ?_⟩
  · rw [Registry.connectionsByProtocol, hempty]
    rfl
  · rw [Registry.subscriptionsByProtocol, hempty]
    rfl

theorem quiet_server_is_empty_acme : acmeClosed.threads.length = 4 ∧
    acmeClosed.shared.router.connections = ∅ :=
  ⟨rfl, (quiet_server_is_empty reachable_acmeClosed (by decide)).1⟩

/-! ### Isolation -/

/-- What may happen to a session that rests: its transcript stays, and its connection is at most fed
or cut off. -/
structure Spared (u : ℕ) (c : ConnectionId) (w w' : Server) : Prop where
  transcript : w'.transcripts u = w.transcripts u
  cut : OnlyCut c w.router w'.router
  fed : OnlyFed c w.router w'.router
  history : w.router.history <+: w'.router.history

theorem Spared.refl (u : ℕ) (c : ConnectionId) (w : Server) : Spared u c w w :=
  ⟨rfl, .of_eq rfl, .of_eq rfl, List.prefix_refl _⟩

theorem Spared.trans {u : ℕ} {w w' w'' : Server} (h : Spared u c w w') (h' : Spared u c w' w'') :
    Spared u c w w'' := by
  refine ⟨h'.transcript.trans h.transcript, fun connection'' hl'' => ?_,
    ⟨fun channel hl => ?_, fun hgone => ?_⟩, h.history.trans h'.history⟩
  · obtain ⟨connection', hl', heq'⟩ := h'.cut connection'' hl''
    obtain ⟨connection, hl, heq⟩ := h.cut connection' hl'
    exact ⟨connection, hl, heq'.trans heq⟩
  · obtain ⟨channel', hl', hreceived, hclosed⟩ := h.fed.channel channel hl
    obtain ⟨channel'', hl'', hreceived', hclosed'⟩ := h'.fed.channel channel' hl'
    exact ⟨channel'', hl'', hreceived'.trans hreceived, hclosed'.trans hclosed⟩
  · exact (h'.fed.gone (h.cut.gone hgone)).trans (h.fed.gone hgone)

theorem Service.Reachable.spared (h : S.Reachable P) {u : ℕ} {m : Move (HashOrder × Task) Draw}
    (hm : P.move S.thread m = some P') (hrests : ∀ draw, m ≠ .act u draw)
    (hopened : (P.ledger u).opened = some (c, principal)) : Spared u c P.shared P'.shared := by
  rcases Pool.move_cases S.thread hm with ⟨task, _, rfl⟩ | ⟨t, i, e, f, k, rfl, hthread, he, rfl⟩
  · exact Spared.refl u c P.shared
  · have hne : u ≠ t := fun heq => hrests i (heq ▸ rfl)
    obtain ⟨⟨hg, hc, htranscripts, _, _⟩, _⟩ :=
      h.holds.act Function.injective_id stable_unborn hthread he
    obtain ⟨hcut, hfed⟩ := hc u c hne (h.agrees hopened).owns
    obtain ⟨events, hh, _⟩ := hg.history
    exact ⟨htranscripts u hne, hcut, hfed, hh ▸ List.prefix_append _ _⟩

theorem Service.Reachable.move (h : S.Reachable P) {m : Move (HashOrder × Task) Draw}
    (hm : P.move S.thread m = some P') : S.Reachable P' := by
  obtain ⟨limiter, moves, hrun⟩ := h
  exact ⟨limiter, moves ++ [m], Pool.run_concat.mpr ⟨P, hrun, hm⟩⟩

theorem Service.Reachable.spared_run (h : S.Reachable P) {u : ℕ}
    (hopened : (P.ledger u).opened = some (c, principal))
    {moves : List (Move (HashOrder × Task) Draw)} (hrun : P.run S.thread moves = some P')
    (hrests : ∀ draw, .act u draw ∉ moves) :
    S.Reachable P' ∧ Spared u c P.shared P'.shared := by
  induction moves generalizing P with
  | nil =>
    cases hrun
    exact ⟨h, Spared.refl u c _⟩
  | cons m moves ih =>
    obtain ⟨P₁, hm, hrest⟩ := Option.bind_eq_some_iff.mp hrun
    have hspared := h.spared hm
      (fun draw heq => hrests draw (heq ▸ List.mem_cons_self)) hopened
    have hledger : Sessions.ledger P₁ u = P.ledger u := congrArg Stream.ledger hspared.transcript
    have hopened₁ : (Sessions.ledger P₁ u).opened = some (c, principal) := hledger ▸ hopened
    obtain ⟨h', hspared'⟩ := ih (h.move hm) hopened₁ hrest
      (fun draw hmem => hrests draw (List.mem_cons_of_mem m hmem))
    exact ⟨h', hspared.trans hspared'⟩

/-- While a session rests, whatever the others do, its subscriptions stay as they are unless its
connection is cut off as a whole. Its receiver has taken what it had taken, and its queue only grows
at the end, by what the router accepts for the connection. -/
theorem resting_sessions_keep_their_connection (h : S.Reachable P) {u : ℕ}
    (hopened : (P.ledger u).opened = some (c, principal))
    {moves : List (Move (HashOrder × Task) Draw)} (hrun : P.run S.thread moves = some P')
    (hrests : ∀ draw, .act u draw ∉ moves) :
    P'.ledger u = P.ledger u ∧
    (∀ connection', P'.shared.router.connections.lookup c = some connection' →
      ∃ connection, P.shared.router.connections.lookup c = some connection ∧
        connection'.subscriptions = connection.subscriptions) ∧
    ∃ channel channel' accepted, P.shared.router.channels.lookup c = some channel ∧
      P'.shared.router.channels.lookup c = some channel' ∧
      channel'.received = channel.received ∧ channel'.queue = channel.queue ++ accepted ∧
      P'.shared.router.history.filterMap (Event.acceptedBy c) =
        P.shared.router.history.filterMap (Event.acceptedBy c) ++ accepted := by
  obtain ⟨h', hspared⟩ := h.spared_run hopened hrun hrests
  refine ⟨congrArg ledger hspared.transcript, fun connection' hl' => ?_, ?_⟩
  · obtain ⟨connection, hl, heq⟩ := hspared.cut connection' hl'
    exact ⟨connection, hl, congrArg Registration.subscriptions heq⟩
  · obtain ⟨channel, hl, _, _⟩ := (h.agrees hopened).taken
    obtain ⟨channel', hl', hreceived, _⟩ := hspared.fed.channel channel hl
    obtain ⟨events, hh⟩ := hspared.history
    have hlog : channel.received ++ channel.queue = _ := h.inv.base.log c channel hl
    have hlog' : channel'.received ++ channel'.queue = _ := h'.inv.base.log c channel' hl'
    have hgrown : P'.shared.router.history.filterMap (Event.acceptedBy c) =
        P.shared.router.history.filterMap (Event.acceptedBy c) ++
          events.filterMap (Event.acceptedBy c) := by
      rw [← hh, List.filterMap_append]
    refine ⟨channel, channel', events.filterMap (Event.acceptedBy c), hl, hl', hreceived, ?_,
      hgrown⟩
    rw [hgrown, ← hlog, hreceived, List.append_assoc] at hlog'
    exact List.append_cancel_left hlog'

theorem resting_sessions_keep_their_connection_acme :
    acmeOpened.run acmeService.thread acmeDispatch = some (sessionsAfter acmeService
      (acmeOpening ++ acmeDispatch)) ∧
    (Sessions.ledger (sessionsAfter acmeService (acmeOpening ++ acmeDispatch)) 0) =
      acmeOpened.ledger 0 := by
  have hrun : acmeOpened.run acmeService.thread acmeDispatch = some (sessionsAfter acmeService
      (acmeOpening ++ acmeDispatch)) := rfl
  refine ⟨hrun, (resting_sessions_keep_their_connection reachable_acmeOpened opened_acmeOpened
    hrun (fun draw hmem => ?_)).1⟩
  simp [acmeDispatch, acmePublishing, acting] at hmem

end System
end KafkaEdgeRouter.Stream
