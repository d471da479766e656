import KafkaEdgeRouter.DispatchRefinement
import KafkaEdgeRouter.LockDiscipline
import KafkaEdgeRouter.SessionSystem

/-!
# The server does not lock up

Whoever holds the mutation lock never waits for anything: not for a queue, not for a record, not for
a client and not for the lock itself. So a server in which no thread can act is waiting for its
surroundings, and a session that leaves is not kept from its end.
-/

namespace KafkaEdgeRouter

/-! ### Calls of the router -/

namespace Router

/-- A call waits for the mutation lock and nothing else. -/
def lockDiscipline : LockDiscipline Shared ConnectionId := ⟨Shared.mutationLock, fun _ => False⟩

instance : Nonempty ConnectionId := ⟨⟨0⟩⟩

section Calls

variable {t n : ℕ} {held : Bool} {config : RouterConfig} {order : HashOrder} {c : ConnectionId}
  {sid : SubscriptionId} {filter : RouteFilter} {α β : Type}

theorem exists_unused (l : List ConnectionId) : ∃ id, id ∉ l := by
  obtain ⟨bound, hbound⟩ : ∃ bound, ∀ id ∈ l, id.uuid < bound := by
    induction l with
    | nil => exact ⟨0, by simp⟩
    | cons id l ih =>
      obtain ⟨bound, hbound⟩ := ih
      refine ⟨max bound (id.uuid + 1), List.forall_mem_cons.mpr ⟨by omega, fun id' hid' => ?_⟩⟩
      have := hbound id' hid'
      omega
  exact ⟨⟨bound⟩, fun hmem => absurd (hbound _ hmem) (Nat.lt_irrefl bound)⟩

theorem sections_step {f : Shared → β × Shared} {k : β → RouterProg α} {after : Bool}
    (hf : ∀ s, (f s).2.mutationLock = s.mutationLock)
    (hk : ∀ b, (k b).Sections lockDiscipline t after held) :
    (Prog.access f >>= k).Sections lockDiscipline t after held :=
  Prog.sections_bind (Prog.sections_access hf) hk

theorem sections_withMutationLock {body : RouterProg α} {events : α → List Event}
    (hbody : body.Sections lockDiscipline t true true) :
    (withMutationLock ⟨t, n⟩ body events).Sections lockDiscipline t false false := by
  refine Prog.sections_bind (Prog.sections_lock (fun s hs => ⟨⟨0⟩, ?_⟩) (fun _ s he => ⟨?_, rfl⟩))
    (fun _ => ?_)
  · exact Option.isNone_iff_eq_none.mpr hs
  · exact Option.isNone_iff_eq_none.mp he
  · exact Prog.sections_bind hbody fun result =>
      Prog.sections_bind (Prog.sections_unlock fun _ => rfl) fun _ => Prog.sections_ret _ _ _ _

theorem sections_registerConnection (tenantId : String) (protocol : DeliveryProtocol)
    (queueCapacity : Option ℕ) :
    (registerConnection config ⟨t, n⟩ tenantId protocol queueCapacity).Sections lockDiscipline t
      false false := by
  unfold registerConnection
  split
  · exact Prog.sections_ret _ _ _ _
  · dsimp only
    split_ifs
    · exact Prog.sections_ret _ _ _ _
    · refine sections_withMutationLock (sections_step (fun _ => rfl) fun connections =>
        sections_step (fun _ => rfl) fun tenantConnections => ?_)
      split_ifs
      · exact sections_step (fun _ => rfl) fun _ => Prog.sections_ret _ _ _ _
      · refine Prog.sections_bind (Prog.sections_await (fun s => ?_) (fun _ _ => rfl)) fun id =>
          sections_step (fun _ => rfl) fun _ => Prog.sections_ret _ _ _ _
        obtain ⟨id, hid⟩ := exists_unused s.channels.keys
        exact ⟨id, decide_eq_true hid⟩

theorem insertSubscription_lock (s : Shared) :
    (insertSubscription config c sid filter s).2.mutationLock = s.mutationLock := by
  unfold insertSubscription
  split
  · rfl
  · split_ifs <;> rfl

theorem sections_subscribe :
    (subscribe config ⟨t, n⟩ c sid filter).Sections lockDiscipline t false false := by
  unfold subscribe
  split
  · exact Prog.sections_ret _ _ _ _
  · refine sections_withMutationLock (sections_step (fun _ => rfl) fun tenant => ?_)
    cases tenant with
    | none => exact Prog.sections_ret _ _ _ _
    | some tenantId =>
      refine sections_step (fun _ => rfl) fun total =>
        sections_step (fun _ => rfl) fun tenantTotal => ?_
      split_ifs
      · exact sections_step (fun _ => rfl) fun _ => Prog.sections_ret _ _ _ _
      · refine sections_step insertSubscription_lock fun result => ?_
        cases result with
        | error e => exact Prog.sections_ret _ _ _ _
        | ok protocol =>
          exact sections_step (fun _ => rfl) fun _ =>
            sections_step (fun _ => rfl) fun _ => Prog.sections_ret _ _ _ _

theorem sections_removeFromRoute :
    (removeFromRoute c sid filter).Sections lockDiscipline t held held :=
  sections_step (fun _ => rfl) fun _ => Prog.sections_access fun _ => rfl

theorem sections_unsubscribe :
    (unsubscribe ⟨t, n⟩ c sid).Sections lockDiscipline t false false := by
  refine sections_withMutationLock (sections_step (fun s => ?_) fun result => ?_)
  · rcases takeSubscription_cases c sid s with ⟨e, heq⟩ | ⟨r, filter, _, _, heq⟩
    · rw [heq]
    · rw [heq]
  · cases result with
    | error e => exact Prog.sections_ret _ _ _ _
    | ok removed =>
      exact Prog.sections_bind sections_removeFromRoute fun _ =>
        sections_step (fun _ => rfl) fun _ => Prog.sections_ret _ _ _ _

theorem sections_removeAllFromRoutes (l : List (SubscriptionId × RouteFilter)) :
    (removeAllFromRoutes c l).Sections lockDiscipline t held held := by
  induction l with
  | nil => exact Prog.sections_ret _ _ _ _
  | cons e l ih => exact Prog.sections_bind sections_removeFromRoute fun _ => ih

theorem sections_unregisterConnection :
    (unregisterConnection ⟨t, n⟩ order c).Sections lockDiscipline t false false := by
  refine sections_withMutationLock (sections_step (fun s => ?_) fun result => ?_)
  · rcases takeConnection_cases c s with ⟨_, heq⟩ | ⟨r, _, heq⟩
    · rw [heq]
    · rw [heq]
  · cases result with
    | none => exact Prog.sections_ret _ _ _ _
    | some connection =>
      exact Prog.sections_bind (sections_removeAllFromRoutes _) fun _ =>
        sections_step (fun _ => rfl) fun _ => Prog.sections_ret _ _ _ _

theorem sections_collectCandidates (keys : List RouteKey) (found : Matches) :
    (collectCandidates keys found).Sections lockDiscipline t held held := by
  induction keys generalizing found with
  | nil => exact Prog.sections_ret _ _ _ _
  | cons key keys ih =>
    refine sections_step (fun _ => rfl) fun bucket => ?_
    cases bucket with
    | none => exact ih found
    | some bucket => exact ih _

theorem sections_offerAll (call : CallId) (count index : ℕ) (message : Option RoutedMessage)
    (report : DispatchReport) (disconnect : List ConnectionId)
    (rest : List (ConnectionId × List SubscriptionId)) :
    (offerAll config call count index message report disconnect rest).Sections lockDiscipline t
      held held := by
  induction rest generalizing index message report disconnect with
  | nil => exact Prog.sections_ret _ _ _ _
  | cons e rest ih =>
    refine sections_step (fun _ => offer_lock _ message e.1 e.2) fun result => ?_
    cases result with
    | gone => exact ih _ _ _ _
    | panicked text => exact Prog.sections_ret _ _ _ _
    | sent outcome evict => exact ih _ _ _ _

/-- Every eviction is a section of its own. -/
theorem sections_disconnectAll (l : List ConnectionId) :
    (disconnectAll ⟨t, n⟩ order l).Sections lockDiscipline t false false := by
  induction l with
  | nil => exact Prog.sections_ret _ _ _ _
  | cons c l ih =>
    exact sections_step (fun _ => rfl) fun _ =>
      Prog.sections_bind sections_unregisterConnection fun _ => ih

theorem sections_dispatch (message : RoutedMessage) :
    (dispatch config ⟨t, n⟩ order message).Sections lockDiscipline t false false := by
  refine sections_step (fun _ => rfl) fun _ =>
    Prog.sections_bind (sections_collectCandidates _ _) fun found =>
    Prog.sections_bind (sections_offerAll _ _ _ _ _ _ _) fun result => ?_
  cases result with
  | error text => exact Prog.sections_ret _ _ _ _
  | ok report =>
    exact Prog.sections_bind (sections_disconnectAll _) fun _ =>
      sections_step (fun _ => rfl) fun _ => Prog.sections_ret _ _ _ _

theorem sections_serve {request : Request} (hreceive : ∀ c, request ≠ .receive c) :
    (serve config ⟨t, n⟩ order request).Sections lockDiscipline t false false := by
  refine sections_step (fun _ => rfl) fun _ => Prog.sections_bind ?_ fun response =>
    sections_step (fun _ => rfl) fun _ => Prog.sections_ret _ _ _ _
  cases request with
  | register tenantId protocol queueCapacity =>
    exact Prog.sections_bind (sections_registerConnection _ _ _) fun _ =>
      Prog.sections_ret _ _ _ _
  | subscribe => exact Prog.sections_bind sections_subscribe fun _ => Prog.sections_ret _ _ _ _
  | unsubscribe => exact Prog.sections_bind sections_unsubscribe fun _ => Prog.sections_ret _ _ _ _
  | unregister =>
    exact Prog.sections_bind sections_unregisterConnection fun _ => Prog.sections_ret _ _ _ _
  | dispatch message =>
    exact Prog.sections_bind (sections_dispatch message) fun _ => Prog.sections_ret _ _ _ _
  | receive c => exact absurd rfl (hreceive c)
  | close => exact sections_step (fun _ => rfl) fun _ => Prog.sections_ret _ _ _ _

end Calls
end Router

/-! ### Threads of the server -/

namespace Stream

open Api Router

/-- The receiver has something to take, or learns that nothing more will come. -/
def Receivable (c : ConnectionId) (s : Shared) : Prop :=
  ∀ channel, s.channels.lookup c = some channel →
    channel.queue ≠ [] ∨ channel.closed = true ∨ c ∉ s.connections

/-- What a thread may wait for besides the lock: a delivery, a record, or its client, which is what
the end of a script stands for. -/
inductive Awaits (e : Draw → Server → Bool) : Prop
  | delivery (c : ConnectionId) (h : ∀ draw w, e draw w = true ↔ Receivable c w.router)
  | record (index : ℕ) (h : ∀ draw w, e draw w = true ↔ index < w.topic.length)
  | client (h : ∀ draw w, e draw w = false)

def lockDiscipline : LockDiscipline Server Draw := ⟨fun w => w.router.mutationLock, Awaits⟩

instance : Nonempty Draw := ⟨⟨⟨0⟩, ⟨0, 0, 0⟩, ⟨0, 0, 0⟩⟩⟩

/-- The program takes the lock in sections, if at all, in which it does not wait. -/
abbrev Sectioned {α : Type} (t : ℕ) (p : ServerProg α) : Prop :=
  p.Sections lockDiscipline t false false

section Threads

variable {S : Service} {t n : ℕ} {order : HashOrder} {c : ConnectionId} {principal : Principal}
  {α β : Type} {w : Server}

theorem sectioned_ret (a : α) : Sectioned t (pure a : ServerProg α) := Prog.sections_ret _ _ _ a

theorem sectioned_bind {p : ServerProg α} {f : α → ServerProg β} (hp : Sectioned t p)
    (hf : ∀ a, Sectioned t (f a)) : Sectioned t (p >>= f) :=
  Prog.sections_bind hp hf

theorem sectioned_note (line : Line) : Sectioned t (note t line) :=
  Prog.sections_access fun _ => rfl

theorem sectioned_send (taken : Bool) (frame : Frame) : Sectioned t (send t taken frame) := by
  cases taken with
  | true => exact sectioned_note _
  | false => exact sectioned_ret _

theorem prompt_call {request : Request} (hreceive : ∀ c, request ≠ .receive c) :
    (S.call t order n request).Sections lockDiscipline.prompt t false false :=
  Prog.sections_zoom (fun id => ⟨⟨id, ⟨0, 0, 0⟩, ⟨0, 0, 0⟩⟩, rfl⟩) (fun _ => rfl) (fun _ => id)
    (sections_serve hreceive)

theorem sectioned_call {request : Request} (hreceive : ∀ c, request ≠ .receive c) :
    Sectioned t (S.call t order n request) :=
  Prog.sections_of_prompt (prompt_call hreceive)

theorem sectioned_recv : Sectioned t (recv t c) := by
  rw [recv, Router.receive, Prog.annotate_await]
  refine Prog.sections_wait (D := lockDiscipline) (.delivery c fun draw w => ?_) (fun draw w => ?_)
  · dsimp only [routerView]
    unfold Receivable
    cases w.router.channels.lookup c with
    | none => simp
    | some channel =>
      simp only [Option.some.injEq, forall_eq', Bool.or_eq_true, Bool.not_eq_true', or_assoc,
        List.isEmpty_eq_false_iff]
      exact or_congr_right (or_congr_right decide_eq_true_iff)
  · dsimp only [lockDiscipline, routerView, received, Server.note]
    cases (w.router.channels.lookup c).bind Channel.recv <;> rfl

theorem sectioned_allowRate (tenantId : String) (kind : RateKind) :
    Sectioned t (S.allowRate tenantId kind) := by
  refine sectioned_bind (Prog.sections_await (fun _ => ⟨Classical.arbitrary Draw, rfl⟩)
    (fun _ _ => rfl)) (fun allowed => ?_)
  cases allowed with
  | true => exact sectioned_ret _
  | false => exact sectioned_bind (Prog.sections_access fun _ => rfl) fun _ => sectioned_ret _

theorem sectioned_readConnectionClock : Sectioned t Service.readConnectionClock :=
  Prog.sections_await (fun _ => ⟨Classical.arbitrary Draw, rfl⟩) (fun _ _ => rfl)

theorem sectioned_allowCommand (limiter : CommandRateLimiter) :
    Sectioned t (S.allowCommand principal limiter) := by
  refine sectioned_bind sectioned_readConnectionClock (fun clock => ?_)
  dsimp only
  split_ifs
  · exact sectioned_bind (sectioned_allowRate _ _) fun _ => sectioned_ret _
  · exact sectioned_ret _

theorem sectioned_handleWsCommand (text : WsText) :
    Sectioned t (S.handleWsCommand t order n principal c text) := by
  unfold Service.handleWsCommand
  split
  · exact sectioned_ret _
  · exact sectioned_ret _
  · split
    · exact sectioned_ret _
    · split
      · exact sectioned_ret _
      · split
        · exact sectioned_ret _
        · exact sectioned_ret _
        · refine sectioned_bind (sectioned_call (by simp)) (fun response => ?_)
          split <;> exact sectioned_ret _
  · split
    · exact sectioned_ret _
    · refine sectioned_bind (sectioned_call (by simp)) (fun response => ?_)
      split <;> exact sectioned_ret _
  · exact sectioned_ret _

theorem sectioned_commandTurn (limiter : CommandRateLimiter) (command : Command) (taken : Bool) :
    Sectioned t (S.commandTurn t order principal c limiter n command taken) := by
  refine sectioned_bind (sectioned_note _) fun _ =>
    sectioned_bind (sectioned_allowCommand limiter) fun result => ?_
  refine sectioned_bind ?_ fun reply => ?_
  · unfold Service.answer
    split
    · exact sectioned_handleWsCommand _
    · exact sectioned_ret _
    · exact sectioned_ret _
  · cases taken with
    | true => exact sectioned_bind (sectioned_note _) fun _ => sectioned_ret _
    | false => exact sectioned_ret _

theorem sectioned_websocketTurn (point : CommandRateLimiter × ℕ) (turn : WsTurn) :
    Sectioned t (S.websocketTurn t order principal c point turn) := by
  obtain ⟨limiter, n⟩ := point
  have hfarewell : ∀ (taken : Bool) (frame : Frame), Sectioned t (send t taken frame >>=
      fun _ => (pure (.done n) : ServerProg (Next (CommandRateLimiter × ℕ) ℕ))) :=
    fun taken frame => sectioned_bind (sectioned_send taken frame) fun _ => sectioned_ret _
  cases turn with
  | delivery taken =>
    refine sectioned_bind sectioned_recv (fun received => ?_)
    cases received with
    | none => exact hfarewell _ _
    | some delivery =>
      cases taken with
      | true => exact sectioned_bind (sectioned_note _) fun _ => sectioned_ret _
      | false => exact sectioned_ret _
  | incoming message taken =>
    cases message with
    | none => exact sectioned_ret _
    | some message =>
      cases message with
      | text text => exact sectioned_commandTurn _ _ _
      | binary => exact sectioned_commandTurn _ _ _
      | ping payload =>
        cases taken with
        | true => exact sectioned_bind (sectioned_note _) fun _ => sectioned_ret _
        | false => exact sectioned_ret _
      | pong => exact sectioned_ret _
      | close frame => exact hfarewell _ _
      | failed oversized => exact hfarewell _ _

theorem waits_client : lockDiscipline.waits (fun _ _ => false) := .client fun _ _ => rfl

theorem sectioned_websocketSession (queueCapacity : ℕ) (script : List WsTurn) :
    Sectioned t (S.websocketSession t order principal queueCapacity script) := by
  refine sectioned_bind (sectioned_call (by simp)) (fun response => ?_)
  cases registration response with
  | error e => exact sectioned_ret _
  | ok c =>
    exact sectioned_bind (sectioned_note _) fun _ =>
      sectioned_bind sectioned_readConnectionClock fun clock =>
      sectioned_bind (Prog.sections_follow waits_client sectioned_websocketTurn script _) fun n =>
      sectioned_bind (sectioned_call (by simp)) fun _ =>
      sectioned_bind (sectioned_call (by simp)) fun _ => sectioned_ret _

theorem prompt_leaveStream :
    (S.leaveStream t order n c).Sections lockDiscipline.prompt t false false :=
  Prog.sections_bind (prompt_call (by simp)) fun _ =>
    Prog.sections_bind (prompt_call (by simp)) fun _ => Prog.sections_ret _ _ _ _

theorem sectioned_leaveStream : Sectioned t (S.leaveStream t order n c) :=
  Prog.sections_of_prompt prompt_leaveStream

/-- A thread that is about to leave does not hold the lock. -/
theorem not_held_leaveStream {k : Unit → ServerProg α} (hw : w.router.mutationLock = some t) :
    ¬ (S.leaveStream t order n c >>= k).Sections lockDiscipline t false true := by
  intro h
  obtain ⟨_, hstep⟩ : lockDiscipline.Inside t _ _ _ := h
  rcases hstep (Classical.arbitrary Draw) w hw rfl with ⟨hkept, hnext⟩ | ⟨hgiven, _⟩
  · obtain ⟨henabled, _⟩ : lockDiscipline.Inside t _ _ _ := hnext
    obtain ⟨draw, he⟩ := henabled _ hkept
    have hfree : w.router.mutationLock.isNone = true := he
    rw [hw] at hfree
    cases hfree
  · have hfree : w.router.mutationLock = none := hgiven
    rw [hw] at hfree
    cases hfree

theorem sectioned_streamTurn (event : Delivery → Frame) (turn : StreamTurn) :
    Sectioned t (Service.streamTurn t event c () turn) := by
  cases turn with
  | dropped => exact sectioned_ret _
  | delivery =>
    refine sectioned_bind sectioned_recv (fun received => ?_)
    cases received with
    | none => exact sectioned_ret _
    | some delivery => exact sectioned_bind (sectioned_note _) fun _ => sectioned_ret _

theorem sectioned_streamSession (protocol : DeliveryProtocol) (response : SubscriptionId → Frame)
    (event : Delivery → Frame) (plan : ApiState.StreamPlan) (fields : FilterFields)
    (script : List StreamTurn) :
    Sectioned t (S.streamSession t order protocol response event plan fields script) := by
  refine sectioned_bind (sectioned_call (by simp)) (fun answer => ?_)
  cases registration answer with
  | error e => exact sectioned_ret _
  | ok c =>
    refine sectioned_bind (sectioned_note _) fun _ => sectioned_bind (sectioned_note _) fun _ =>
      sectioned_bind (sectioned_call (by simp)) fun answer => ?_
    cases settlement answer with
    | error e => exact sectioned_bind sectioned_leaveStream fun _ => sectioned_ret _
    | ok result =>
      exact sectioned_bind (sectioned_note _) fun _ =>
        sectioned_bind (Prog.sections_follow waits_client
          (fun _ turn => sectioned_streamTurn event turn) script ()) fun _ =>
        sectioned_bind sectioned_leaveStream fun _ => sectioned_ret _

theorem sectioned_connectCommand (command : ClientCommand) :
    Sectioned t (S.connectCommand t order n principal c command) := by
  refine sectioned_bind (sectioned_allowRate _ _) (fun allowed => ?_)
  cases allowed with
  | false => exact sectioned_ret _
  | true =>
    cases command with
    | subscribe subscriptionId filter =>
      change Sectioned t (S.grpcSubscribe t order n principal c subscriptionId filter)
      unfold Service.grpcSubscribe
      split
      · exact sectioned_ret _
      · split
        · exact sectioned_ret _
        · split
          · exact sectioned_ret _
          · refine sectioned_bind (sectioned_call (by simp)) (fun response => ?_)
            split <;> exact sectioned_ret _
    | unsubscribe subscriptionId =>
      change Sectioned t (S.grpcUnsubscribe t order n c subscriptionId)
      unfold Service.grpcUnsubscribe
      split
      · exact sectioned_ret _
      · refine sectioned_bind (sectioned_call (by simp)) (fun response => ?_)
        split <;> exact sectioned_ret _
    | ping opaqueText => exact sectioned_ret _
    | none => exact sectioned_ret _

theorem sectioned_connectTurn (n : ℕ) (turn : ConnectTurn) :
    Sectioned t (S.connectTurn t order principal c n turn) := by
  cases turn with
  | delivery =>
    refine sectioned_bind sectioned_recv (fun received => ?_)
    cases received with
    | none => exact sectioned_ret _
    | some delivery => exact sectioned_bind (sectioned_note _) fun _ => sectioned_ret _
  | command command =>
    refine sectioned_bind (sectioned_note _) fun _ =>
      sectioned_bind (sectioned_connectCommand command) fun result => ?_
    cases result with
    | error status => exact sectioned_ret _
    | ok event => exact sectioned_bind (sectioned_note _) fun _ => sectioned_ret _
  | finished => exact sectioned_ret _
  | failed status => exact sectioned_ret _
  | dropped => exact sectioned_ret _

theorem sectioned_connectSession (script : List ConnectTurn) :
    Sectioned t (S.connectSession t order principal script) := by
  refine sectioned_bind (sectioned_call (by simp)) (fun answer => ?_)
  cases registration answer with
  | error e => exact sectioned_ret _
  | ok c =>
    exact sectioned_bind (sectioned_note _) fun _ =>
      sectioned_bind (Prog.sections_follow waits_client sectioned_connectTurn script _) fun _ =>
      sectioned_bind sectioned_leaveStream fun _ => sectioned_ret _

theorem sectioned_noteAll (lines : List Line) : Sectioned t (Service.noteAll t lines) := by
  induction lines with
  | nil => exact sectioned_ret _
  | cons line rest ih => exact sectioned_bind (sectioned_note line) fun _ => ih

theorem sectioned_webhookTurn (worker : Webhook.WebhookWorker) (turn : WebhookTurn) :
    Sectioned t (Service.webhookTurn t worker c () turn) := by
  cases turn with
  | stopped => exact sectioned_ret _
  | delivery shutdown results dropped =>
    refine sectioned_bind sectioned_recv (fun received => ?_)
    cases received with
    | none => exact sectioned_ret _
    | some delivery =>
      cases dropped with
      | none => exact sectioned_bind (sectioned_noteAll _) fun _ => sectioned_ret _
      | some count => exact sectioned_bind (sectioned_noteAll _) fun _ => sectioned_ret _

theorem sectioned_webhookSession (destination : Webhook.WebhookDestinationConfig)
    (script : List WebhookTurn) : Sectioned t (S.webhookSession t order destination script) := by
  refine sectioned_bind (sectioned_call (by simp)) (fun answer => ?_)
  cases registration answer with
  | error e => exact sectioned_ret _
  | ok c =>
    refine sectioned_bind (sectioned_note _) fun _ => ?_
    cases SubscriptionId.new (Webhook.WebhookRuntime.subscriptionName destination.id) with
    | error e => exact sectioned_bind sectioned_leaveStream fun _ => sectioned_ret _
    | ok sid =>
      refine sectioned_bind (sectioned_note _) fun _ =>
        sectioned_bind (sectioned_call (by simp)) fun answer => ?_
      cases settlement answer with
      | error e => exact sectioned_bind sectioned_leaveStream fun _ => sectioned_ret _
      | ok result =>
        exact sectioned_bind (sectioned_note _) fun _ =>
          sectioned_bind (Prog.sections_follow waits_client
            (fun _ turn => sectioned_webhookTurn _ turn) script ()) fun _ =>
          sectioned_bind sectioned_leaveStream fun _ => sectioned_ret _

theorem sectioned_publish {now : ℕ} {uuid : String} {credentials : Credentials}
    {publication : Publication} (placed : Option (KafkaPosition × Option ℤ))
    (answer : Except Kafka.KafkaError Kafka.Delivery) :
    Sectioned t (S.publish now uuid credentials publication placed answer) := by
  refine sectioned_bind (Prog.sections_await (fun _ => ⟨Classical.arbitrary Draw, rfl⟩)
    (fun _ _ => rfl)) (fun result => ?_)
  split
  · exact sectioned_bind (Prog.sections_access fun _ => rfl) fun _ => sectioned_ret _
  · exact sectioned_ret _
  · split
    · exact sectioned_ret _
    · cases placed with
      | none => exact sectioned_ret _
      | some place =>
        exact sectioned_bind (Prog.sections_access fun _ => rfl) fun _ => sectioned_ret _

theorem sectioned_ingest (index : ℕ) : Sectioned t (S.ingest t order index) := by
  refine sectioned_bind (Prog.sections_wait (.record index fun _ _ => decide_eq_true_iff)
    (fun _ _ => rfl)) (fun fetched => ?_)
  cases fetched with
  | none => exact sectioned_ret _
  | some stored =>
    dsimp only
    cases S.decode stored with
    | error e => exact sectioned_ret _
    | ok message => exact sectioned_bind (sectioned_call (by simp)) fun _ => sectioned_ret _

theorem sectioned_thread (task : HashOrder × Task) : Sectioned t (S.thread t task) := by
  obtain ⟨order, task⟩ := task
  cases task with
  | websocket now headers query script =>
    refine sectioned_bind (sectioned_note _) fun _ => ?_
    cases S.api.websocket now headers query with
    | error e => exact sectioned_ret _
    | ok plan => exact sectioned_bind (sectioned_websocketSession _ _) fun _ => sectioned_ret _
  | sse now headers lastEventId query script =>
    refine sectioned_bind (sectioned_note _) fun _ => ?_
    cases S.api.sse now headers lastEventId query with
    | error e => exact sectioned_ret _
    | ok plan =>
      exact sectioned_bind (sectioned_bind (sectioned_streamSession _ _ _ _ _ _)
        fun _ => sectioned_ret _) fun _ => sectioned_ret _
  | subscribe now metadata request script =>
    refine sectioned_bind (sectioned_note _) fun _ => ?_
    cases S.api.subscribe now metadata request with
    | error e => exact sectioned_ret _
    | ok plan =>
      exact sectioned_bind (sectioned_bind (sectioned_streamSession _ _ _ _ _ _)
        fun _ => sectioned_ret _) fun _ => sectioned_ret _
  | connect now metadata script =>
    refine sectioned_bind (sectioned_note _) fun _ => ?_
    cases S.api.connect now metadata with
    | error e => exact sectioned_ret _
    | ok principal => exact sectioned_bind (sectioned_connectSession _) fun _ => sectioned_ret _
  | webhook destination checked script =>
    refine sectioned_bind (sectioned_note _) fun _ => ?_
    cases checked with
    | error e => exact sectioned_ret _
    | ok => exact sectioned_bind (sectioned_webhookSession _ _) fun _ => sectioned_ret _
  | publish now uuid credentials publication placed answer =>
    exact sectioned_bind (sectioned_publish _ _) fun _ => sectioned_ret _
  | produce position record =>
    exact sectioned_bind (Prog.sections_access fun _ => rfl) fun _ => sectioned_ret _
  | ingest index => exact sectioned_bind (sectioned_ingest _) fun _ => sectioned_ret _

end Threads

/-! ### Progress -/

section Progress

variable {S : Service} {P : Sessions} {t : ℕ} {c : ConnectionId}

theorem Service.Reachable.disciplined (h : S.Reachable P) : P.Disciplined lockDiscipline := by
  obtain ⟨limiter, moves, hrun⟩ := h
  refine Pool.disciplined_run (fun t task => sectioned_thread task) ⟨fun t p hp => ?_, ?_⟩ hrun
  · cases hp
  · exact fun t ht => absurd ht (by simp [lockDiscipline, Sessions.start, Shared.new])

/-- A session that has begun to leave can be run to its end. -/
theorem Service.Reachable.leaves (h : S.Reachable P) {order : HashOrder} {n : ℕ} {ending : Ending}
    (hthread : P.threads[t]? = some (S.leaveStream t order n c >>= fun _ => pure ending)) :
    ∃ moves P', P.run S.thread moves = some P' ∧ P'.threads[t]? = some (.ret ending) ∧
      P'.shared.router.mutationLock = none := by
  obtain ⟨held, hheld, hsections⟩ := h.disciplined.sections t _ hthread
  obtain rfl : held = false := by
    cases held with
    | false => rfl
    | true => exact absurd hsections (not_held_leaveStream (hheld.mp rfl))
  obtain ⟨moves, P', ending', hrun, hret, hfree⟩ := h.disciplined.finishes
    (fun t task => sectioned_thread task) hthread hheld
    (Prog.sections_bind prompt_leaveStream fun _ => Prog.sections_ret _ _ _ _)
  obtain ⟨p, hp, hyields⟩ := Pool.yields_run (G := fun ending' => ending' = ending) hrun hthread
    (Prog.yields_tail _ fun _ => rfl)
  rw [hret] at hp
  cases hp
  cases hyields
  exact ⟨moves, P', hrun, hret, hfree⟩

/-- A thread that has ended, or waits for something that is not there. -/
inductive Idle (w : Server) : ServerProg Ending → Prop
  | ended (ending : Ending) : Idle w (.ret ending)
  | delivery {e : Draw → Server → Bool} {u : Draw → Server → Server}
      {k : Draw → Server → ServerProg Ending} (c : ConnectionId)
      (h : ∀ draw w, e draw w = true ↔ Receivable c w.router) (hw : ¬ Receivable c w.router) :
      Idle w (.act e u k)
  | record {e : Draw → Server → Bool} {u : Draw → Server → Server}
      {k : Draw → Server → ServerProg Ending} (index : ℕ)
      (h : ∀ draw w, e draw w = true ↔ index < w.topic.length) (hw : w.topic.length ≤ index) :
      Idle w (.act e u k)
  | client {e : Draw → Server → Bool} {u : Draw → Server → Server}
      {k : Draw → Server → ServerProg Ending} (h : ∀ draw w, e draw w = false) : Idle w (.act e u k)

theorem Awaits.idle {e : Draw → Server → Bool} {u : Draw → Server → Server}
    {k : Draw → Server → ServerProg Ending} {w : Server} (h : Awaits e)
    (hblocked : ∀ draw, e draw w = false) : Idle w (.act e u k) := by
  have hdisabled : ¬ e (Classical.arbitrary Draw) w = true := by simp [hblocked]
  cases h with
  | delivery c h => exact .delivery c h (fun hw => hdisabled ((h _ w).mpr hw))
  | record index h => exact .record index h (Nat.le_of_not_lt fun hw => hdisabled ((h _ w).mpr hw))
  | client h => exact .client h

/-- The thread that holds the mutation lock can always act. If no thread can act, the lock is free,
and each thread has ended or waits for a delivery to the empty queue of a registered connection, for
a record that the topic does not have yet, or for its client. -/
theorem server_never_locks_up (h : S.Reachable P) :
    (∀ t, P.shared.router.mutationLock = some t →
      ∃ draw P', P.move S.thread (.act t draw) = some P') ∧
    ((∀ t draw, P.move S.thread (.act t draw) = none) →
      P.shared.router.mutationLock = none ∧ ∀ p ∈ P.threads, Idle P.shared p) := by
  refine ⟨fun t ht => h.disciplined.owner_moves S.thread ht, fun hstuck => ?_⟩
  obtain ⟨hfree, hthreads⟩ := h.disciplined.stuck S.thread hstuck
  refine ⟨hfree, fun p hp => ?_⟩
  obtain ⟨t, hp⟩ := List.mem_iff_getElem?.mp hp
  rcases hthreads t p hp with hret | ⟨e, u, k, rfl, hawaits, hblocked⟩
  · obtain ⟨ending, rfl⟩ := ret_of_isRet hret
    exact .ended ending
  · exact hawaits.idle hblocked

/-- First the session is registering its connection, then it waits for a delivery. -/
theorem server_never_locks_up_acme :
    ((sessionsAfter acmeService (acmeOpening.take 5)).shared.router.mutationLock = some 0 ∧
      ∃ draw P', (sessionsAfter acmeService (acmeOpening.take 5)).move acmeService.thread
        (.act 0 draw) = some P') ∧
    acmeOpened.threads.length = 1 ∧
    (∀ t draw, acmeOpened.move acmeService.thread (.act t draw) = none) ∧
    acmeOpened.shared.router.mutationLock = none ∧
    ∀ p ∈ acmeOpened.threads, Idle acmeOpened.shared p := by
  have hstuck : ∀ t draw, acmeOpened.move acmeService.thread (.act t draw) = none := by
    intro t draw
    cases t with
    | zero => rfl
    | succ t => rfl
  exact ⟨⟨rfl, (server_never_locks_up (reachable_sessionsAfter rfl)).1 0 rfl⟩, rfl, hstuck,
    (server_never_locks_up reachable_acmeOpened).2 hstuck⟩

end Progress
end Stream
end KafkaEdgeRouter
