import KafkaEdgeRouter.OwnedCalls
import KafkaEdgeRouter.StreamingSessions

/-!
# What a client was told

The ledger of a session is computed from its transcript alone: who opened which connection, which
subscriptions the answers so far add up to, and which deliveries were taken from the queue and shown
to the client. A ledger is faithful to the router when the connection, as long as it is registered,
has just these subscriptions and its receiver has taken just these deliveries. The protocol of the
server asks this of every session at every moment; while a command is being handled, nothing is
asked of the subscriptions. It also asks where messages come from: what is dispatched was decoded
from a record of the topic, and a record of the publisher was sent for a request that was accepted.
-/

namespace KafkaEdgeRouter.Stream

open Api Router

inductive News
  | added (subscriptionId : SubscriptionId)
  | removed (subscriptionId : SubscriptionId)
  | delivered (delivery : Delivery)
  | nothing

def Frame.news : Frame → News
  | .ws (.delivery delivery) => .delivered delivery
  | .ws (.reply (.subscribed sid)) => .added sid
  | .ws (.reply (.unsubscribed sid)) => .removed sid
  | .sse (.response sid) => .added sid
  | .sse (.event delivery) => .delivered delivery
  | .grpc (.response sid) => .added sid
  | .grpc (.event (.message delivery)) => .delivered delivery
  | .grpc (.event (.ack operation subscriptionId)) =>
    if operation = "subscribed" then .added ⟨subscriptionId⟩
    else if operation = "unsubscribed" then .removed ⟨subscriptionId⟩
    else .nothing
  | _ => .nothing

def Command.fields : Command → Option FilterFields
  | .text (.command (.subscribe _ (some filter))) => some filter.toFilterFields
  | .stream fields => some fields
  | .grpc (.subscribe _ (some filter)) => some filter.toFilterFields
  | _ => none

structure Post where
  delivery : Delivery
  attempt : ℕ
  answer : Option Webhook.AttemptResult
  deriving DecidableEq

def answerLast (result : Webhook.AttemptResult) : List Post → List Post
  | [] => []
  | [post] => [{ post with answer := some result }]
  | post :: next :: rest => post :: answerLast result (next :: rest)

structure Ledger where
  arrival : Option Arrival := none
  opened : Option (ConnectionId × Principal) := none
  /-- The command that has not been answered yet. -/
  handling : Option Command := none
  held : Subscriptions := ∅
  taken : List Delivery := []
  shown : List Delivery := []
  drained : Bool := false
  posts : List Post := []

namespace Ledger

def requested (L : Ledger) : Option RouteFilter :=
  match L.opened, L.handling with
  | some (_, principal), some command =>
    command.fields.map (FilterFields.forTenant principal.tenantId)
  | _, _ => none

def tell (L : Ledger) : News → Ledger
  | .added sid =>
    match L.requested with
    | some filter => { L with handling := none, held := L.held.insert sid filter }
    | none => { L with handling := none }
  | .removed sid => { L with handling := none, held := L.held.erase sid }
  | .delivered delivery => { L with shown := L.shown ++ [delivery] }
  | .nothing => { L with handling := none }

def note (L : Ledger) : Line → Ledger
  | .arrived arrival => { L with arrival := some arrival }
  | .opened c principal => { L with opened := some (c, principal) }
  | .takes command => { L with handling := some command }
  | .got delivery => { L with taken := L.taken ++ [delivery] }
  | .drained => { L with drained := true }
  | .sends frame => L.tell frame.news
  | .subscribed sid => L.tell (.added sid)
  | .posts delivery attempt =>
    { L with
      posts := L.posts ++ [⟨delivery, attempt, none⟩]
      shown := if attempt = 1 then L.shown ++ [delivery] else L.shown }
  | .answered result => { L with posts := answerLast result L.posts }

end Ledger

def ledger (lines : List Line) : Ledger := lines.foldl Ledger.note {}

@[simp] theorem ledger_concat (lines : List Line) (line : Line) :
    ledger (lines ++ [line]) = (ledger lines).note line := by
  simp [ledger]

/-- The request passes the checks of its transport, on behalf of the principal. -/
def Service.Admits (S : Service) (principal : Principal) : Arrival → Prop
  | .websocket now headers query =>
    ∃ queueCapacity, S.api.websocket now headers query = .ok (principal, queueCapacity)
  | .sse now headers lastEventId query =>
    ∃ plan, S.api.sse now headers lastEventId query = .ok plan ∧ plan.principal = principal
  | .subscribe now metadata request =>
    ∃ plan, S.api.subscribe now metadata request = .ok plan ∧ plan.principal = principal
  | .connect now metadata => S.api.connect now metadata = .ok principal
  | .webhook destination => principal = webhookPrincipal destination

/-! ### The attempts of a webhook -/

/-- The delivery is over: it has succeeded, or it failed for good, or no attempt is left. -/
def Post.Ended (maxAttempts : ℕ) (post : Post) : Prop :=
  ∃ result, post.answer = some result ∧ (result = .retryable → maxAttempts ≤ post.attempt)

/-- The attempt after one that may be repeated, or the first attempt of the next delivery. -/
def Follows (maxAttempts : ℕ) (post next : Post) : Prop :=
  (next.delivery = post.delivery ∧ next.attempt = post.attempt + 1 ∧
    post.answer = some .retryable ∧ post.attempt < maxAttempts) ∨
  next.attempt = 1 ∧ post.Ended maxAttempts

/-- Every delivery is attempted until it is over before the next one is, and what was shown is what
was attempted. -/
structure Courses (maxAttempts : ℕ) (shown : List Delivery) (posts : List Post) : Prop where
  chain : posts.IsChain (Follows maxAttempts)
  first : ∀ post ∈ posts.head?, post.attempt = 1
  shown : (posts.filter (fun post => post.attempt = 1)).map Post.delivery = shown

def Orderly (L : Ledger) : Prop :=
  match L.arrival with
  | some (.webhook destination) =>
    Courses (Webhook.WebhookWorker.new destination).maxAttempts L.shown L.posts
  | _ => L.posts = []

theorem Orderly.congr {L L' : Ledger} (h : Orderly L) (harrival : L'.arrival = L.arrival)
    (hshown : L'.shown = L.shown) (hposts : L'.posts = L.posts) : Orderly L' := by
  unfold Orderly at h ⊢
  rw [harrival, hshown, hposts]
  exact h

theorem Orderly.client {L L' : Ledger} (h : Orderly L)
    (hclient : ∀ destination, L.arrival ≠ some (.webhook destination))
    (harrival : L'.arrival = L.arrival) (hposts : L'.posts = L.posts) : Orderly L' := by
  unfold Orderly at h ⊢
  rw [harrival, hposts]
  split at h
  · exact absurd ‹_› (hclient _)
  · exact h

/-- What a ledger says by itself. -/
structure Sound (S : Service) (L : Ledger) : Prop where
  admitted : ∀ c principal, L.opened = some (c, principal) →
    ∃ arrival, L.arrival = some arrival ∧ S.Admits principal arrival
  tenant : ∀ sid filter, L.held.lookup sid = some filter →
    ∃ c principal, L.opened = some (c, principal) ∧ filter.tenantId = principal.tenantId
  shown : L.taken = L.shown ∨ ∃ delivery, L.taken = L.shown ++ [delivery]
  caught : L.drained = true → L.taken = L.shown
  orderly : Orderly L

/-- The router holds what the ledger says. -/
structure Agrees (t : ℕ) (L : Ledger) (c : ConnectionId) (principal : Principal) (s : Shared) :
    Prop where
  registered : ∃ serial, .registered ⟨t, serial⟩ c principal.tenantId ∈ s.history
  held : L.handling = none → ∀ connection, s.connections.lookup c = some connection →
    connection.subscriptions = L.held
  taken : ∃ channel, s.channels.lookup c = some channel ∧ channel.received = L.taken ∧
    (L.drained = true → c ∉ s.connections ∧ channel.queue = [])

structure Faithful (S : Service) (t : ℕ) (L : Ledger) (s : Shared) : Prop where
  sound : Sound S L
  agrees : ∀ c principal, L.opened = some (c, principal) → Agrees t L c principal s

/-! ### Where messages come from -/

/-- The publisher sent the record for a request that was accepted. -/
def Service.Published (S : Service) (stored : Stored) : Prop :=
  ∃ moment credentials publication limiter handed sending timestampMs,
    (S.api.publishAny moment credentials publication limiter).1 = .ok handed ∧
    handed.publisher.publish S.api.parseMime handed.command = .ok sending ∧
    stored.record = sending.record.consumed timestampMs

def Service.Sourced (S : Service) (topic : List Stored) (request : Request) : Prop :=
  ∀ message, request = .dispatch message → ∃ stored ∈ topic, S.decode stored = .ok message

structure Traced (S : Service) (topic : List Stored) (s : Shared) : Prop where
  dispatched : ∀ call request, .began call request ∈ s.history → S.Sourced topic request
  published : ∀ stored ∈ topic, stored.ours = true → S.Published stored

/-- Every session's ledger is faithful, every subscription is for the tenant of its connection, and
every message is traced. A thread only writes its own transcript, and the topic grows at its end. -/
structure Service.Invariant (S : Service) (w : Server) : Prop where
  router : Inv S.router (fun _ => False) w.router
  faithful : ∀ t, Faithful S t (ledger (w.transcripts t)) w.router
  tenanted : Tenanted w.router
  traced : Traced S w.topic w.router

/-- The line answers the command that is being handled. -/
def Line.Answers : Line → Prop
  | .sends frame => ∀ delivery, frame.news ≠ .delivered delivery
  | .subscribed _ => True
  | _ => False

/-- A step of a session leaves the connections of others alone. While a command waits for its answer
the step adds nothing to the transcript but the answer. -/
structure Discreet (t : ℕ) (w w' : Server) : Prop where
  elsewhere : ∀ c principal, (ledger (w.transcripts t)).opened = some (c, principal) →
    ∀ c', c' ≠ c → w'.router.connections.lookup c' = w.router.connections.lookup c'
  prompt : (ledger (w.transcripts t)).handling ≠ none → w'.transcripts t = w.transcripts t ∨
    ∃ line, Line.Answers line ∧ w'.transcripts t = w.transcripts t ++ [line]

theorem discreet_of_eq {t : ℕ} {w w' : Server}
    (hconn : w'.router.connections = w.router.connections)
    (htranscript : w'.transcripts t = w.transcripts t) : Discreet t w w' :=
  ⟨fun _ _ _ _ _ => by rw [hconn], fun _ => Or.inl htranscript⟩

structure Service.Guar (t : ℕ) (w w' : Server) : Prop where
  router : Guarantee (fun _ _ => True) t w.router w'.router
  considerate : Considerate t w.router w'.router
  transcripts : ∀ u, u ≠ t → w'.transcripts u = w.transcripts u
  topic : w.topic <+: w'.topic
  discreet : Discreet t w w'

def Service.protocol (S : Service) : Protocol Server where
  inv := S.Invariant
  guar := Service.Guar
  fresh t w := w.router.mutationLock ≠ some t ∧ (∀ e ∈ w.router.history, e.call.thread ≠ t) ∧
    w.transcripts t = []

/-- Where a thread stands: its ledger, the number of its next call and what it knows of the
router. -/
structure Stands (t n : ℕ) (L : Ledger) (A : Shared → Prop) (w : Server) : Prop where
  ledger : ledger (w.transcripts t) = L
  unspent : Unspent t n w.router
  router : A w.router

section Protocol

variable {S : Service} {t u n : ℕ} {L : Ledger} {c : ConnectionId} {principal : Principal}
  {s s' : Shared} {w w' : Server} {A : Shared → Prop}

theorem Agrees.owns (h : Agrees t L c principal s) : Owns t c s := by
  obtain ⟨serial, hmem⟩ := h.registered
  exact ⟨serial, principal.tenantId, hmem⟩

theorem registered_mono (hg : Guarantee (fun _ _ => True) u s s')
    (h : ∃ serial, .registered ⟨t, serial⟩ c principal.tenantId ∈ s.history) :
    ∃ serial, .registered ⟨t, serial⟩ c principal.tenantId ∈ s'.history := by
  obtain ⟨serial, hmem⟩ := h
  exact ⟨serial, hg.mem_history hmem⟩

theorem held_of_onlyCut (hcut : OnlyCut c s s')
    (h : ∀ connection, s.connections.lookup c = some connection →
      connection.subscriptions = L.held) :
    ∀ connection, s'.connections.lookup c = some connection →
      connection.subscriptions = L.held := by
  intro connection' hl'
  obtain ⟨connection, hl, heq⟩ := hcut connection' hl'
  rw [congrArg Registration.subscriptions heq]
  exact h connection hl

theorem Agrees.kept (h : Agrees t L c principal s) (hg : Guarantee (fun _ _ => True) u s s')
    (hcut : OnlyCut c s s') (hfed : OnlyFed c s s') : Agrees t L c principal s' := by
  refine ⟨registered_mono hg h.registered, fun hidle => held_of_onlyCut hcut (h.held hidle), ?_⟩
  obtain ⟨channel, hl, hreceived, hdrained⟩ := h.taken
  obtain ⟨channel', hl', hreceived', _⟩ := hfed.channel channel hl
  refine ⟨channel', hl', hreceived'.trans hreceived, fun hd => ?_⟩
  obtain ⟨hgone, hqueue⟩ := hdrained hd
  rw [hfed.gone hgone, hl] at hl'
  rw [← Option.some.inj hl']
  exact ⟨hcut.gone hgone, hqueue⟩

theorem Agrees.modest {request : Request} (h : Agrees t L c principal s)
    (hg : Guarantee (fun _ _ => True) u s s') (hm : Modest t request s s')
    (hquiet : Alters c request → L.handling ≠ none ∧ L.drained = false)
    (hreceive : request ≠ .receive c) : Agrees t L c principal s' := by
  refine ⟨registered_mono hg h.registered, fun hidle => ?_, ?_⟩
  · exact held_of_onlyCut (hm.connection c h.owns (fun ha => (hquiet ha).1 hidle)) (h.held hidle)
  · obtain ⟨channel, hl, hreceived, hd⟩ := h.taken
    obtain ⟨channel', hl', hreceived', hqueue⟩ := hm.channel c h.owns hreceive channel hl
    refine ⟨channel', hl', hreceived'.trans hreceived, fun hdrain => ?_⟩
    obtain ⟨hgone, hempty⟩ := hd hdrain
    have halters : ¬ Alters c request := by
      intro ha
      rw [(hquiet ha).2] at hdrain
      cases hdrain
    exact ⟨(hm.connection c h.owns halters).gone hgone, (hqueue hgone).trans hempty⟩

theorem Faithful.others (h : Faithful S u L s) (hg : Guarantee (fun _ _ => True) t s s')
    (hc : Considerate t s s') (hne : u ≠ t) : Faithful S u L s' := by
  refine ⟨h.sound, fun c principal hopened => ?_⟩
  have hagrees := h.agrees c principal hopened
  obtain ⟨hcut, hfed⟩ := hc u c hne hagrees.owns
  exact hagrees.kept hg hcut hfed

theorem tended_of_guarantee (hg : Guarantee (fun _ _ => True) u s s') (hc : Considerate u s s')
    (hne : u ≠ t) : (tended t).interference s s' := by
  obtain ⟨events, hh, hthread, _⟩ := hg.history
  exact ⟨fun c hown => hc t c hne.symm hown, events, hh, fun e he heq =>
    hne ((hthread e he).symm.trans heq)⟩

theorem Service.Sourced.mono {topic topic' : List Stored} {request : Request}
    (h : S.Sourced topic request) (htopic : topic <+: topic') : S.Sourced topic' request := by
  intro message heq
  obtain ⟨stored, hmem, hdecode⟩ := h message heq
  exact ⟨stored, htopic.subset hmem, hdecode⟩

theorem Traced.announces {topic : List Stored} {request : Request} (h : Traced S topic s)
    (hannounces : Announces request s s') (hsourced : S.Sourced topic request) :
    Traced S topic s' := by
  refine ⟨fun call request' hmem => ?_, h.published⟩
  rcases hannounces call request' hmem with hmem | rfl
  · exact h.dispatched call request' hmem
  · exact hsourced

theorem Traced.kept {topic : List Stored} (h : Traced S topic s) (hh : s'.history = s.history) :
    Traced S topic s' :=
  ⟨fun call request hmem => h.dispatched call request (hh ▸ hmem), h.published⟩

theorem Traced.store {topic : List Stored} {stored : Stored} (h : Traced S topic s)
    (hstored : stored.ours = true → S.Published stored) : Traced S (topic ++ [stored]) s := by
  refine ⟨fun call request hmem => ?_, fun stored' hmem => ?_⟩
  · exact (h.dispatched call request hmem).mono (List.prefix_append _ _)
  · rcases List.mem_append.mp hmem with hmem | hmem
    · exact h.published stored' hmem
    · rw [List.mem_singleton.mp hmem]
      exact hstored

theorem stable_stands (hA : Lasting t A) :
    ((S.protocol).contract t).Stable (Stands t n L A) := by
  rintro w w' _ _ ⟨u, hu, hg, hc, htranscripts, _, _⟩ ⟨hledger, hunspent, hrouter⟩
  refine ⟨?_, hunspent.guarantee hg hu,
    hA.stable _ _ trivial trivial (tended_of_guarantee hg hc hu) hrouter⟩
  rw [htranscripts t hu.symm]
  exact hledger

theorem inv_step (hinv : S.protocol.inv w) (hrouter : Inv S.router (fun _ => False) w'.router)
    (hguar : S.protocol.guar t w w') (hown : Faithful S t (ledger (w'.transcripts t)) w'.router)
    (htenanted : Tenanted w'.router) (htraced : Traced S w'.topic w'.router) :
    S.protocol.inv w' := by
  obtain ⟨hg, hc, htranscripts, _, _⟩ := hguar
  refine ⟨hrouter, fun u => ?_, htenanted, htraced⟩
  by_cases hu : u = t
  · rw [hu]
    exact hown
  · rw [htranscripts u hu]
    exact (hinv.faithful u).others hg hc hu

end Protocol
end KafkaEdgeRouter.Stream
