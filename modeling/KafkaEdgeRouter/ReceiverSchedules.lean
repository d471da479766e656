import KafkaEdgeRouter.DispatchOffers
import KafkaEdgeRouter.InterleavedRuns
import KafkaEdgeRouter.RouterAccesses

/-!
# Dispatches amid receivers

Sequential dispatches during which receivers take deliveries and close at any moment. A schedule
says for every dispatch what the receiver of each connection does before the message reaches its
queue, and what it does from then on until the next dispatch. What a connection sees of a run is a
list of operations of its own receiver and of offers; its queue is a replay of what it saw.
-/

namespace KafkaEdgeRouter.Router

inductive ReceiverOp
  | receive
  | close
  deriving DecidableEq

def receiverProgram (c : ConnectionId) : ReceiverOp → RouterProg Unit
  | .receive => do
    let _ ← receive c
    return ()
  | .close => closeReceiver c

/-- The receiver of a connection is polled; when it has to wait, nothing happens. -/
def poll (o : ConnectionId × ReceiverOp) (s : Shared) : Shared :=
  match (receiverProgram o.1 o.2).run (fun _ => o.1) s with
  | some (_, s') => s'
  | none => s

structure Round where
  message : RoutedMessage
  early : List (ConnectionId × ReceiverOp)
  late : List (ConnectionId × ReceiverOp)

structure Played where
  call : CallId
  order : HashOrder
  trace : List (Entry (ConnectionId × ReceiverOp) Shared)
  response : Response
  after : Shared

inductive Sight
  | op (op : ReceiverOp)
  | offer (delivery : Delivery) (outcome : SendOutcome)

namespace Sight

def offered : Sight → Option (Delivery × SendOutcome)
  | .op _ => none
  | .offer delivery outcome => some (delivery, outcome)

def ofOffer (e : Delivery × SendOutcome) : Sight := .offer e.1 e.2

end Sight

def sights (c : ConnectionId) : Entry (ConnectionId × ReceiverOp) Shared → List Sight
  | .env o => if o.1 = c then [.op o.2] else []
  | .own s s' => (offersTo c (s'.history.drop s.history.length)).map .ofOffer

/-- What the connection saw of a run, in order. -/
def view (c : ConnectionId) (l : List (Entry (ConnectionId × ReceiverOp) Shared)) : List Sight :=
  l.flatMap (sights c)

def opsOf (c : ConnectionId) (l : List (ConnectionId × ReceiverOp)) : List ReceiverOp :=
  l.filterMap (fun o => if o.1 = c then some o.2 else none)

/-- The receiver of the connection kept to the schedule: the early operations came before the
message reached the connection, if it did, and the late ones after. -/
def Round.KeptBy (r : Round) (c : ConnectionId)
    (l : List (Entry (ConnectionId × ReceiverOp) Shared)) : Prop :=
  ∃ offers : List (Delivery × SendOutcome), view c l =
    (opsOf c r.early).map .op ++ offers.map .ofOffer ++ (opsOf c r.late).map .op

/-- The rounds were played one after the other, from `s` on. -/
def Plays (config : RouterConfig) : Shared → List Round → List Played → Prop
  | _, [], [] => True
  | s, r :: rounds, p :: played =>
    (serve config p.call p.order (.dispatch r.message)).Exec poll s p.trace p.response p.after ∧
      (∀ c, r.KeptBy c p.trace) ∧ Plays config p.after rounds played
  | _, _, _ => False

section Polls

def ReceiverOp.onChannel : ReceiverOp → Channel Delivery → Channel Delivery
  | .receive, channel =>
    match channel.recv with
    | some (_, channel') => channel'
    | none => channel
  | .close, channel => channel.close

theorem recv_eq_none {α : Type} {channel : Channel α} (h : channel.queue.isEmpty = true) :
    channel.recv = none := by
  unfold Channel.recv
  rw [List.isEmpty_iff.mp h]

theorem poll_receive (c : ConnectionId) (s : Shared) :
    poll (c, .receive) s = match (s.channels.lookup c).bind Channel.recv with
      | none => s
      | some result => { s with channels := s.channels.modify c (fun _ => result.2) } := by
  unfold poll receiverProgram receive
  cases hrecv : (s.channels.lookup c).bind Channel.recv with
  | none =>
    simp only [Prog.run, Prog.await, bind, Prog.bind, hrecv]
    split_ifs <;> rfl
  | some result =>
    obtain ⟨channel, hl, hch⟩ := Option.bind_eq_some_iff.mp hrecv
    have hready : channel.queue.isEmpty = false := by
      rw [Bool.eq_false_iff]
      intro hempty
      rw [recv_eq_none hempty] at hch
      cases hch
    simp only [Prog.run, Prog.await, bind, Prog.bind, hl, hready, Bool.not_false, Bool.true_or,
      if_true, Option.bind, hch]
    rfl

theorem poll_frame (o : ConnectionId × ReceiverOp) (s : Shared) :
    ∃ channels, poll o s = { s with channels := channels } ∧
      ∀ c, channels.lookup c =
        if o.1 = c then (s.channels.lookup c).map o.2.onChannel else s.channels.lookup c := by
  obtain ⟨c, op⟩ := o
  cases op with
  | close =>
    refine ⟨s.channels.modify c Channel.close, rfl, fun c' => ?_⟩
    by_cases hc : c = c'
    · subst c'
      rw [if_pos rfl, AList.lookup_modify_self]
      rfl
    · rw [if_neg hc, AList.lookup_modify_ne (Ne.symm hc)]
  | receive =>
    rw [poll_receive]
    cases hrecv : (s.channels.lookup c).bind Channel.recv with
    | none =>
      refine ⟨s.channels, rfl, fun c' => ?_⟩
      split_ifs with hc
      · subst c'
        cases hl : s.channels.lookup c with
        | none => rfl
        | some channel =>
          rw [hl] at hrecv
          change channel.recv = none at hrecv
          simp only [Option.map_some, ReceiverOp.onChannel, hrecv]
      · rfl
    | some result =>
      obtain ⟨channel, hl, hch⟩ := Option.bind_eq_some_iff.mp hrecv
      refine ⟨s.channels.modify c (fun _ => result.2), rfl, fun c' => ?_⟩
      by_cases hc : c = c'
      · subst c'
        rw [if_pos rfl, AList.lookup_modify_self, hl]
        simp only [Option.map_some, ReceiverOp.onChannel, hch]
      · rw [if_neg hc, AList.lookup_modify_ne (Ne.symm hc)]

theorem drifts_frame {s t : Shared} (h : Prog.Drifts poll s t) :
    ∃ channels, t = { s with channels := channels } := by
  refine h.keeps (P := fun t => ∃ channels, t = { s with channels := channels }) ?_ ⟨_, rfl⟩
  rintro o _ ⟨channels, rfl⟩
  obtain ⟨channels', heq, _⟩ := poll_frame o { s with channels := channels }
  exact ⟨channels', heq⟩

end Polls

section Replay

def sendTo (delivery : Delivery) :
    Option (Channel Delivery) → SendOutcome × Option (Channel Delivery)
  | none => (.closed, none)
  | some channel => ((channel.trySend delivery).1, some (channel.trySend delivery).2)

/-- The queue went from the one state to the other as the connection saw it. -/
def Replays : List Sight → Option (Channel Delivery) → Option (Channel Delivery) → Prop
  | [], channel, channel' => channel' = channel
  | .op op :: v, channel, channel' => Replays v (channel.map op.onChannel) channel'
  | .offer delivery outcome :: v, channel, channel' =>
    outcome = (sendTo delivery channel).1 ∧ Replays v (sendTo delivery channel).2 channel'

theorem replays_append {v w : List Sight} {channel channel' : Option (Channel Delivery)} :
    Replays (v ++ w) channel channel' ↔
      ∃ between, Replays v channel between ∧ Replays w between channel' := by
  induction v generalizing channel with
  | nil => simp [Replays]
  | cons x v ih =>
    cases x with
    | op op => exact ih
    | offer delivery outcome =>
      rw [List.cons_append, Replays, ih]
      simp only [Replays]
      constructor
      · rintro ⟨hout, between, hv, hw⟩
        exact ⟨between, ⟨hout, hv⟩, hw⟩
      · rintro ⟨between, ⟨hout, hv⟩, hw⟩
        exact ⟨hout, between, hv, hw⟩

structure Shows (s s' : Shared) : Prop where
  history : ∃ events, s'.history = s.history ++ events
  replays : ∀ c, Replays (sights c (.own s s')) (s.channels.lookup c) (s'.channels.lookup c)

theorem sights_own {c : ConnectionId} {s s' : Shared} {events : List Event}
    (h : s'.history = s.history ++ events) :
    sights c (.own s s') = (offersTo c events).map .ofOffer := by
  simp only [sights, h, List.drop_left]

theorem shows_quiet {s s' : Shared} {events : List Event}
    (hh : s'.history = s.history ++ events) (hnone : ∀ c, offersTo c events = [])
    (hc : s'.channels = s.channels) : Shows s s' := by
  refine ⟨⟨events, hh⟩, fun c => ?_⟩
  rw [sights_own hh, hnone c, hc]
  rfl

theorem shows_eq {s s' : Shared} (hh : s'.history = s.history) (hc : s'.channels = s.channels) :
    Shows s s' := by
  have hh' : s'.history = s.history ++ [] := by rw [hh, List.append_nil]
  exact shows_quiet hh' (fun _ => rfl) hc

theorem shows_offer {config : RouterConfig} {call : CallId} (last : Bool)
    (message : Option RoutedMessage) (c : ConnectionId) (ids : List SubscriptionId) (s : Shared) :
    Shows s (offer config call last message c ids s).2 := by
  cases hl : s.connections.lookup c with
  | none =>
    rw [offer_none last message hl]
    exact shows_eq rfl rfl
  | some connection =>
    cases message with
    | none =>
      simp only [offer, hl]
      exact shows_quiet rfl (fun _ => rfl) rfl
    | some message =>
      rw [offer_some last hl]
      refine ⟨⟨_, rfl⟩, fun c' => ?_⟩
      rw [sights_own rfl]
      by_cases hc : c' = c
      · subst c'
        rw [offersTo_self, List.map_singleton, Sight.ofOffer, Replays]
        simp only [afterOffer, AList.lookup_modify_self, trySend]
        cases s.channels.lookup c with
        | none => exact ⟨rfl, rfl⟩
        | some channel => exact ⟨rfl, rfl⟩
      · rw [offersTo_ne call hc]
        exact AList.lookup_modify_ne hc _ _

theorem shows_of_access {config : RouterConfig} {call : CallId} {message : RoutedMessage}
    {s s' : Shared} (h : Access config call (.dispatch message) s s') : Shows s s' := by
  cases h with
  | read => exact shows_eq rfl rfl
  | meter => exact shows_eq rfl rfl
  | lock => exact shows_eq rfl rfl
  | unlock => exact shows_quiet rfl (fun _ => rfl) rfl
  | @takeConnection _ c _ _ =>
    rcases takeConnection_cases c s with ⟨_, heq⟩ | ⟨r, _, heq⟩
    · rw [heq]
      exact shows_eq rfl rfl
    · rw [heq]
      exact shows_eq rfl rfl
  | unregistered => exact shows_quiet rfl (fun _ => rfl) rfl
  | discard => exact shows_eq rfl rfl
  | prune => exact shows_eq rfl rfl
  | offer last c ids _ _ => exact shows_offer last _ c ids s

theorem shows_serve (config : RouterConfig) (call : CallId) (order : HashOrder)
    (message : RoutedMessage) :
    (serve config call order (.dispatch message)).Always Shows :=
  always_serve order (fun _ => shows_quiet rfl (fun _ => rfl) rfl) (fun _ _ => shows_of_access)
    (fun _ _ => shows_quiet rfl (fun _ => rfl) rfl)

/-- What a connection saw of a dispatch agrees with its queue and with the history. -/
theorem exec_view {config : RouterConfig} {call : CallId} {order : HashOrder}
    {message : RoutedMessage} {s s' : Shared}
    {l : List (Entry (ConnectionId × ReceiverOp) Shared)} {response : Response}
    (h : (serve config call order (.dispatch message)).Exec poll s l response s')
    (c : ConnectionId) :
    Replays (view c l) (s.channels.lookup c) (s'.channels.lookup c) ∧
      ∃ events, s'.history = s.history ++ events ∧
        offersTo c events = (view c l).filterMap Sight.offered := by
  refine h.along (K := Shows) (R := fun s l s' =>
    Replays (view c l) (s.channels.lookup c) (s'.channels.lookup c) ∧
      ∃ events, s'.history = s.history ++ events ∧
        offersTo c events = (view c l).filterMap Sight.offered) ?_ ?_ ?_
    (shows_serve config call order message)
  · exact fun s => ⟨rfl, [], (List.append_nil _).symm, rfl⟩
  · rintro o s l s' ⟨hreplays, events, hhistory, hoffers⟩
    obtain ⟨channels, heq, hlookup⟩ := poll_frame o s
    rw [heq] at hreplays hhistory
    simp only [hlookup c] at hreplays
    simp only [view, List.flatMap_cons, sights]
    split_ifs at hreplays ⊢ with hc
    · exact ⟨hreplays, events, hhistory, hoffers⟩
    · exact ⟨hreplays, events, hhistory, hoffers⟩
  · rintro s s₁ l s' ⟨⟨new, hnew⟩, hshows⟩ ⟨hreplays, events, hhistory, hoffers⟩
    have hview : view c (.own s s₁ :: l) = sights c (.own s s₁) ++ view c l := rfl
    refine ⟨?_, new ++ events, by rw [hhistory, hnew, List.append_assoc], ?_⟩
    · rw [hview, replays_append]
      exact ⟨_, hshows c, hreplays⟩
    · rw [hview, List.filterMap_append, offersTo_append, hoffers, sights_own hnew,
        List.filterMap_map]
      have hid : (Sight.offered ∘ Sight.ofOffer) = some := rfl
      rw [hid, List.filterMap_some]

end Replay
end KafkaEdgeRouter.Router
