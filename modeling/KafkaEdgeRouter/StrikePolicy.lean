import KafkaEdgeRouter.ConsumerIsolation
import KafkaEdgeRouter.DispatchRefinement
import KafkaEdgeRouter.SequentialCalls

/-!
# The strike policy

A dispatch evicts a connection whose receiver is closed, and one whose queue was full too often in a
row. The strikes of a connection are a count of its last outcomes: every access of a call either
leaves them alone, or is an offer, whose outcome it counts. Between two calls the count is below the
threshold, because the dispatch that would reach it evicts.
-/

namespace KafkaEdgeRouter.Router

open InvertedIndex

/-- The strikes that a list of outcomes leaves on a new connection. -/
def strikesOf (offers : List (Delivery × SendOutcome)) : ℕ :=
  offers.foldl (fun strikes e => strikesAfter e.2 strikes) 0

/-- How often the queue was full since the last delivery it accepted. -/
def consecutiveFulls (outcomes : List SendOutcome) : ℕ :=
  (outcomes.reverse.takeWhile (fun outcome => outcome ≠ .accepted)).count .full

section Counting

theorem consecutiveFulls_concat (outcomes : List SendOutcome) (outcome : SendOutcome) :
    consecutiveFulls (outcomes ++ [outcome]) = match outcome with
      | .accepted => 0
      | .full => consecutiveFulls outcomes + 1
      | .closed => consecutiveFulls outcomes := by
  cases outcome <;> simp [consecutiveFulls]

theorem strikesOf_eq (offers : List (Delivery × SendOutcome)) :
    strikesOf offers = min (consecutiveFulls (offers.map Prod.snd)) 4294967295 := by
  induction offers using List.reverseRecOn with
  | nil => rfl
  | append_singleton offers e ih =>
    obtain ⟨delivery, outcome⟩ := e
    rw [strikesOf, List.foldl_concat, ← strikesOf, ih, List.map_append, List.map_singleton,
      consecutiveFulls_concat]
    cases outcome with
    | accepted => rfl
    | full =>
      simp only [strikesAfter]
      omega
    | closed => rfl

end Counting

/-- The strikes of the connection are those of its offers. -/
structure Struck (c : ConnectionId) (s : Shared) : Prop where
  channel : c ∈ s.connections → c ∈ s.channels
  unoffered : c ∉ s.channels → offersTo c s.history = []
  strikes : ∀ connection, s.connections.lookup c = some connection →
    connection.fullStrikes = strikesOf (offersTo c s.history)

/-- The connection is offered nothing; it keeps its strikes, or is new and has none. -/
inductive Calm (c : ConnectionId) (s s' : Shared) : Prop
  | same (hoffers : offersTo c s'.history = offersTo c s.history)
      (hchannel : c ∈ s'.channels ↔ c ∈ s.channels)
      (hstrikes : ∀ connection', s'.connections.lookup c = some connection' →
        ∃ connection, s.connections.lookup c = some connection ∧
          connection'.fullStrikes = connection.fullStrikes)
  | registered (hoffers : offersTo c s'.history = offersTo c s.history) (hnew : c ∉ s.channels)
      (hchannel : c ∈ s'.channels)
      (hstrikes : ∀ connection', s'.connections.lookup c = some connection' →
        connection'.fullStrikes = 0)

section Accesses

variable {config : RouterConfig} {call : CallId} {request : Request} {c : ConnectionId}
  {s s' : Shared}

theorem calm_of_eq (hoffers : offersTo c s'.history = offersTo c s.history)
    (hchannels : s'.channels = s.channels) (hc : s'.connections = s.connections) : Calm c s s' := by
  refine .same hoffers (by rw [hchannels]) (fun connection' hl => ⟨connection', ?_, rfl⟩)
  rwa [← hc]

theorem calm_of_record {e : Event} (he : e.offeredTo c = none) (hh : s'.history = s.history ++ [e])
    (hchannels : s'.channels = s.channels) (hc : s'.connections = s.connections) : Calm c s s' := by
  refine calm_of_eq ?_ hchannels hc
  rw [hh, offersTo_append]
  simp [offersTo, he]

theorem calm_modify (x : ConnectionId) {f : ConnectionState → ConnectionState}
    (hf : ∀ connection, (f connection).fullStrikes = connection.fullStrikes) :
    Calm c s { s with connections := s.connections.modify x f } := by
  refine .same rfl Iff.rfl (fun connection' hl => ?_)
  rw [AList.lookup_modify] at hl
  obtain ⟨connection, hlookup, rfl⟩ := Option.map_eq_some_iff.mp hl
  refine ⟨connection, hlookup, ?_⟩
  split_ifs
  · exact hf connection
  · rfl

theorem calm_insertConnection {tenantId : String} {protocol : DeliveryProtocol} {capacity : ℕ}
    {id : ConnectionId} (hid : id ∉ s.channels) :
    Calm c s (insertConnection call tenantId protocol capacity id s) := by
  have hoffers : offersTo c (insertConnection call tenantId protocol capacity id s).history =
      offersTo c s.history := by
    change offersTo c (s.history ++ [.registered call id tenantId]) = _
    rw [offersTo_append]
    exact List.append_nil _
  by_cases hc : c = id
  · subst id
    refine .registered hoffers hid (AList.mem_insert _ |>.mpr (Or.inl rfl)) ?_
    intro connection' hl
    change (s.connections.insert c _).lookup c = some connection' at hl
    rw [AList.lookup_insert] at hl
    rw [← Option.some.inj hl]
  · refine .same hoffers ?_ ?_
    · change c ∈ s.channels.insert id _ ↔ _
      rw [AList.mem_insert]
      exact or_iff_right hc
    · intro connection' hl
      change (s.connections.insert id _).lookup c = some connection' at hl
      rw [AList.lookup_insert_ne hc] at hl
      exact ⟨connection', hl, rfl⟩

theorem calm_insertSubscription (x : ConnectionId) (sid : SubscriptionId) (filter : RouteFilter) :
    Calm c s (insertSubscription config x sid filter s).2 := by
  unfold insertSubscription
  split
  · exact calm_of_eq rfl rfl rfl
  split_ifs
  · exact calm_of_eq rfl rfl rfl
  · exact calm_of_eq rfl rfl rfl
  · exact calm_of_eq rfl rfl rfl
  · refine calm_modify x ?_
    exact fun _ => rfl

theorem calm_takeSubscription (x : ConnectionId) (sid : SubscriptionId) :
    Calm c s (takeSubscription x sid s).2 := by
  unfold takeSubscription
  split
  · exact calm_of_eq rfl rfl rfl
  split
  · exact calm_of_eq rfl rfl rfl
  · refine calm_modify x ?_
    exact fun _ => rfl

theorem calm_takeConnection (x : ConnectionId) : Calm c s (takeConnection x s).2 := by
  rcases takeConnection_cases x s with ⟨_, heq⟩ | ⟨r, _, heq⟩
  · rw [heq]
    exact calm_of_eq rfl rfl rfl
  · rw [heq]
    refine .same rfl Iff.rfl (fun connection' hl => ⟨connection', ?_, rfl⟩)
    by_cases hc : c = x
    · subst x
      rw [AList.lookup_erase] at hl
      cases hl
    · rwa [AList.lookup_erase_ne hc] at hl

theorem calm_or_offer (h : Access config call request s s') :
    (∃ message message' last x ids, request = .dispatch message ∧
      s' = (offer config call last message' x ids s).2) ∨ ∀ c, Calm c s s' := by
  cases h with
  | read => exact Or.inr fun _ => calm_of_eq rfl rfl rfl
  | meter => exact Or.inr fun _ => calm_of_eq rfl rfl rfl
  | lock => exact Or.inr fun _ => calm_of_eq rfl rfl rfl
  | unlock => exact Or.inr fun _ => calm_of_eq (by simp [Shared.log]) rfl rfl
  | insertConnection hid => exact Or.inr fun _ => calm_insertConnection hid
  | insertSubscription x sid filter => exact Or.inr fun _ => calm_insertSubscription x sid filter
  | pushRoute => exact Or.inr fun _ => calm_of_record rfl rfl rfl rfl
  | takeSubscription x sid => exact Or.inr fun _ => calm_takeSubscription x sid
  | unsubscribed => exact Or.inr fun _ => calm_of_record rfl rfl rfl rfl
  | @takeConnection _ x => exact Or.inr fun _ => calm_takeConnection x
  | unregistered => exact Or.inr fun _ => calm_of_record rfl rfl rfl rfl
  | discard => exact Or.inr fun _ => calm_of_eq rfl rfl rfl
  | prune => exact Or.inr fun _ => calm_of_eq rfl rfl rfl
  | offer last x ids _ _ => exact Or.inl ⟨_, _, last, x, ids, rfl, rfl⟩
  | receive => exact Or.inr fun _ => .same rfl (AList.mem_modify ..) fun c hl => ⟨c, hl, rfl⟩
  | close => exact Or.inr fun _ => .same rfl (AList.mem_modify ..) fun c hl => ⟨c, hl, rfl⟩

theorem Struck.calm (h : Calm c s s') (hs : Struck c s) : Struck c s' := by
  cases h with
  | same hoffers hchannel hstrikes =>
    refine ⟨fun hc => ?_, fun hc => ?_, fun connection' hl => ?_⟩
    · obtain ⟨connection', hl⟩ := AList.exists_lookup hc
      obtain ⟨connection, hl', _⟩ := hstrikes connection' hl
      exact hchannel.mpr (hs.channel (AList.mem_of_lookup hl'))
    · rw [hoffers, hs.unoffered (fun hc' => hc (hchannel.mpr hc'))]
    · obtain ⟨connection, hl', heq⟩ := hstrikes connection' hl
      rw [heq, hs.strikes connection hl', hoffers]
  | registered hoffers hnew hchannel hstrikes =>
    refine ⟨fun _ => hchannel, fun hc => absurd hchannel hc, fun connection' hl => ?_⟩
    rw [hstrikes connection' hl, hoffers, hs.unoffered hnew]
    rfl

theorem Struck.offer {last : Bool} {message : Option RoutedMessage} {x : ConnectionId}
    {ids : List SubscriptionId} (hs : Struck c s) :
    Struck c (offer config call last message x ids s).2 := by
  cases hl : s.connections.lookup x with
  | none =>
    rw [offer_none last message hl]
    exact hs
  | some connection =>
    cases message with
    | none =>
      simp only [Router.offer, hl]
      exact hs.calm (calm_of_record rfl rfl rfl rfl)
    | some message =>
      rw [offer_some last hl]
      by_cases hc : c = x
      · subst x
        have hchannel : c ∈ s.channels := hs.channel (AList.mem_of_lookup hl)
        refine ⟨fun _ => (AList.mem_modify ..).mpr hchannel,
          fun hc => absurd ((AList.mem_modify ..).mpr hchannel) hc, fun connection' hl' => ?_⟩
        simp only [afterOffer, AList.lookup_modify_self, hl, Option.map_some] at hl'
        rw [← Option.some.inj hl', afterOffer, offersTo_append, offersTo_self, strikesOf,
          List.foldl_concat, ← strikesOf, ← hs.strikes connection hl]
      · refine hs.calm (.same ?_ (AList.mem_modify ..) fun connection' hl' => ?_)
        · rw [afterOffer, offersTo_append, offersTo_ne call hc, List.append_nil]
        · exact ⟨connection', (AList.lookup_modify_ne hc _ _).symm.trans hl', rfl⟩

theorem Struck.access (h : Access config call request s s') (hs : Struck c s) : Struck c s' := by
  rcases calm_or_offer h with ⟨_, _, _, _, _, _, rfl⟩ | hcalm
  · exact hs.offer
  · exact hs.calm (hcalm c)

theorem calm_poll (o : ConnectionId × ReceiverOp) (c : ConnectionId) (s : Shared) :
    Calm c s (poll o s) := by
  obtain ⟨channels, heq, hlookup⟩ := poll_frame o s
  rw [heq]
  refine .same rfl ?_ (fun connection' hl => ⟨connection', hl, rfl⟩)
  rw [← AList.lookup_isSome, ← AList.lookup_isSome, hlookup c]
  split_ifs <;> simp

end Accesses

/-- No registered connection has reached the threshold. -/
def Below (config : RouterConfig) (s : Shared) : Prop :=
  ∀ c connection, s.connections.lookup c = some connection →
    connection.fullStrikes < max 1 config.slowConsumerStrikes

section Runs

variable {config : RouterConfig} {call : CallId} {order : HashOrder} {request : Request}
  {response : Response} {message : RoutedMessage} {n : ℕ} {c : ConnectionId} {s s' : Shared}
  {l : List (Entry (ConnectionId × ReceiverOp) Shared)}

theorem struck_new (c : ConnectionId) : Struck c Shared.new :=
  ⟨by simp [Shared.new], fun _ => rfl, by simp [Shared.new]⟩

theorem struck_serve (h : (serve config call order request).Exec poll s l response s')
    (hs : Struck c s) : Struck c s' :=
  h.keeps (K := fun s s' => Struck c s → Struck c s') (fun o s hs => hs.calm (calm_poll o c s))
    (fun _ _ hstep => hstep)
    (always_serve order (fun _ hs => hs.calm (calm_of_record rfl rfl rfl rfl))
      (fun _ _ haccess hs => hs.access haccess)
      (fun _ _ hs => hs.calm (calm_of_record rfl rfl rfl rfl))) hs

theorem Below.calm (h : ∀ c, Calm c s s') (hs : Below config s) : Below config s' := by
  intro c connection' hl
  cases h c with
  | same _ _ hstrikes =>
    obtain ⟨connection, hl', heq⟩ := hstrikes connection' hl
    rw [heq]
    exact hs c connection hl'
  | registered _ _ _ hstrikes =>
    rw [hstrikes connection' hl]
    omega

theorem below_serve (hne : ∀ message, request ≠ .dispatch message)
    (h : (serve config call order request).Exec poll s l response s') (hs : Below config s) :
    Below config s' := by
  refine h.keeps (K := fun s s' => Below config s → Below config s')
    (fun o s hs => hs.calm (fun c => calm_poll o c s)) (fun _ _ hstep => hstep)
    (always_serve order (fun _ hs => hs.calm (fun _ => calm_of_record rfl rfl rfl rfl)) ?_
      (fun _ _ hs => hs.calm (fun _ => calm_of_record rfl rfl rfl rfl))) hs
  intro s s' haccess hs
  rcases calm_or_offer haccess with ⟨message, _, _, _, _, heq, _⟩ | hcalm
  · exact absurd heq (hne message)
  · exact hs.calm hcalm

/-- A dispatch may bring a connection to the threshold, but then it evicts it. -/
theorem below_serve_dispatch (hf : Filled s.routes)
    (h : (serve config call order (.dispatch message)).Exec poll s l response s')
    (hs : Below config s) : Below config s' := by
  intro c connection' hl'
  obtain ⟨events, _, heffect, _⟩ := exec_serve_dispatch hf h c
  cases heffect with
  | passed _ _ hpasses =>
    rw [hpasses.connection] at hl'
    exact hs c connection' hl'
  | @kept connection outcome hl _ _ hd hconnection _ =>
    rw [hconnection] at hl'
    rw [← Option.some.inj hl']
    cases outcome with
    | accepted =>
      simp only [strikesAfter]
      omega
    | full =>
      simp only [disconnects, decide_eq_false_iff_not] at hd
      simp only
      omega
    | closed => cases hd
  | evicted _ _ _ _ hconnection =>
    rw [hconnection] at hl'
    cases hl'

/-- Between two calls the strikes count the outcomes and are below the threshold. -/
theorem strikes_of_makes {made : List Made} (h : Makes config 0 Shared.new made s) :
    Quiet config made.length s ∧ (∀ c, Struck c s) ∧ Below config s := by
  have hquiet := quiet_of_makes (quiet_new config) h
  rw [Nat.zero_add] at hquiet
  refine ⟨hquiet, ?_⟩
  refine h.keeps (P := fun s => (∀ c, Struck c s) ∧ Below config s) (quiet_new config) ?_
    ⟨struck_new, by simp [Below, Shared.new]⟩
  rintro n s m hs ⟨hstruck, hbelow⟩ hexec
  refine ⟨fun c => struck_serve hexec (hstruck c), ?_⟩
  by_cases hdispatch : ∃ message, m.request = .dispatch message
  · obtain ⟨message, heq⟩ := hdispatch
    rw [heq] at hexec
    exact below_serve_dispatch hs.inv.base.filled hexec hbelow
  · exact below_serve (fun message heq => hdispatch ⟨message, heq⟩) hexec hbelow

end Runs

section Queues

variable {c : ConnectionId} {s : Shared} {l : List (Entry (ConnectionId × ReceiverOp) Shared)}
  {delivery : Delivery} {outcome : SendOutcome} {channel : Channel Delivery}

def Meets (c : ConnectionId) (s : Shared) (l : List (Entry (ConnectionId × ReceiverOp) Shared))
    (delivery : Delivery) (channel : Channel Delivery) : Prop :=
  ∃ (early late : List ReceiverOp) (outcome : SendOutcome) (first : Channel Delivery),
    view c l = early.map .op ++ .offer delivery outcome :: late.map .op ∧
    s.channels.lookup c = some first ∧
    channel = early.foldl (fun channel op => ReceiverOp.onChannel op channel) first

theorem ops_of_unoffered {v : List Sight} (h : v.filterMap Sight.offered = []) :
    ∃ ops : List ReceiverOp, v = ops.map .op := by
  induction v with
  | nil => exact ⟨[], rfl⟩
  | cons x v ih =>
    cases x with
    | op op =>
      obtain ⟨ops, hops⟩ := ih h
      exact ⟨op :: ops, by rw [hops, List.map_cons]⟩
    | offer delivery outcome => cases h

theorem split_of_offered {v : List Sight} (h : v.filterMap Sight.offered = [(delivery, outcome)]) :
    ∃ early late : List ReceiverOp,
      v = early.map .op ++ .offer delivery outcome :: late.map .op := by
  induction v with
  | nil => cases h
  | cons x v ih =>
    cases x with
    | op op =>
      obtain ⟨early, late, heq⟩ := ih h
      exact ⟨op :: early, late, by rw [heq, List.map_cons, List.cons_append]⟩
    | offer delivery' outcome' =>
      obtain ⟨hhead, htail⟩ := List.cons.inj h
      obtain ⟨rfl, rfl⟩ := Prod.mk.inj hhead
      obtain ⟨late, hlate⟩ := ops_of_unoffered htail
      exact ⟨[], late, by rw [hlate]; rfl⟩

theorem replays_ops {early : List ReceiverOp} {v : List Sight} {first : Channel Delivery}
    {last : Option (Channel Delivery)} (h : Replays (early.map .op ++ v) (some first) last) :
    Replays v (some (early.foldl (fun channel op => ReceiverOp.onChannel op channel) first))
      last := by
  induction early generalizing first with
  | nil => exact h
  | cons op early ih => exact ih h

theorem trySend_closed_iff : (channel.trySend delivery).1 = .closed ↔ channel.closed = true := by
  unfold Channel.trySend
  split_ifs with hclosed <;> simp [hclosed]

theorem Meets.sent (h : Meets c s l delivery channel) {last : Option (Channel Delivery)}
    (hreplays : Replays (view c l) (s.channels.lookup c) last)
    {delivery' : Delivery} (hoffers : (view c l).filterMap Sight.offered = [(delivery', outcome)]) :
    delivery' = delivery ∧ (channel.trySend delivery).1 = outcome := by
  obtain ⟨early, late, outcome₀, first, hview, hl, rfl⟩ := h
  rw [hview, hl] at hreplays
  have hsent := (replays_ops hreplays).1
  rw [show early.map Sight.op ++ Sight.offer delivery outcome₀ :: late.map .op =
    early.map .op ++ [(delivery, outcome₀)].map .ofOffer ++ late.map .op by simp [Sight.ofOffer]]
    at hview
  rw [offersIn_of_keptBy hview] at hoffers
  obtain ⟨rfl, rfl⟩ := Prod.mk.inj (List.cons.inj hoffers).1
  exact ⟨rfl, hsent.symm⟩

end Queues

/-- The message found the receiver closed, or the queue full for the last time that the policy
bears. -/
def StrikesOut (config : RouterConfig) (c : ConnectionId) (s : Shared)
    (l : List (Entry (ConnectionId × ReceiverOp) Shared)) : Prop :=
  ∃ delivery channel, Meets c s l delivery channel ∧
    (channel.closed = true ∨ (channel.trySend delivery).1 = .full ∧
      consecutiveFulls ((offersTo c s.history).map Prod.snd ++ [.full]) =
        max 1 config.slowConsumerStrikes)

theorem disconnects_iff {config : RouterConfig} (hstrikes : config.slowConsumerStrikes ≤ 4294967295)
    {c : ConnectionId} {s : Shared} (hstruck : Struck c s) {connection : ConnectionState}
    (hl : s.connections.lookup c = some connection)
    (hbelow : connection.fullStrikes < max 1 config.slowConsumerStrikes) (outcome : SendOutcome) :
    disconnects config outcome (strikesAfter outcome connection.fullStrikes) = true ↔
      outcome = .closed ∨ outcome = .full ∧
        consecutiveFulls ((offersTo c s.history).map Prod.snd ++ [.full]) =
          max 1 config.slowConsumerStrikes := by
  have hcount := hstruck.strikes connection hl
  rw [strikesOf_eq] at hcount
  cases outcome with
  | accepted => simp [disconnects]
  | full =>
    simp only [disconnects, decide_eq_true_eq, consecutiveFulls_concat, reduceCtorEq, false_or,
      true_and]
    rw [strikesAfter]
    omega
  | closed => simp [disconnects]

/-- Eviction is exactly the strike policy. Whatever calls were made one after the other and whatever
the receivers did, the strikes of every registered connection are below the threshold, and the next
dispatch takes a registered connection out if and only if it matches the connection and finds its
receiver closed or its queue full for the last time in a row that the policy bears. It leaves a
connection that it does not match as it was. -/
theorem eviction_iff_strikes_out (config : RouterConfig)
    (hstrikes : config.slowConsumerStrikes ≤ 4294967295) (made : List Made) (s : Shared)
    (hmade : Makes config 0 Shared.new made s) (c : ConnectionId) (connection : ConnectionState)
    (hl : s.connections.lookup c = some connection) :
    connection.fullStrikes < max 1 config.slowConsumerStrikes ∧
    ∀ (order : HashOrder) (message : RoutedMessage)
      (l : List (Entry (ConnectionId × ReceiverOp) Shared)) (response : Response) (s' : Shared),
      (serve config ⟨made.length, 0⟩ order (.dispatch message)).Exec poll s l response s' →
      (s'.connections.lookup c = none ↔
        (∃ sid, Matched s message c sid) ∧ StrikesOut config c s l) ∧
      ((¬ ∃ sid, Matched s message c sid) → s'.connections.lookup c = some connection) := by
  obtain ⟨hquiet, hstruck, hbelow⟩ := strikes_of_makes hmade
  refine ⟨hbelow c connection hl, fun order message l response s' hexec => ?_⟩
  obtain ⟨hreplays, events, hhistory, hoffers⟩ := exec_view hexec c
  obtain ⟨events', hhistory', heffect, _⟩ := exec_serve_dispatch hquiet.inv.base.filled hexec c
  obtain rfl : events = events' := List.append_cancel_left (hhistory.symm.trans hhistory')
  rw [hoffers] at heffect
  have hcons := hquiet.consistent
  have hmatched : (∃ sid, Matched s message c sid) ↔
      gather s.routes c (RouteKey.candidates message.metadata) ≠ [] := by
    constructor
    · rintro ⟨sid, hm⟩
      exact List.ne_nil_of_mem ((mem_gather_candidates hcons).mpr hm)
    · intro hne
      obtain ⟨sid, hsid⟩ := List.exists_mem_of_ne_nil _ hne
      exact ⟨sid, (mem_gather_candidates hcons).mp hsid⟩
  have hpolicy := disconnects_iff hstrikes (hstruck c) hl (hbelow c connection hl)
  obtain ⟨first, hfirst⟩ :=
    AList.exists_lookup ((hstruck c).channel (AList.mem_of_lookup hl))
  have hmeets : ∀ {delivery outcome},
      (view c l).filterMap Sight.offered = [(delivery, outcome)] →
      (StrikesOut config c s l ↔
        disconnects config outcome (strikesAfter outcome connection.fullStrikes) = true) := by
    intro delivery outcome hoffered
    rw [hpolicy]
    constructor
    · rintro ⟨delivery', channel, hmeets, hout⟩
      obtain ⟨_, rfl⟩ := hmeets.sent hreplays hoffered
      exact hout.imp_left trySend_closed_iff.mpr
    · intro hout
      obtain ⟨early, late, hview⟩ := split_of_offered hoffered
      have hm : Meets c s l delivery
          (early.foldl (fun channel op => ReceiverOp.onChannel op channel) first) :=
        ⟨early, late, outcome, first, hview, hfirst, rfl⟩
      obtain ⟨_, hsent⟩ := hm.sent hreplays hoffered
      rw [← hsent] at hout
      exact ⟨_, _, hm, hout.imp_left trySend_closed_iff.mp⟩
  rw [hmatched]
  cases heffect with
  | passed h _ hpasses =>
    have hempty : gather s.routes c (RouteKey.candidates message.metadata) = [] :=
      h.resolve_left (by simp [hl])
    have hkept : s'.connections.lookup c = some connection := hpasses.connection.trans hl
    simp [hempty, hkept]
  | @kept connection' outcome hl' hne hoffered hd hconnection _ =>
    obtain rfl : connection' = connection := Option.some.inj (hl'.symm.trans hl)
    rw [hmeets hoffered, hd, hconnection]
    simp [hne]
  | @evicted connection' outcome hl' hne hoffered hd hconnection =>
    obtain rfl : connection' = connection := Option.some.inj (hl'.symm.trans hl)
    rw [hmeets hoffered, hd, hconnection]
    simp [hne]

def tightConfig : RouterConfig := { defaultQueueCapacity := 1, slowConsumerStrikes := 1 }

def saturated : Shared :=
  (stateAfterCalls tightConfig ⟨7⟩ 0 Shared.new [.register "acme" .sse none,
    .subscribe ⟨7⟩ ⟨"s"⟩ acmeFilter, .dispatch acmeMessage]).getD Shared.new

theorem eviction_iff_strikes_out_saturated : ∃ made l response s',
    Makes tightConfig 0 Shared.new made saturated ∧
    (serve tightConfig ⟨made.length, 0⟩ .listed (.dispatch acmeMessage)).Exec poll saturated l
      response s' ∧
    s'.connections.lookup ⟨7⟩ = none ∧ StrikesOut tightConfig ⟨7⟩ saturated l := by
  have hstate : stateAfterCalls tightConfig ⟨7⟩ 0 Shared.new [.register "acme" .sse none,
      .subscribe ⟨7⟩ ⟨"s"⟩ acmeFilter, .dispatch acmeMessage] = some saturated := rfl
  obtain ⟨made, hlength, hmade⟩ := makes_of_stateAfterCalls hstate
  have hrun : ((serve tightConfig ⟨3, 0⟩ .listed (.dispatch acmeMessage)).run (fun _ => ⟨7⟩)
      saturated).map (fun result => (result.2.connections.lookup ⟨7⟩).isSome) = some false := rfl
  obtain ⟨⟨response, s'⟩, hs', hgone⟩ := Option.map_eq_some_iff.mp hrun
  rw [Option.isSome_eq_false_iff, Option.isNone_iff_eq_none] at hgone
  obtain ⟨l, hexec, _⟩ : ∃ l, (serve tightConfig ⟨3, 0⟩ .listed (.dispatch acmeMessage)).Exec poll
      saturated l response s' ∧ ∀ e ∈ l, ∃ before after, e = .own before after :=
    Prog.exec_of_run hs'
  have hconnection : (saturated.connections.lookup ⟨7⟩).isSome = true := rfl
  obtain ⟨connection, hl⟩ := Option.isSome_iff_exists.mp hconnection
  rw [show 3 = made.length from hlength.symm] at hexec
  obtain ⟨_, hevict⟩ :=
    eviction_iff_strikes_out tightConfig (by decide) made saturated hmade ⟨7⟩ connection hl
  exact ⟨made, l, response, s', hmade, hexec, hgone,
    ((hevict .listed acmeMessage l response s' hexec).1.mp hgone).2⟩

end KafkaEdgeRouter.Router
