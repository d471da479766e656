import KafkaEdgeRouter.AtomicProgram
import KafkaEdgeRouter.RouterState

/-!
# Router operations

Every operation of the router as a program whose accesses are the single-key accesses of the
concurrent maps. Registration, subscription and removal run under the mutation lock; a dispatch
reads one bucket per candidate key, offers the message to the matching connections one by one and
takes the lock only to evict. The only input of a program is a fresh random identifier. The orders
in which hash maps hand out their entries are parameters.
-/

namespace KafkaEdgeRouter

abbrev RouterProg := Prog Shared ConnectionId

/-- The iteration orders of the hash maps that a call goes through. -/
structure HashOrder where
  connections : IterOrder (ConnectionId × List SubscriptionId)
  subscriptions : ConnectionId → IterOrder (SubscriptionId × RouteFilter)

def HashOrder.listed : HashOrder := ⟨.listed, fun _ => .listed⟩

namespace Router

variable {α : Type}

def lock (call : CallId) : RouterProg Unit :=
  Prog.await (fun _ s => s.mutationLock.isNone)
    (fun _ s => ((), { s with mutationLock := some call.thread }))

def unlock (events : List Event) : RouterProg Unit :=
  Prog.modify (fun s => ({ s with mutationLock := none } : Shared).log events)

/-- Runs the body under the mutation lock, which is given back however the body returns. -/
def withMutationLock (call : CallId) (body : RouterProg α) (events : α → List Event) :
    RouterProg α := do
  lock call
  let result ← body
  unlock (events result)
  return result

def insertConnection (call : CallId) (tenantId : String) (protocol : DeliveryProtocol)
    (capacity : ℕ) (id : ConnectionId) (s : Shared) : Shared :=
  ({ s with
    connections := s.connections.insert id ⟨⟨tenantId, protocol, ∅⟩, 0⟩
    channels := s.channels.insert id (Channel.new capacity) } : Shared).log
      [.registered call id tenantId]

def registerLocked (config : RouterConfig) (call : CallId) (tenantId : String)
    (protocol : DeliveryProtocol) (capacity : ℕ) :
    RouterProg (Except CoreError ConnectionId) := do
  let connections ← Prog.read (fun s => s.connections.size)
  let tenantConnections ← Prog.read (fun s => s.registry.tenantConnections tenantId)
  if connections ≥ config.maxConnections ∨
      tenantConnections ≥ config.maxConnectionsPerTenant then do
    Prog.modify (Shared.count Counters.recordSecurityLimitRejection)
    return .error .connectionLimitReached
  else do
    let id ← Prog.await (fun id s => id ∉ s.channels)
      (fun id s => (id, insertConnection call tenantId protocol capacity id s))
    Prog.modify (fun s =>
      (s.count (Counters.recordOpened protocol)).gauge (Gauges.recordProtocolOpened protocol))
    return .ok id

def registerConnection (config : RouterConfig) (call : CallId) (tenantId : String)
    (protocol : DeliveryProtocol) (queueCapacity : Option ℕ) :
    RouterProg (Except CoreError ConnectionId) :=
  match validateIdentifier "tenant_id" tenantId 256 with
  | .error e => return .error e
  | .ok () =>
    let capacity := queueCapacity.getD config.defaultQueueCapacity
    if capacity = 0 ∨ capacity > config.maxQueueCapacity then
      return .error (.invalidQueueCapacity capacity config.maxQueueCapacity)
    else
      withMutationLock call (registerLocked config call tenantId protocol capacity) (fun _ => [])

/-- The exclusive access of the connection in which a subscription is checked and inserted. -/
def insertSubscription (config : RouterConfig) (c : ConnectionId) (sid : SubscriptionId)
    (filter : RouteFilter) (s : Shared) : Except CoreError DeliveryProtocol × Shared :=
  match s.connections.lookup c with
  | none => (.error .connectionNotFound, s)
  | some connection =>
    if connection.tenantId ≠ filter.tenantId then (.error .tenantMismatch, s)
    else if sid ∈ connection.subscriptions then (.error .subscriptionExists, s)
    else if connection.subscriptions.size ≥ config.maxSubscriptionsPerConnection then
      (.error .subscriptionLimitReached, s)
    else
      (.ok connection.protocol,
        { s with
          connections := s.connections.modify c (fun connection =>
            { connection with subscriptions := connection.subscriptions.insert sid filter }) })

def pushRoute (call : CallId) (c : ConnectionId) (sid : SubscriptionId) (filter : RouteFilter)
    (s : Shared) : Shared :=
  ({ s with routes := s.routes.push (RouteKey.ofFilter filter) c sid } : Shared).log
    [.subscribed call c sid filter]

def subscribeLocked (config : RouterConfig) (call : CallId) (c : ConnectionId)
    (sid : SubscriptionId) (filter : RouteFilter) : RouterProg (Except CoreError Unit) := do
  match ← Prog.read (fun s =>
      (s.connections.lookup c).map (fun connection => connection.tenantId)) with
  | none => return .error .connectionNotFound
  | some tenantId =>
    let totalSubscriptions ← Prog.read (fun s => s.registry.totalSubscriptions)
    let tenantSubscriptions ← Prog.read (fun s => s.registry.tenantSubscriptions tenantId)
    if totalSubscriptions ≥ config.maxSubscriptions ∨
        tenantSubscriptions ≥ config.maxSubscriptionsPerTenant then do
      Prog.modify (Shared.count Counters.recordSecurityLimitRejection)
      return .error .globalSubscriptionLimitReached
    else
      match ← Prog.access (insertSubscription config c sid filter) with
      | .error e => return .error e
      | .ok protocol => do
        Prog.modify (pushRoute call c sid filter)
        Prog.modify (Shared.gauge (Gauges.recordSubscriptionAdded protocol))
        return .ok ()

def subscribe (config : RouterConfig) (call : CallId) (c : ConnectionId) (sid : SubscriptionId)
    (filter : RouteFilter) : RouterProg (Except CoreError Unit) :=
  match filter.validate with
  | .error e => return .error e
  | .ok () => withMutationLock call (subscribeLocked config call c sid filter) (fun _ => [])

def removeFromRoute (c : ConnectionId) (sid : SubscriptionId) (filter : RouteFilter) :
    RouterProg Unit := do
  let key := RouteKey.ofFilter filter
  Prog.modify (fun s => { s with routes := s.routes.discard key c sid })
  Prog.modify (fun s => { s with routes := s.routes.prune key })

def takeSubscription (c : ConnectionId) (sid : SubscriptionId) (s : Shared) :
    Except CoreError (RouteFilter × DeliveryProtocol) × Shared :=
  match s.connections.lookup c with
  | none => (.error .connectionNotFound, s)
  | some connection =>
    match connection.subscriptions.lookup sid with
    | none => (.error .subscriptionNotFound, s)
    | some filter =>
      (.ok (filter, connection.protocol),
        { s with
          connections := s.connections.modify c (fun connection =>
            { connection with subscriptions := connection.subscriptions.erase sid }) })

def unsubscribeLocked (c : ConnectionId) (sid : SubscriptionId) :
    RouterProg (Except CoreError Unit) := do
  match ← Prog.access (takeSubscription c sid) with
  | .error e => return .error e
  | .ok (filter, protocol) => do
    removeFromRoute c sid filter
    Prog.modify (Shared.gauge (Gauges.recordSubscriptionRemoved protocol))
    return .ok ()

def unsubscribe (call : CallId) (c : ConnectionId) (sid : SubscriptionId) :
    RouterProg (Except CoreError Unit) :=
  withMutationLock call (unsubscribeLocked c sid)
    (fun result => match result with
      | .ok () => [.removalReturned call c (some sid)]
      | .error _ => [])

def takeConnection (c : ConnectionId) (s : Shared) : Option Registration × Shared :=
  match s.connections.lookup c with
  | none => (none, s)
  | some connection =>
    (some connection.toRegistration, { s with connections := s.connections.erase c })

def removeAllFromRoutes (c : ConnectionId) : List (SubscriptionId × RouteFilter) → RouterProg Unit
  | [] => return ()
  | (sid, filter) :: rest => do
    removeFromRoute c sid filter
    removeAllFromRoutes c rest

/-- Tells whether the connection was there to be removed. -/
def unregisterLocked (order : HashOrder) (c : ConnectionId) : RouterProg Bool := do
  match ← Prog.access (takeConnection c) with
  | none => return false
  | some connection => do
    removeAllFromRoutes c ((order.subscriptions c).arrange connection.subscriptions.pairs)
    Prog.modify (Shared.gauge
      (Gauges.recordProtocolClosed connection.protocol connection.subscriptions.size))
    return true

def unregisterConnection (call : CallId) (order : HashOrder) (c : ConnectionId) :
    RouterProg Bool :=
  withMutationLock call (unregisterLocked order c)
    (fun removed => if removed then [.removalReturned call c none] else [])

abbrev Matches := AList (fun _ : ConnectionId => List SubscriptionId)

def mergeIds (entry ids : List SubscriptionId) : List SubscriptionId :=
  ids.foldl (fun entry sid => if sid ∈ entry then entry else entry ++ [sid]) entry

def collect (bucket : Bucket ConnectionId SubscriptionId) (found : Matches) : Matches :=
  bucket.pairs.foldl
    (fun found e => found.insert e.1 (mergeIds ((found.lookup e.1).getD []) e.2)) found

def collectCandidates : List RouteKey → Matches → RouterProg Matches
  | [], found => return found
  | candidate :: rest, found => do
    match ← Prog.read (fun s => s.routes.lookup candidate) with
    | none => collectCandidates rest found
    | some bucket => collectCandidates rest (collect bucket found)

/-- Strikes are saturating 32-bit counters. -/
def strikesAfter (outcome : SendOutcome) (strikes : ℕ) : ℕ :=
  match outcome with
  | .accepted => 0
  | .full => min (strikes + 1) 4294967295
  | .closed => strikes

def disconnects (config : RouterConfig) (outcome : SendOutcome) (strikes : ℕ) : Bool :=
  match outcome with
  | .accepted => false
  | .full => strikes ≥ max config.slowConsumerStrikes 1
  | .closed => true

inductive OfferResult
  | gone
  | panicked (text : String)
  | sent (outcome : SendOutcome) (disconnect : Bool)

/-- A sender reaches the channel its connection was registered with. -/
def trySend (c : ConnectionId) (delivery : Delivery) (s : Shared) : SendOutcome × Shared :=
  (match s.channels.lookup c with
    | none => .closed
    | some channel => (channel.trySend delivery).1,
    { s with channels := s.channels.modify c (fun channel => (channel.trySend delivery).2) })

def expectText (last : Bool) : String :=
  if last then "final delivery owns the routed message"
  else "routed message remains available before final delivery"

/-- The exclusive access of a matching connection in which the message is offered to its queue. -/
def offer (config : RouterConfig) (call : CallId) (last : Bool) (message : Option RoutedMessage)
    (c : ConnectionId) (ids : List SubscriptionId) (s : Shared) : OfferResult × Shared :=
  match s.connections.lookup c with
  | none => (.gone, s)
  | some connection =>
    match message with
    | none => (.panicked (expectText last), s.log [.panicked call (expectText last)])
    | some message =>
      let delivery : Delivery := ⟨message, ids⟩
      let sent := trySend c delivery s
      let strikes := strikesAfter sent.1 connection.fullStrikes
      (.sent sent.1 (disconnects config sent.1 strikes),
        ({ sent.2 with
          connections := sent.2.connections.modify c (fun connection =>
            { connection with fullStrikes := strikes }) } : Shared).log
          [.offered call c delivery sent.1])

/-- The fan-out loop: the last of `count` matching connections takes the message, the ones before
it share it. -/
def offerAll (config : RouterConfig) (call : CallId) (count : ℕ) :
    ℕ → Option RoutedMessage → DispatchReport → List ConnectionId →
      List (ConnectionId × List SubscriptionId) →
      RouterProg (Except String (DispatchReport × List ConnectionId))
  | _, _, report, disconnect, [] => return .ok (report, disconnect)
  | index, message, report, disconnect, (c, ids) :: rest => do
    let last := index + 1 == count
    match ← Prog.access (offer config call last message c ids) with
    | .gone =>
      offerAll config call count (index + 1) message (report.record .closed) disconnect rest
    | .panicked text => return .error text
    | .sent outcome evict =>
      offerAll config call count (index + 1) (if last then none else message)
        (report.record outcome) (if evict then disconnect ++ [c] else disconnect) rest

def disconnectAll (call : CallId) (order : HashOrder) : List ConnectionId → RouterProg Unit
  | [] => return ()
  | c :: rest => do
    Prog.modify (Shared.count Counters.recordSlowDisconnect)
    let _ ← unregisterConnection call order c
    disconnectAll call order rest

def matchedSubscriptions (found : Matches) : ℕ := (found.pairs.map (fun e => e.2.length)).sum

def dispatch (config : RouterConfig) (call : CallId) (order : HashOrder)
    (message : RoutedMessage) : RouterProg (Except String DispatchReport) := do
  Prog.modify (Shared.count Counters.recordValidMessage)
  let found ← collectCandidates (RouteKey.candidates message.metadata) ∅
  match ← offerAll config call found.size 0 (some message)
      { matchedSubscriptions := matchedSubscriptions found } []
      (order.connections.arrange found.pairs) with
  | .error text => return .error text
  | .ok (report, disconnect) => do
    disconnectAll call order disconnect
    Prog.modify (Shared.count (Counters.recordDispatch report))
    return .ok report

/-- A receiver waits while its queue is empty and a sender is left. -/
def receive (c : ConnectionId) : RouterProg (Option Delivery) :=
  Prog.await
    (fun _ s => match s.channels.lookup c with
      | none => true
      | some channel => !channel.queue.isEmpty || channel.closed || c ∉ s.connections)
    (fun _ s => match (s.channels.lookup c).bind Channel.recv with
      | none => (none, s)
      | some (delivery, channel) =>
        (some delivery, { s with channels := s.channels.modify c (fun _ => channel) }))

def closeReceiver (c : ConnectionId) : RouterProg Unit :=
  Prog.modify (fun s => { s with channels := s.channels.modify c Channel.close })

def perform (config : RouterConfig) (call : CallId) (order : HashOrder) :
    Request → RouterProg Response
  | .register tenantId protocol queueCapacity => do
    return .registered (← registerConnection config call tenantId protocol queueCapacity)
  | .subscribe c sid filter => do return .settled (← subscribe config call c sid filter)
  | .unsubscribe c sid => do return .settled (← unsubscribe call c sid)
  | .unregister c => do
    let _ ← unregisterConnection call order c
    return .unregistered
  | .dispatch message => do return .dispatched (← dispatch config call order message)
  | .receive c => do return .received (← receive c)
  | .close c => do
    closeReceiver c
    return .closed

/-- One call from its beginning to its return. -/
def serve (config : RouterConfig) (call : CallId) (order : HashOrder) (request : Request) :
    RouterProg Response := do
  Prog.modify (Shared.log [.began call request])
  let response ← perform config call order request
  Prog.modify (Shared.log [.returned call response])
  return response

def thread (config : RouterConfig) (t : ℕ) (task : HashOrder × Request) : RouterProg Response :=
  serve config ⟨t, 0⟩ task.1 task.2

end Router
end KafkaEdgeRouter
