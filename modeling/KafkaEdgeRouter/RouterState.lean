import KafkaEdgeRouter.BoundedChannel
import KafkaEdgeRouter.InvertedIndex
import KafkaEdgeRouter.RouteKeys

/-!
# Router state

The routing engine between two atomic accesses: the connections, the route index, the owner of the
mutation lock, the delivery channels and the metrics that the router itself updates. A channel is
kept from the registration of its connection on, so a connection identifier is new exactly when it
has no channel. The history is not part of the engine; it records what the calls did, in order, and
no operation reads it.
-/

namespace KafkaEdgeRouter

structure RouterConfig where
  defaultQueueCapacity : ℕ := 256
  maxQueueCapacity : ℕ := 4096
  maxConnections : ℕ := 10000
  maxConnectionsPerTenant : ℕ := 1000
  maxSubscriptions : ℕ := 100000
  maxSubscriptionsPerTenant : ℕ := 10000
  maxSubscriptionsPerConnection : ℕ := 128
  slowConsumerStrikes : ℕ := 3

structure Delivery where
  message : RoutedMessage
  subscriptionIds : List SubscriptionId
  deriving DecidableEq

abbrev Subscriptions := AList (fun _ : SubscriptionId => RouteFilter)

/-- The part of a connection that only changes under the mutation lock. -/
structure Registration where
  tenantId : String
  protocol : DeliveryProtocol
  subscriptions : Subscriptions

structure ConnectionState extends Registration where
  fullStrikes : ℕ

abbrev Routes := InvertedIndex RouteKey ConnectionId SubscriptionId

structure DispatchReport where
  matchedSubscriptions : ℕ := 0
  deliveredConnections : ℕ := 0
  fullConnections : ℕ := 0
  closedConnections : ℕ := 0
  deriving DecidableEq

def DispatchReport.record (outcome : SendOutcome) (report : DispatchReport) : DispatchReport :=
  match outcome with
  | .accepted => { report with deliveredConnections := report.deliveredConnections + 1 }
  | .full => { report with fullConnections := report.fullConnections + 1 }
  | .closed => { report with closedConnections := report.closedConnections + 1 }

/-- The gauges of the metrics registry, which follow the connections and their subscriptions. -/
structure Gauges where
  activeConnections : DeliveryProtocol → ℕ := fun _ => 0
  activeSubscriptions : DeliveryProtocol → ℕ := fun _ => 0

namespace Gauges

def recordProtocolOpened (protocol : DeliveryProtocol) (g : Gauges) : Gauges :=
  { g with activeConnections :=
      Function.update g.activeConnections protocol (g.activeConnections protocol + 1) }

def recordSubscriptionAdded (protocol : DeliveryProtocol) (g : Gauges) : Gauges :=
  { g with activeSubscriptions :=
      Function.update g.activeSubscriptions protocol (g.activeSubscriptions protocol + 1) }

def recordSubscriptionRemoved (protocol : DeliveryProtocol) (g : Gauges) : Gauges :=
  { g with activeSubscriptions :=
      Function.update g.activeSubscriptions protocol (g.activeSubscriptions protocol - 1) }

def recordProtocolClosed (protocol : DeliveryProtocol) (subscriptions : ℕ) (g : Gauges) :
    Gauges where
  activeConnections :=
    Function.update g.activeConnections protocol (g.activeConnections protocol - 1)
  activeSubscriptions :=
    Function.update g.activeSubscriptions protocol (g.activeSubscriptions protocol - subscriptions)

end Gauges

/-- The counters of the metrics registry, which wrap. -/
structure Counters where
  validMessages : UInt64 := 0
  matchedSubscriptions : UInt64 := 0
  unmatchedMessages : UInt64 := 0
  deliveredConnections : UInt64 := 0
  fullConnections : UInt64 := 0
  closedConnections : UInt64 := 0
  slowConsumerDisconnects : UInt64 := 0
  securityLimitRejections : UInt64 := 0
  opened : DeliveryProtocol → UInt64 := fun _ => 0

namespace Counters

def recordValidMessage (m : Counters) : Counters := { m with validMessages := m.validMessages + 1 }

def recordDispatch (report : DispatchReport) (m : Counters) : Counters :=
  { m with
    matchedSubscriptions := m.matchedSubscriptions + report.matchedSubscriptions.toUInt64
    deliveredConnections := m.deliveredConnections + report.deliveredConnections.toUInt64
    fullConnections := m.fullConnections + report.fullConnections.toUInt64
    closedConnections := m.closedConnections + report.closedConnections.toUInt64
    unmatchedMessages :=
      if report.matchedSubscriptions = 0 then m.unmatchedMessages + 1 else m.unmatchedMessages }

def recordSlowDisconnect (m : Counters) : Counters :=
  { m with slowConsumerDisconnects := m.slowConsumerDisconnects + 1 }

def recordSecurityLimitRejection (m : Counters) : Counters :=
  { m with securityLimitRejections := m.securityLimitRejections + 1 }

def recordOpened (protocol : DeliveryProtocol) (m : Counters) : Counters :=
  { m with opened := Function.update m.opened protocol (m.opened protocol + 1) }

end Counters

/-- One call of a thread; a thread may make several calls. -/
structure CallId where
  thread : ℕ
  serial : ℕ
  deriving DecidableEq

inductive Request
  | register (tenantId : String) (protocol : DeliveryProtocol) (queueCapacity : Option ℕ)
  | subscribe (connection : ConnectionId) (subscription : SubscriptionId) (filter : RouteFilter)
  | unsubscribe (connection : ConnectionId) (subscription : SubscriptionId)
  | unregister (connection : ConnectionId)
  | dispatch (message : RoutedMessage)
  | receive (connection : ConnectionId)
  | close (connection : ConnectionId)
  deriving DecidableEq

inductive Response
  | registered (result : Except CoreError ConnectionId)
  | settled (result : Except CoreError Unit)
  | unregistered
  | dispatched (report : Except String DispatchReport)
  | received (delivery : Option Delivery)
  | closed

/-- What calls did. A subscription is made when it enters the route index. A removal has returned
from the moment it gives the mutation lock back; it ended one subscription of the connection, or
all. -/
inductive Event
  | began (call : CallId) (request : Request)
  | registered (call : CallId) (connection : ConnectionId) (tenantId : String)
  | subscribed (call : CallId) (connection : ConnectionId) (subscription : SubscriptionId)
      (filter : RouteFilter)
  | removalReturned (call : CallId) (connection : ConnectionId)
      (subscription : Option SubscriptionId)
  | offered (call : CallId) (connection : ConnectionId) (delivery : Delivery)
      (outcome : SendOutcome)
  | panicked (call : CallId) (text : String)
  | returned (call : CallId) (response : Response)

namespace Event

def call : Event → CallId
  | .began call _ => call
  | .registered call _ _ => call
  | .subscribed call _ _ _ => call
  | .removalReturned call _ _ => call
  | .offered call _ _ _ => call
  | .panicked call _ => call
  | .returned call _ => call

def isBegan (c : CallId) : Event → Bool
  | .began call _ => call = c
  | _ => false

/-- The event ends the subscription `s` of the connection `c`. -/
def ends (c : ConnectionId) (s : SubscriptionId) : Event → Prop
  | .removalReturned _ connection subscription =>
      connection = c ∧ (subscription = none ∨ subscription = some s)
  | _ => False

/-- The delivery that the event put on the queue of the connection `c`. -/
def acceptedBy (c : ConnectionId) : Event → Option Delivery
  | .offered _ connection delivery .accepted => if connection = c then some delivery else none
  | _ => none

/-- The call put a delivery on the queue of the connection `c`. -/
def puts (call : CallId) (c : ConnectionId) : Event → Bool
  | .offered caller connection _ .accepted => caller = call ∧ connection = c
  | _ => false

/-- The delivery that the event offered to the connection `c`, with the outcome. -/
def offeredTo (c : ConnectionId) : Event → Option (Delivery × SendOutcome)
  | .offered _ connection delivery outcome =>
      if connection = c then some (delivery, outcome) else none
  | _ => none

end Event

def offersTo (c : ConnectionId) (events : List Event) : List (Delivery × SendOutcome) :=
  events.filterMap (Event.offeredTo c)

structure Shared where
  connections : AList (fun _ : ConnectionId => ConnectionState)
  routes : Routes
  mutationLock : Option ℕ
  channels : AList (fun _ : ConnectionId => Channel Delivery)
  gauges : Gauges
  counters : Counters
  history : List Event

/-- Everything that only changes under the mutation lock. -/
structure Registry where
  connections : AList (fun _ : ConnectionId => Registration)
  routes : Routes
  gauges : Gauges

namespace Registry

def new : Registry := ⟨∅, ∅, {}⟩

def tenantConnections (tenantId : String) (R : Registry) : ℕ :=
  (R.connections.pairs.filter (fun e => e.2.tenantId = tenantId)).length

def totalSubscriptions (R : Registry) : ℕ :=
  (R.connections.pairs.map (fun e => e.2.subscriptions.size)).sum

def tenantSubscriptions (tenantId : String) (R : Registry) : ℕ :=
  ((R.connections.pairs.filter (fun e => e.2.tenantId = tenantId)).map
    (fun e => e.2.subscriptions.size)).sum

end Registry

namespace Shared

def new : Shared := ⟨∅, ∅, none, ∅, {}, {}, []⟩

def registry (s : Shared) : Registry :=
  ⟨s.connections.mapValues ConnectionState.toRegistration, s.routes, s.gauges⟩

def log (events : List Event) (s : Shared) : Shared := { s with history := s.history ++ events }

def count (f : Counters → Counters) (s : Shared) : Shared := { s with counters := f s.counters }

def gauge (f : Gauges → Gauges) (s : Shared) : Shared := { s with gauges := f s.gauges }

end Shared
end KafkaEdgeRouter
