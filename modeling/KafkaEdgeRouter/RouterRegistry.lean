import KafkaEdgeRouter.RouterState

/-!
# The registry as a sequential object

The state guarded by the mutation lock as a sequential object. Each operation is what one call does
when it runs alone: it is rejected with the router's own error, or it changes connections, route
index and gauges together. The lemmas say once what a successful operation has checked and changed.
-/

namespace KafkaEdgeRouter.Registry

def register (config : RouterConfig) (c : ConnectionId) (tenantId : String)
    (protocol : DeliveryProtocol) (R : Registry) : Except CoreError Registry :=
  if R.connections.size ≥ config.maxConnections ∨
      R.tenantConnections tenantId ≥ config.maxConnectionsPerTenant then
    .error .connectionLimitReached
  else
    .ok { R with
      connections := R.connections.insert c ⟨tenantId, protocol, ∅⟩
      gauges := R.gauges.recordProtocolOpened protocol }

def addSubscription (c : ConnectionId) (sid : SubscriptionId) (filter : RouteFilter)
    (connections : AList (fun _ : ConnectionId => Registration)) :
    AList (fun _ : ConnectionId => Registration) :=
  connections.modify c (fun r => { r with subscriptions := r.subscriptions.insert sid filter })

def dropSubscription (c : ConnectionId) (sid : SubscriptionId)
    (connections : AList (fun _ : ConnectionId => Registration)) :
    AList (fun _ : ConnectionId => Registration) :=
  connections.modify c (fun r => { r with subscriptions := r.subscriptions.erase sid })

def subscribe (config : RouterConfig) (c : ConnectionId) (sid : SubscriptionId)
    (filter : RouteFilter) (R : Registry) : Except CoreError Registry :=
  match R.connections.lookup c with
  | none => .error .connectionNotFound
  | some r =>
    if R.totalSubscriptions ≥ config.maxSubscriptions ∨
        R.tenantSubscriptions r.tenantId ≥ config.maxSubscriptionsPerTenant then
      .error .globalSubscriptionLimitReached
    else if r.tenantId ≠ filter.tenantId then .error .tenantMismatch
    else if sid ∈ r.subscriptions then .error .subscriptionExists
    else if r.subscriptions.size ≥ config.maxSubscriptionsPerConnection then
      .error .subscriptionLimitReached
    else
      .ok {
        connections := addSubscription c sid filter R.connections
        routes := R.routes.push (RouteKey.ofFilter filter) c sid
        gauges := R.gauges.recordSubscriptionAdded r.protocol }

def removeRoute (c : ConnectionId) (sid : SubscriptionId) (filter : RouteFilter)
    (routes : Routes) : Routes :=
  (routes.discard (RouteKey.ofFilter filter) c sid).prune (RouteKey.ofFilter filter)

def unsubscribe (c : ConnectionId) (sid : SubscriptionId) (R : Registry) :
    Except CoreError Registry :=
  match R.connections.lookup c with
  | none => .error .connectionNotFound
  | some r =>
    match r.subscriptions.lookup sid with
    | none => .error .subscriptionNotFound
    | some filter =>
      .ok {
        connections := dropSubscription c sid R.connections
        routes := removeRoute c sid filter R.routes
        gauges := R.gauges.recordSubscriptionRemoved r.protocol }

def removeRoutes (c : ConnectionId) (l : List (SubscriptionId × RouteFilter)) (routes : Routes) :
    Routes :=
  l.foldl (fun routes e => removeRoute c e.1 e.2 routes) routes

def unregister (order : IterOrder (SubscriptionId × RouteFilter)) (c : ConnectionId)
    (R : Registry) : Registry :=
  match R.connections.lookup c with
  | none => R
  | some r => {
      connections := R.connections.erase c
      routes := removeRoutes c (order.arrange r.subscriptions.pairs) R.routes
      gauges := R.gauges.recordProtocolClosed r.protocol r.subscriptions.size }

/-- The registries that sequences of operations build. -/
inductive Reachable (config : RouterConfig) : Registry → Prop
  | new : Reachable config new
  | register {R R' : Registry} {c : ConnectionId} {tenantId : String}
      {protocol : DeliveryProtocol} : Reachable config R → c ∉ R.connections →
      R.register config c tenantId protocol = .ok R' → Reachable config R'
  | subscribe {R R' : Registry} {c : ConnectionId} {sid : SubscriptionId} {filter : RouteFilter} :
      Reachable config R → filter.validate = .ok () →
      R.subscribe config c sid filter = .ok R' → Reachable config R'
  | unsubscribe {R R' : Registry} {c : ConnectionId} {sid : SubscriptionId} :
      Reachable config R → R.unsubscribe c sid = .ok R' → Reachable config R'
  | unregister {R : Registry} (order : IterOrder (SubscriptionId × RouteFilter))
      (c : ConnectionId) : Reachable config R → Reachable config (R.unregister order c)

/-- The connection holds the subscription. -/
def Subscribed (R : Registry) (c : ConnectionId) (sid : SubscriptionId) (filter : RouteFilter) :
    Prop :=
  ∃ r, R.connections.lookup c = some r ∧ r.subscriptions.lookup sid = some filter

theorem Subscribed.unique {R : Registry} {c : ConnectionId} {sid : SubscriptionId}
    {filter filter' : RouteFilter} (h : R.Subscribed c sid filter)
    (h' : R.Subscribed c sid filter') : filter = filter' := by
  obtain ⟨r, hr, hf⟩ := h
  obtain ⟨r', hr', hf'⟩ := h'
  have hrr := Option.some.inj (hr.symm.trans hr')
  subst hrr
  exact Option.some.inj (hf.symm.trans hf')

theorem register_cases {config : RouterConfig} {c : ConnectionId} {tenantId : String}
    {protocol : DeliveryProtocol} {R R' : Registry}
    (h : R.register config c tenantId protocol = .ok R') :
    R.connections.size < config.maxConnections ∧
      R.tenantConnections tenantId < config.maxConnectionsPerTenant ∧
      R' = { R with
        connections := R.connections.insert c ⟨tenantId, protocol, ∅⟩
        gauges := R.gauges.recordProtocolOpened protocol } := by
  unfold register at h
  split_ifs at h with hlimit
  obtain ⟨hc, ht⟩ := not_or.mp hlimit
  exact ⟨Nat.not_le.mp hc, Nat.not_le.mp ht, (Except.ok.inj h).symm⟩

theorem subscribe_cases {config : RouterConfig} {c : ConnectionId} {sid : SubscriptionId}
    {filter : RouteFilter} {R R' : Registry} (h : R.subscribe config c sid filter = .ok R') :
    ∃ r, R.connections.lookup c = some r ∧ R.totalSubscriptions < config.maxSubscriptions ∧
      R.tenantSubscriptions r.tenantId < config.maxSubscriptionsPerTenant ∧
      r.tenantId = filter.tenantId ∧ r.subscriptions.lookup sid = none ∧
      r.subscriptions.size < config.maxSubscriptionsPerConnection ∧
      R' = {
        connections := addSubscription c sid filter R.connections
        routes := R.routes.push (RouteKey.ofFilter filter) c sid
        gauges := R.gauges.recordSubscriptionAdded r.protocol } := by
  unfold subscribe at h
  split at h
  · cases h
  · rename_i r hr
    split_ifs at h with hlimit htenant hexists hper
    obtain ⟨htotal, hpt⟩ := not_or.mp hlimit
    exact ⟨r, hr, Nat.not_le.mp htotal, Nat.not_le.mp hpt, not_not.mp htenant,
      AList.lookup_eq_none.mpr hexists, Nat.not_le.mp hper, (Except.ok.inj h).symm⟩

theorem subscribe_eq_ok {config : RouterConfig} {c : ConnectionId} {sid : SubscriptionId}
    {filter : RouteFilter} {R : Registry} {r : Registration} (hr : R.connections.lookup c = some r)
    (hlimit : ¬ (R.totalSubscriptions ≥ config.maxSubscriptions ∨
      R.tenantSubscriptions r.tenantId ≥ config.maxSubscriptionsPerTenant))
    (htenant : r.tenantId = filter.tenantId) (habsent : sid ∉ r.subscriptions)
    (hper : ¬ r.subscriptions.size ≥ config.maxSubscriptionsPerConnection) :
    R.subscribe config c sid filter = .ok {
      connections := addSubscription c sid filter R.connections
      routes := R.routes.push (RouteKey.ofFilter filter) c sid
      gauges := R.gauges.recordSubscriptionAdded r.protocol } := by
  unfold subscribe
  simp only [hr]
  rw [if_neg hlimit, if_neg (not_not.mpr htenant), if_neg habsent, if_neg hper]

theorem unsubscribe_cases {c : ConnectionId} {sid : SubscriptionId} {R R' : Registry}
    (h : R.unsubscribe c sid = .ok R') :
    ∃ r filter, R.connections.lookup c = some r ∧ r.subscriptions.lookup sid = some filter ∧
      R' = {
        connections := dropSubscription c sid R.connections
        routes := removeRoute c sid filter R.routes
        gauges := R.gauges.recordSubscriptionRemoved r.protocol } := by
  unfold unsubscribe at h
  split at h
  · cases h
  · rename_i r hr
    split at h
    · cases h
    · rename_i filter hf
      exact ⟨r, filter, hr, hf, (Except.ok.inj h).symm⟩

end KafkaEdgeRouter.Registry
