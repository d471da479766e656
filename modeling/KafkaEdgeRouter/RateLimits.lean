import KafkaEdgeRouter.AssociationMap
import KafkaEdgeRouter.Identifiers

/-!
# Limits of the API

The limits that the protocol adapters share, and the fixed-window rate limiters: one for the whole
process with a counter for every tenant, and one for each WebSocket connection. Times are in
nanoseconds. A limiter reads the clock more than once, so the readings of one call are a list of
inputs.
-/

namespace KafkaEdgeRouter.Api

structure ApiConfig where
  streamQueueCapacity : ℕ := 256
  maxStreamQueueCapacity : ℕ := 4096
  wsMaxCommandsPerSecond : ℕ := 32
  publishMaxPayloadBytes : ℕ := 1048576
  maxRateLimitPrincipals : ℕ := 10000
  globalCommandsPerSecond : ℕ := 10000
  principalCommandsPerSecond : ℕ := 64
  globalPublishesPerSecond : ℕ := 1000
  principalPublishesPerSecond : ℕ := 32

def resolveStreamQueueCapacity (config : ApiConfig) (requested : Option ℕ) : Except ℕ ℕ :=
  let capacity := requested.getD config.streamQueueCapacity
  if capacity = 0 ∨ capacity > config.maxStreamQueueCapacity then
    .error config.maxStreamQueueCapacity
  else .ok capacity

inductive RateKind
  | command
  | publish
  deriving DecidableEq

structure PrincipalRate where
  windowStarted : ℕ
  commands : ℕ
  publishes : ℕ

structure RateState where
  windowStarted : ℕ
  commands : ℕ
  publishes : ℕ
  principals : AList (fun _ : String => PrincipalRate)

/-- The clock as one call of a limiter reads it: at its start, when it looks at the window of the
process and when it looks at that of the tenant. -/
structure Readings where
  now : ℕ
  window : ℕ
  principalWindow : ℕ

def second : ℕ := 1000000000

namespace AbuseLimiter

/-- A window of the process that is over starts again, with all tenants forgotten. -/
def renew (clock : Readings) (state : RateState) : RateState :=
  if clock.window - state.windowStarted ≥ second then ⟨clock.now, 0, 0, ∅⟩ else state

def renewPrincipal (clock : Readings) (principal : PrincipalRate) : PrincipalRate :=
  if clock.principalWindow - principal.windowStarted ≥ second then ⟨clock.now, 0, 0⟩
  else principal

def accept (kind : RateKind) (principal : PrincipalRate) : PrincipalRate :=
  match kind with
  | .command => { principal with commands := principal.commands + 1 }
  | .publish => { principal with publishes := principal.publishes + 1 }

def allow (config : ApiConfig) (clock : Readings) (tenantId : String) (kind : RateKind)
    (state : RateState) : Bool × RateState :=
  let state := renew clock state
  let (total, globalLimit, principalLimit) :=
    match kind with
    | .command =>
      (state.commands, config.globalCommandsPerSecond, config.principalCommandsPerSecond)
    | .publish =>
      (state.publishes, config.globalPublishesPerSecond, config.principalPublishesPerSecond)
  if total ≥ globalLimit then (false, state)
  else if tenantId ∉ state.principals ∧
      state.principals.size ≥ config.maxRateLimitPrincipals then
    (false, state)
  else
    let principal :=
      renewPrincipal clock ((state.principals.lookup tenantId).getD ⟨clock.now, 0, 0⟩)
    let accepted :=
      match kind with
      | .command => principal.commands
      | .publish => principal.publishes
    if accepted ≥ principalLimit then
      (false, { state with principals := state.principals.insert tenantId principal })
    else
      let state :=
        { state with principals := state.principals.insert tenantId (accept kind principal) }
      match kind with
      | .command => (true, { state with commands := state.commands + 1 })
      | .publish => (true, { state with publishes := state.publishes + 1 })

end AbuseLimiter

/-- The limiter of one WebSocket connection. -/
structure CommandRateLimiter where
  windowStarted : ℕ
  accepted : ℕ
  limit : ℕ

namespace CommandRateLimiter

def allow (clock : Readings) (limiter : CommandRateLimiter) : Bool × CommandRateLimiter :=
  let limiter :=
    if clock.window - limiter.windowStarted ≥ second then
      { limiter with windowStarted := clock.now, accepted := 0 }
    else limiter
  if limiter.accepted ≥ limiter.limit then (false, limiter)
  else (true, { limiter with accepted := limiter.accepted + 1 })

end CommandRateLimiter

end KafkaEdgeRouter.Api
