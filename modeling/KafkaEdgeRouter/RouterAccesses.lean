import KafkaEdgeRouter.ProgramTraces
import KafkaEdgeRouter.RouterOperations

/-!
# The accesses of a call

Everything that one atomic access of a call can do to the router, by request. A property of single
accesses is proved by going through this list, and then holds along every call.
-/

namespace KafkaEdgeRouter.Router

/-- The request may take the connection out of the router. -/
def Removes (c : ConnectionId) : Request → Prop
  | .unregister c' => c = c'
  | .dispatch _ => True
  | _ => False

/-- The update does not count a slow consumer. -/
def Spared (m : Counters → Counters) : Prop :=
  ∀ counters, (m counters).slowConsumerDisconnects = counters.slowConsumerDisconnects

inductive Access (config : RouterConfig) (call : CallId) : Request → Shared → Shared → Prop
  | read {request : Request} (s : Shared) : Access config call request s s
  | meter {request : Request} (s : Shared) {m : Counters → Counters} (g : Gauges → Gauges) :
      (∃ message, request = .dispatch message) ∨ Spared m →
      Access config call request s ((s.count m).gauge g)
  | lock {request : Request} {s : Shared} : s.mutationLock = none →
      Access config call request s { s with mutationLock := some call.thread }
  | unlock {request : Request} (s : Shared) :
      Access config call request s (({ s with mutationLock := none } : Shared).log [])
  | insertConnection {tenantId : String} {protocol : DeliveryProtocol} {queueCapacity : Option ℕ}
      {id : ConnectionId} {s : Shared} : id ∉ s.channels →
      Access config call (.register tenantId protocol queueCapacity) s
        (insertConnection call tenantId protocol
          (queueCapacity.getD config.defaultQueueCapacity) id s)
  | insertSubscription (c : ConnectionId) (sid : SubscriptionId) (filter : RouteFilter)
      (s : Shared) : Access config call (.subscribe c sid filter) s
        (insertSubscription config c sid filter s).2
  | pushRoute (c : ConnectionId) (sid : SubscriptionId) (filter : RouteFilter) (s : Shared) :
      Access config call (.subscribe c sid filter) s (pushRoute call c sid filter s)
  | takeSubscription (c : ConnectionId) (sid : SubscriptionId) (s : Shared) :
      Access config call (.unsubscribe c sid) s (takeSubscription c sid s).2
  | unsubscribed (c : ConnectionId) (sid : SubscriptionId) (s : Shared) :
      Access config call (.unsubscribe c sid) s
        (({ s with mutationLock := none } : Shared).log [.removalReturned call c (some sid)])
  | takeConnection {request : Request} {c : ConnectionId} (s : Shared) : Removes c request →
      Access config call request s (takeConnection c s).2
  | unregistered {request : Request} {c : ConnectionId} (s : Shared) : Removes c request →
      Access config call request s
        (({ s with mutationLock := none } : Shared).log [.removalReturned call c none])
  | discard {request : Request} {c : ConnectionId} {sid : SubscriptionId} (k : RouteKey)
      (s : Shared) : Removes c request ∨ request = .unsubscribe c sid →
      Access config call request s { s with routes := s.routes.discard k c sid }
  | prune {request : Request} (k : RouteKey) (s : Shared) :
      Access config call request s { s with routes := s.routes.prune k }
  | offer {message : RoutedMessage} {message' : Option RoutedMessage} (last : Bool)
      (c : ConnectionId) (ids : List SubscriptionId) (s : Shared) :
      (∀ m, message' = some m → m = message) →
      Access config call (.dispatch message) s (offer config call last message' c ids s).2
  | receive {c : ConnectionId} {s : Shared} {delivery : Delivery} {channel : Channel Delivery} :
      (s.channels.lookup c).bind Channel.recv = some (delivery, channel) →
      Access config call (.receive c) s
        { s with channels := s.channels.modify c (fun _ => channel) }
  | close (c : ConnectionId) (s : Shared) :
      Access config call (.close c) s { s with channels := s.channels.modify c Channel.close }

section Programs

variable {config : RouterConfig} {call : CallId} {request : Request} {K : Shared → Shared → Prop}

theorem always_collectCandidates (hread : ∀ s, K s s) (keys : List RouteKey) (found : Matches) :
    (collectCandidates keys found).Always K := by
  induction keys generalizing found with
  | nil => exact Prog.always_ret _
  | cons k keys ih =>
    refine Prog.always_bind (Prog.always_access hread) fun bucket => ?_
    cases bucket with
    | none => exact ih found
    | some bucket => exact ih _

theorem always_offerAll
    (hoffer : ∀ last message c ids s, K s (offer config call last message c ids s).2)
    (count index : ℕ) (message : Option RoutedMessage) (report : DispatchReport)
    (disconnect : List ConnectionId) (rest : List (ConnectionId × List SubscriptionId)) :
    (offerAll config call count index message report disconnect rest).Always K := by
  induction rest generalizing index message report disconnect with
  | nil => exact Prog.always_ret _
  | cons e rest ih =>
    refine Prog.always_bind (Prog.always_access (hoffer _ message e.1 e.2)) fun result => ?_
    cases result with
    | gone => exact ih _ _ _ _
    | panicked text => exact Prog.always_ret _
    | sent outcome evict => exact ih _ _ _ _

theorem always_removeAllFromRoutes (hroutes : ∀ s routes, K s { s with routes := routes })
    (c : ConnectionId) (l : List (SubscriptionId × RouteFilter)) :
    (removeAllFromRoutes c l).Always K := by
  induction l with
  | nil => exact Prog.always_ret _
  | cons e l ih =>
    exact Prog.always_bind (Prog.always_bind (Prog.always_access fun s => hroutes s _)
      fun _ => Prog.always_access fun s => hroutes s _) fun _ => ih

theorem accesses_read {β : Type} (f : Shared → β) :
    (Prog.read f : RouterProg β).Always (Access config call request) :=
  Prog.always_access fun s => .read s

theorem accesses_count {m : Counters → Counters}
    (hm : (∃ message, request = .dispatch message) ∨ Spared m) :
    (Prog.modify (Shared.count m) : RouterProg Unit).Always (Access config call request) :=
  Prog.always_access fun s => .meter s id hm

theorem accesses_gauge (g : Gauges → Gauges) :
    (Prog.modify (Shared.gauge g) : RouterProg Unit).Always (Access config call request) :=
  Prog.always_access fun s => .meter s g (Or.inr fun _ => rfl)

theorem accesses_withMutationLock {α : Type} {body : RouterProg α} {events : α → List Event}
    (hbody : body.Always (Access config call request))
    (hunlock : ∀ a s, Access config call request s
      (({ s with mutationLock := none } : Shared).log (events a))) :
    (withMutationLock call body events).Always (Access config call request) := by
  refine Prog.always_bind (Prog.always_await fun _ s he => ?_) fun _ => ?_
  · exact .lock (Option.isNone_iff_eq_none.mp he)
  · exact Prog.always_bind hbody fun a =>
      Prog.always_bind (Prog.always_access fun s => hunlock a s) fun _ => Prog.always_ret _

theorem accesses_registerConnection (tenantId : String) (protocol : DeliveryProtocol)
    (queueCapacity : Option ℕ) :
    (registerConnection config call tenantId protocol queueCapacity).Always
      (Access config call (.register tenantId protocol queueCapacity)) := by
  unfold registerConnection
  split
  · exact Prog.always_ret _
  dsimp only
  split_ifs
  · exact Prog.always_ret _
  refine accesses_withMutationLock ?_ fun _ s => .unlock s
  refine Prog.always_bind (accesses_read _) fun _ =>
    Prog.always_bind (accesses_read _) fun _ => ?_
  split_ifs
  · exact Prog.always_bind (accesses_count (Or.inr fun _ => rfl)) fun _ => Prog.always_ret _
  · refine Prog.always_bind (Prog.always_await fun id s hid => ?_) fun _ => ?_
    · exact .insertConnection (of_decide_eq_true hid)
    · exact Prog.always_bind (Prog.always_access fun s => .meter s _ (Or.inr fun _ => rfl))
        fun _ => Prog.always_ret _

theorem accesses_subscribe (c : ConnectionId) (sid : SubscriptionId) (filter : RouteFilter) :
    (subscribe config call c sid filter).Always
      (Access config call (.subscribe c sid filter)) := by
  unfold subscribe
  split
  · exact Prog.always_ret _
  refine accesses_withMutationLock ?_ fun _ s => .unlock s
  refine Prog.always_bind (accesses_read _) fun tenantId => ?_
  cases tenantId with
  | none => exact Prog.always_ret _
  | some tenantId =>
    refine Prog.always_bind (accesses_read _) fun _ =>
      Prog.always_bind (accesses_read _) fun _ => ?_
    split_ifs
    · exact Prog.always_bind (accesses_count (Or.inr fun _ => rfl)) fun _ => Prog.always_ret _
    refine Prog.always_bind (Prog.always_access fun s => .insertSubscription c sid filter s)
      fun result => ?_
    cases result with
    | error e => exact Prog.always_ret _
    | ok protocol =>
      exact Prog.always_bind (Prog.always_access fun s => .pushRoute c sid filter s) fun _ =>
        Prog.always_bind (accesses_gauge _) fun _ => Prog.always_ret _

theorem accesses_removeFromRoute {c : ConnectionId} {sid : SubscriptionId}
    (h : Removes c request ∨ request = .unsubscribe c sid) (filter : RouteFilter) :
    (removeFromRoute c sid filter).Always (Access config call request) :=
  Prog.always_bind (Prog.always_access fun s => .discard _ s h)
    fun _ => Prog.always_access fun s => .prune _ s

theorem accesses_unsubscribe (c : ConnectionId) (sid : SubscriptionId) :
    (unsubscribe call c sid).Always (Access config call (.unsubscribe c sid)) := by
  refine accesses_withMutationLock (Prog.always_bind
    (Prog.always_access fun s => .takeSubscription c sid s) fun result => ?_) fun result s => ?_
  · cases result with
    | error e => exact Prog.always_ret _
    | ok taken =>
      exact Prog.always_bind (accesses_removeFromRoute (Or.inr rfl) taken.1) fun _ =>
        Prog.always_bind (accesses_gauge _) fun _ => Prog.always_ret _
  · cases result with
    | error e => exact .unlock s
    | ok _ => exact .unsubscribed c sid s

theorem accesses_removeAllFromRoutes {c : ConnectionId} (h : Removes c request)
    (l : List (SubscriptionId × RouteFilter)) :
    (removeAllFromRoutes c l).Always (Access config call request) := by
  induction l with
  | nil => exact Prog.always_ret _
  | cons e l ih => exact Prog.always_bind (accesses_removeFromRoute (Or.inl h) e.2) fun _ => ih

theorem accesses_unregisterConnection (order : HashOrder) {c : ConnectionId}
    (h : Removes c request) :
    (unregisterConnection call order c).Always (Access config call request) := by
  refine accesses_withMutationLock (Prog.always_bind
    (Prog.always_access fun s => .takeConnection s h) fun taken => ?_) fun removed s => ?_
  · cases taken with
    | none => exact Prog.always_ret _
    | some connection =>
      exact Prog.always_bind (accesses_removeAllFromRoutes h _) fun _ =>
        Prog.always_bind (accesses_gauge _) fun _ => Prog.always_ret _
  · cases removed with
    | false => exact .unlock s
    | true => exact .unregistered s h

theorem accesses_offerAll {message : RoutedMessage} (count index : ℕ)
    {message' : Option RoutedMessage} (hm : ∀ m, message' = some m → m = message)
    (report : DispatchReport) (disconnect : List ConnectionId)
    (rest : List (ConnectionId × List SubscriptionId)) :
    (offerAll config call count index message' report disconnect rest).Always
      (Access config call (.dispatch message)) := by
  induction rest generalizing index message' report disconnect with
  | nil => exact Prog.always_ret _
  | cons e rest ih =>
    refine Prog.always_bind (Prog.always_access fun s => .offer _ e.1 e.2 s hm) fun result => ?_
    cases result with
    | gone => exact ih _ hm _ _
    | panicked text => exact Prog.always_ret _
    | sent outcome evict =>
      refine ih _ (fun m h => hm m ?_) _ _
      split_ifs at h
      exact h

theorem accesses_disconnectAll {message : RoutedMessage} (order : HashOrder)
    (l : List ConnectionId) : (disconnectAll call order l).Always
      (Access config call (.dispatch message)) := by
  induction l with
  | nil => exact Prog.always_ret _
  | cons c l ih =>
    exact Prog.always_bind (accesses_count (Or.inl ⟨message, rfl⟩)) fun _ =>
      Prog.always_bind (accesses_unregisterConnection order trivial) fun _ => ih

theorem accesses_dispatch (order : HashOrder) (message : RoutedMessage) :
    (dispatch config call order message).Always (Access config call (.dispatch message)) := by
  refine Prog.always_bind (accesses_count (Or.inl ⟨message, rfl⟩)) fun _ =>
    Prog.always_bind (always_collectCandidates (fun s => .read s) _ ∅) fun found =>
      Prog.always_bind (accesses_offerAll _ _ (fun m h => (Option.some.inj h).symm) _ _ _)
        fun result => ?_
  cases result with
  | error text => exact Prog.always_ret _
  | ok result =>
    exact Prog.always_bind (accesses_disconnectAll order result.2) fun _ =>
      Prog.always_bind (accesses_count (Or.inl ⟨message, rfl⟩)) fun _ => Prog.always_ret _

theorem accesses_receive (c : ConnectionId) :
    (receive c).Always (Access config call (.receive c)) := by
  refine Prog.always_await fun _ s _ => ?_
  cases hrecv : (s.channels.lookup c).bind Channel.recv with
  | none => exact .read s
  | some result => exact .receive hrecv

/-- Every access of a call is on the list. -/
theorem accesses_perform (order : HashOrder) (request : Request) :
    (perform config call order request).Always (Access config call request) := by
  cases request with
  | register tenantId protocol queueCapacity =>
    exact Prog.always_bind (accesses_registerConnection tenantId protocol queueCapacity)
      fun _ => Prog.always_ret _
  | subscribe c sid filter =>
    exact Prog.always_bind (accesses_subscribe c sid filter) fun _ => Prog.always_ret _
  | unsubscribe c sid =>
    exact Prog.always_bind (accesses_unsubscribe c sid) fun _ => Prog.always_ret _
  | unregister c =>
    exact Prog.always_bind (accesses_unregisterConnection order rfl) fun _ => Prog.always_ret _
  | dispatch message =>
    exact Prog.always_bind (accesses_dispatch order message) fun _ => Prog.always_ret _
  | receive c => exact Prog.always_bind (accesses_receive c) fun _ => Prog.always_ret _
  | close c =>
    exact Prog.always_bind (Prog.always_access fun s => .close c s) fun _ => Prog.always_ret _

/-- What every access does, and both records of a call, the call does all along. -/
theorem always_serve {K : Shared → Shared → Prop} (order : HashOrder)
    (hbegan : ∀ s, K s (s.log [.began call request]))
    (haccess : ∀ s s', Access config call request s s' → K s s')
    (hreturned : ∀ response s, K s (s.log [.returned call response])) :
    (serve config call order request).Always K :=
  Prog.always_bind (Prog.always_access hbegan) fun _ =>
    Prog.always_bind (Prog.always_mono (accesses_perform order request) haccess) fun response =>
      Prog.always_bind (Prog.always_access (hreturned response)) fun _ => Prog.always_ret _

end Programs
end KafkaEdgeRouter.Router
