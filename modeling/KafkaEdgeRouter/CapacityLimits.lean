import KafkaEdgeRouter.DispatchOffers
import KafkaEdgeRouter.LockedData
import KafkaEdgeRouter.RouterAccesses
import KafkaEdgeRouter.RouterRemovals

/-!
# Capacity limits

The limits of the configuration on connections, subscriptions and queues, between any two accesses
of any number of concurrent calls. Limits are checked and used up under the mutation lock, so the
counts that a call has read are still right when it inserts; everything else only ever makes room.
-/

namespace KafkaEdgeRouter

namespace Registry

structure Within (config : RouterConfig) (R : Registry) : Prop where
  connections : R.connections.size ≤ config.maxConnections
  tenantConnections : ∀ tenantId, R.tenantConnections tenantId ≤ config.maxConnectionsPerTenant
  subscriptions : R.totalSubscriptions ≤ config.maxSubscriptions
  tenantSubscriptions : ∀ tenantId,
    R.tenantSubscriptions tenantId ≤ config.maxSubscriptionsPerTenant
  perConnection : ∀ c r, R.connections.lookup c = some r →
    r.subscriptions.size ≤ config.maxSubscriptionsPerConnection
  tenant : ∀ c r sid filter, R.connections.lookup c = some r →
    r.subscriptions.lookup sid = some filter → filter.tenantId = r.tenantId

variable {config : RouterConfig} {R R' : Registry} {c : ConnectionId} {r : Registration}

theorem tenantConnections_eq (tenantId : String) (R : Registry) :
    R.tenantConnections tenantId =
      R.connections.total (fun r => if r.tenantId = tenantId then 1 else 0) := by
  rw [← AList.sum_filter_pairs (fun r : Registration => r.tenantId = tenantId) (fun _ => 1),
    tenantConnections]
  simp

theorem totalSubscriptions_eq (R : Registry) :
    R.totalSubscriptions = R.connections.total (fun r => r.subscriptions.size) := rfl

theorem tenantSubscriptions_eq (tenantId : String) (R : Registry) :
    R.tenantSubscriptions tenantId =
      R.connections.total (fun r => if r.tenantId = tenantId then r.subscriptions.size else 0) := by
  rw [← AList.sum_filter_pairs (fun r : Registration => r.tenantId = tenantId), tenantSubscriptions]

theorem within_new (config : RouterConfig) : Within config new := by
  refine ⟨Nat.zero_le _, fun _ => Nat.zero_le _, Nat.zero_le _, fun _ => Nat.zero_le _, ?_, ?_⟩
  · intro c r hr
    simp [new] at hr
  · intro c r sid filter hr
    simp [new] at hr

theorem Within.of_connections (h : Within config R) (heq : R'.connections = R.connections) :
    Within config R' := by
  refine ⟨?_, fun tenantId => ?_, ?_, fun tenantId => ?_, ?_, ?_⟩
  · rw [heq]
    exact h.connections
  · rw [tenantConnections_eq, heq, ← tenantConnections_eq]
    exact h.tenantConnections tenantId
  · rw [totalSubscriptions_eq, heq, ← totalSubscriptions_eq]
    exact h.subscriptions
  · rw [tenantSubscriptions_eq, heq, ← tenantSubscriptions_eq]
    exact h.tenantSubscriptions tenantId
  · rw [heq]
    exact h.perConnection
  · rw [heq]
    exact h.tenant

/-- There is room for one more connection, which has no subscriptions yet. -/
theorem Within.insert (h : Within config R) (hc : c ∉ R.connections) (hr : r.subscriptions = ∅)
    (hsize : R.connections.size < config.maxConnections)
    (htenant : R.tenantConnections r.tenantId < config.maxConnectionsPerTenant) :
    Within config { R with connections := R.connections.insert c r } := by
  have hzero : r.subscriptions.size = 0 := by
    rw [hr]
    rfl
  refine ⟨?_, fun tenantId => ?_, ?_, fun tenantId => ?_, fun c' r' hl => ?_,
    fun c' r' sid filter hl hf => ?_⟩
  · rw [AList.size_insert hc]
    omega
  · rw [tenantConnections_eq, AList.total_insert _ hc, ← tenantConnections_eq]
    have hother := h.tenantConnections tenantId
    split_ifs with ht
    · rw [ht] at htenant
      omega
    · omega
  · rw [totalSubscriptions_eq, AList.total_insert _ hc, ← totalSubscriptions_eq, hzero,
      Nat.zero_add]
    exact h.subscriptions
  · rw [tenantSubscriptions_eq, AList.total_insert _ hc, ← tenantSubscriptions_eq, hzero, ite_self,
      Nat.zero_add]
    exact h.tenantSubscriptions tenantId
  · by_cases hcc : c' = c
    · subst c'
      rw [AList.lookup_insert] at hl
      rw [← Option.some.inj hl, hzero]
      exact Nat.zero_le _
    · rw [AList.lookup_insert_ne hcc] at hl
      exact h.perConnection c' r' hl
  · by_cases hcc : c' = c
    · subst c'
      rw [AList.lookup_insert] at hl
      rw [← Option.some.inj hl, hr, AList.lookup_empty] at hf
      cases hf
    · rw [AList.lookup_insert_ne hcc] at hl
      exact h.tenant c' r' sid filter hl hf

/-- The subscriptions of one connection may change as far as there is room. -/
theorem Within.modify (h : Within config R) (hl : R.connections.lookup c = some r)
    {f : Registration → Registration} (hsame : (f r).tenantId = r.tenantId)
    (htotal : R.totalSubscriptions + (f r).subscriptions.size ≤
      config.maxSubscriptions + r.subscriptions.size)
    (htenant : R.tenantSubscriptions r.tenantId + (f r).subscriptions.size ≤
      config.maxSubscriptionsPerTenant + r.subscriptions.size)
    (hper : (f r).subscriptions.size ≤ config.maxSubscriptionsPerConnection)
    (hfilters : ∀ sid filter, (f r).subscriptions.lookup sid = some filter →
      filter.tenantId = r.tenantId) :
    Within config { R with connections := R.connections.modify c f } := by
  have hentry : ∀ c' r', (R.connections.modify c f).lookup c' = some r' →
      c' = c ∧ r' = f r ∨ R.connections.lookup c' = some r' := by
    intro c' r' hl'
    by_cases hcc : c' = c
    · subst c'
      rw [AList.lookup_modify_self, hl] at hl'
      exact Or.inl ⟨rfl, (Option.some.inj hl').symm⟩
    · rw [AList.lookup_modify_ne hcc] at hl'
      exact Or.inr hl'
  refine ⟨?_, fun tenantId => ?_, ?_, fun tenantId => ?_, fun c' r' hl' => ?_,
    fun c' r' sid filter hl' hf => ?_⟩
  · rw [AList.size_modify]
    exact h.connections
  · have hsum := AList.total_modify (fun r => if r.tenantId = tenantId then 1 else 0) hl f
    have hlimit := h.tenantConnections tenantId
    rw [tenantConnections_eq] at hlimit ⊢
    simp only [hsame] at hsum ⊢
    omega
  · have hsum := AList.total_modify (fun r => r.subscriptions.size) hl f
    rw [totalSubscriptions_eq] at htotal ⊢
    dsimp only at hsum ⊢
    omega
  · have hsum := AList.total_modify
      (fun r => if r.tenantId = tenantId then r.subscriptions.size else 0) hl f
    have hlimit := h.tenantSubscriptions tenantId
    rw [tenantSubscriptions_eq] at hlimit ⊢
    by_cases ht : r.tenantId = tenantId
    · rw [ht, tenantSubscriptions_eq] at htenant
      simp only [hsame, ht, if_true] at hsum ⊢
      omega
    · simp only [hsame, ht, if_false] at hsum ⊢
      omega
  · rcases hentry c' r' hl' with ⟨_, rfl⟩ | hl'
    · exact hper
    · exact h.perConnection c' r' hl'
  · rcases hentry c' r' hl' with ⟨_, rfl⟩ | hl'
    · rw [hsame]
      exact hfilters sid filter hf
    · exact h.tenant c' r' sid filter hl' hf

theorem Within.add (h : Within config R) (hl : R.connections.lookup c = some r)
    {sid : SubscriptionId} {filter : RouteFilter}
    (hlimit : ¬ (R.totalSubscriptions ≥ config.maxSubscriptions ∨
      R.tenantSubscriptions r.tenantId ≥ config.maxSubscriptionsPerTenant))
    (htenant : r.tenantId = filter.tenantId) (habsent : sid ∉ r.subscriptions)
    (hper : ¬ r.subscriptions.size ≥ config.maxSubscriptionsPerConnection) :
    Within config { R with connections := addSubscription c sid filter R.connections } := by
  have hsize := AList.size_insert habsent filter
  refine h.modify hl rfl ?_ ?_ ?_ (fun sid' filter' hf => ?_)
  · change _ + (r.subscriptions.insert sid filter).size ≤ _
    omega
  · change _ + (r.subscriptions.insert sid filter).size ≤ _
    omega
  · change (r.subscriptions.insert sid filter).size ≤ _
    omega
  · change (r.subscriptions.insert sid filter).lookup sid' = some filter' at hf
    by_cases hss : sid' = sid
    · rw [hss, AList.lookup_insert] at hf
      rw [← Option.some.inj hf, htenant]
    · rw [AList.lookup_insert_ne hss] at hf
      exact h.tenant c r sid' filter' hl hf

theorem Within.drop (h : Within config R) (hl : R.connections.lookup c = some r)
    (sid : SubscriptionId) :
    Within config { R with connections := dropSubscription c sid R.connections } := by
  have hsize := AList.size_erase_le sid r.subscriptions
  have htotal := h.subscriptions
  have htenant := h.tenantSubscriptions r.tenantId
  refine h.modify hl rfl ?_ ?_ ?_ (fun sid' filter hf => ?_)
  · change _ + (r.subscriptions.erase sid).size ≤ _
    omega
  · change _ + (r.subscriptions.erase sid).size ≤ _
    omega
  · exact hsize.trans (h.perConnection c r hl)
  · change (r.subscriptions.erase sid).lookup sid' = some filter at hf
    by_cases hss : sid' = sid
    · rw [hss, AList.lookup_erase] at hf
      cases hf
    · rw [AList.lookup_erase_ne hss] at hf
      exact h.tenant c r sid' filter hl hf

theorem Within.erase (h : Within config R) (c : ConnectionId) :
    Within config { R with connections := R.connections.erase c } := by
  have hentry : ∀ c' r', (R.connections.erase c).lookup c' = some r' →
      R.connections.lookup c' = some r' := by
    intro c' r' hl
    by_cases hcc : c' = c
    · rw [hcc, AList.lookup_erase] at hl
      cases hl
    · rwa [AList.lookup_erase_ne hcc] at hl
  refine ⟨(AList.size_erase_le ..).trans h.connections, fun tenantId => ?_, ?_, fun tenantId => ?_,
    fun c' r' hl => h.perConnection c' r' (hentry c' r' hl),
    fun c' r' sid filter hl hf => h.tenant c' r' sid filter (hentry c' r' hl) hf⟩
  · refine Nat.le_trans ?_ (h.tenantConnections tenantId)
    rw [tenantConnections_eq, tenantConnections_eq]
    exact AList.total_erase_le ..
  · refine Nat.le_trans ?_ h.subscriptions
    rw [totalSubscriptions_eq, totalSubscriptions_eq]
    exact AList.total_erase_le ..
  · refine Nat.le_trans ?_ (h.tenantSubscriptions tenantId)
    rw [tenantSubscriptions_eq, tenantSubscriptions_eq]
    exact AList.total_erase_le ..

end Registry

namespace Router

/-- The limits of the configuration, on the registry and on every queue. -/
structure Bounded (config : RouterConfig) (s : Shared) : Prop where
  registry : Registry.Within config s.registry
  queue : ∀ c ∈ s.registry.connections, c ∈ s.channels
  capacity : ∀ c channel, s.channels.lookup c = some channel →
    1 ≤ channel.capacity ∧ channel.capacity ≤ config.maxQueueCapacity

/-- The mutation lock guards the registry. -/
def mutations : Monitor Shared Registry := ⟨Shared.mutationLock, Shared.registry⟩

theorem bounded_new (config : RouterConfig) : Bounded config Shared.new :=
  ⟨Registry.within_new config, by simp [Shared.new, Shared.registry], by simp [Shared.new]⟩

section Accesses

variable {config : RouterConfig} {call : CallId} {s s' : Shared}

theorem Bounded.of_eq (h : Bounded config s)
    (hconn : s'.registry.connections = s.registry.connections) (hch : s'.channels = s.channels) :
    Bounded config s' := by
  refine ⟨h.registry.of_connections hconn, ?_, ?_⟩
  · rw [hconn, hch]
    exact h.queue
  · rw [hch]
    exact h.capacity

theorem Bounded.modifyChannel (h : Bounded config s) (c : ConnectionId)
    {f : Channel Delivery → Channel Delivery}
    (hf : ∀ channel, s.channels.lookup c = some channel → (f channel).capacity = channel.capacity)
    (hconn : s'.registry.connections = s.registry.connections)
    (hch : s'.channels = s.channels.modify c f) : Bounded config s' := by
  refine ⟨h.registry.of_connections hconn, ?_, fun c' channel' hl => ?_⟩
  · rw [hconn, hch]
    exact fun c' hc' => (AList.mem_modify ..).mpr (h.queue c' hc')
  rw [hch, AList.lookup_modify] at hl
  obtain ⟨channel, hl', rfl⟩ := Option.map_eq_some_iff.mp hl
  split_ifs with hcc
  · rw [hf channel (hcc ▸ hl')]
    exact h.capacity c' channel hl'
  · exact h.capacity c' channel hl'

theorem registry_modify {c : ConnectionId} {f : ConnectionState → ConnectionState}
    {g : Registration → Registration} (hfg : ∀ x, (f x).toRegistration = g x.toRegistration) :
    ({ s with connections := s.connections.modify c f } : Shared).registry.connections =
      s.registry.connections.modify c g :=
  AList.mapValues_modify hfg c s.connections

theorem quiet_refl (s : Shared) : mutations.Quiet (Bounded config) s s := ⟨rfl, rfl, id⟩

theorem always_count (f : Counters → Counters) :
    (Prog.modify (Shared.count f) : RouterProg Unit).Always (mutations.Quiet (Bounded config)) :=
  Prog.always_access (fun _ => ⟨rfl, rfl, fun h => h.of_eq rfl rfl⟩)

theorem always_log (events : List Event) :
    (Prog.modify (Shared.log events) : RouterProg Unit).Always (mutations.Quiet (Bounded config)) :=
  Prog.always_access (fun _ => ⟨rfl, rfl, fun h => h.of_eq rfl rfl⟩)

theorem capacity_trySend (delivery : Delivery) (channel : Channel Delivery) :
    (channel.trySend delivery).2.capacity = channel.capacity := by
  unfold Channel.trySend
  split_ifs <;> rfl

theorem quiet_offer (last : Bool) (message : Option RoutedMessage) (c : ConnectionId)
    (ids : List SubscriptionId) (s : Shared) :
    mutations.Quiet (Bounded config) s (offer config call last message c ids s).2 := by
  unfold offer
  cases s.connections.lookup c with
  | none => exact quiet_refl s
  | some connection =>
    cases message with
    | none => exact ⟨rfl, rfl, fun h => h.of_eq rfl rfl⟩
    | some message =>
      have hregistry : (afterOffer call c ⟨message, ids⟩ (strikesAfter
          (trySend c ⟨message, ids⟩ s).1 connection.fullStrikes) s).registry = s.registry :=
        registry_afterOffer ..
      exact ⟨rfl, hregistry, fun h => h.modifyChannel c (fun channel _ =>
        capacity_trySend ⟨message, ids⟩ channel) (congrArg Registry.connections hregistry) rfl⟩

theorem always_receive (c : ConnectionId) :
    (receive c).Always (mutations.Quiet (Bounded config)) := by
  refine Prog.always_await (fun _ s _ => ?_)
  cases hrecv : (s.channels.lookup c).bind Channel.recv with
  | none => exact quiet_refl s
  | some result =>
    refine ⟨rfl, rfl, fun h => h.modifyChannel c (f := fun _ => result.2) (fun channel hl => ?_)
      rfl rfl⟩
    rw [hl] at hrecv
    change channel.recv = some result at hrecv
    unfold Channel.recv at hrecv
    split at hrecv
    · cases hrecv
    · rw [← Option.some.inj hrecv]

theorem always_closeReceiver (c : ConnectionId) :
    (closeReceiver c).Always (mutations.Quiet (Bounded config)) :=
  Prog.always_access (fun _ => ⟨rfl, rfl, fun h =>
    h.modifyChannel c (f := Channel.close) (fun _ _ => rfl) rfl rfl⟩)

/-! ### Removals -/

theorem steady_refl (s : Shared) : mutations.Steady (Bounded config) s s := ⟨rfl, id⟩

theorem always_gauge (f : Gauges → Gauges) :
    (Prog.modify (Shared.gauge f) : RouterProg Unit).Always (mutations.Steady (Bounded config)) :=
  Prog.always_access (fun _ => ⟨rfl, fun h => h.of_eq rfl rfl⟩)

theorem always_removeFromRoute (c : ConnectionId) (sid : SubscriptionId) (filter : RouteFilter) :
    (removeFromRoute c sid filter).Always (mutations.Steady (Bounded config)) :=
  Prog.always_bind (Prog.always_access (fun _ => ⟨rfl, fun h => h.of_eq rfl rfl⟩))
    (fun _ => Prog.always_access (fun _ => ⟨rfl, fun h => h.of_eq rfl rfl⟩))

theorem steady_takeSubscription (c : ConnectionId) (sid : SubscriptionId) (s : Shared) :
    mutations.Steady (Bounded config) s (takeSubscription c sid s).2 := by
  rcases takeSubscription_cases c sid s with ⟨e, heq⟩ | ⟨r, filter, hl, _, heq⟩
  · rw [heq]
    exact steady_refl s
  · rw [heq]
    have hconn := registry_modify (s := s) (c := c)
      (f := fun x => { x with subscriptions := x.subscriptions.erase sid })
      (g := fun r => { r with subscriptions := r.subscriptions.erase sid }) (fun _ => rfl)
    refine ⟨rfl, fun h => ⟨(h.registry.drop hl sid).of_connections hconn, fun c' hc' => ?_,
      h.capacity⟩⟩
    refine h.queue c' ?_
    rwa [hconn, AList.mem_modify] at hc'

theorem always_unsubscribeLocked (c : ConnectionId) (sid : SubscriptionId) :
    (unsubscribeLocked c sid).Always (mutations.Steady (Bounded config)) := by
  refine Prog.always_bind (Prog.always_access (steady_takeSubscription c sid)) (fun result => ?_)
  cases result with
  | error e => exact Prog.always_ret _
  | ok taken =>
    exact Prog.always_bind (always_removeFromRoute c sid taken.1)
      (fun _ => Prog.always_bind (always_gauge _) (fun _ => Prog.always_ret _))

theorem steady_takeConnection (c : ConnectionId) (s : Shared) :
    mutations.Steady (Bounded config) s (takeConnection c s).2 := by
  rcases takeConnection_cases c s with ⟨_, heq⟩ | ⟨r, _, heq⟩
  · rw [heq]
    exact steady_refl s
  · rw [heq]
    have hconn : (s.connections.erase c).mapValues ConnectionState.toRegistration =
        s.registry.connections.erase c := AList.mapValues_erase ..
    refine ⟨rfl, fun h => ⟨(h.registry.erase c).of_connections hconn, fun c' hc' => ?_,
      h.capacity⟩⟩
    refine h.queue c' ?_
    rw [Shared.registry, hconn, AList.mem_erase] at hc'
    exact hc'.2

theorem always_unregisterLocked (order : HashOrder) (c : ConnectionId) :
    (unregisterLocked order c).Always (mutations.Steady (Bounded config)) := by
  refine Prog.always_bind (Prog.always_access (steady_takeConnection c)) (fun taken => ?_)
  cases taken with
  | none => exact Prog.always_ret _
  | some connection =>
    exact Prog.always_bind
      (always_removeAllFromRoutes (fun _ _ => ⟨rfl, fun h => h.of_eq rfl rfl⟩) c _)
      (fun _ => Prog.always_bind (always_gauge _) (fun _ => Prog.always_ret _))

end Accesses

section Calls

variable {config : RouterConfig} {call : CallId} {order : HashOrder} {s : Shared}

theorem sat_mutation {α : Type} {body : RouterProg α} {events : α → List Event}
    (hbody : ∀ s, Bounded config s → mutations.Inside call.thread s →
      body.Sat (mutations.contract (Bounded config) call.thread)
        (fun _ => mutations.Inside call.thread) s)
    (hs : mutations.Outside call.thread s) :
    (withMutationLock call body events).Sat (mutations.contract (Bounded config) call.thread)
      (fun _ => mutations.Outside call.thread) s :=
  Monitor.sat_section (fun _ _ he => Option.isNone_iff_eq_none.mp he)
    (fun _ => ⟨rfl, rfl, fun h => h.of_eq rfl rfl⟩) (fun _ _ => ⟨rfl, fun h => h.of_eq rfl rfl⟩)
    hbody hs

/-- The counts that a registration has read are still right when it inserts. -/
theorem sat_registerLocked {t : ℕ} {tenantId : String} {protocol : DeliveryProtocol} {capacity : ℕ}
    (hcapacity : ¬ (capacity = 0 ∨ capacity > config.maxQueueCapacity))
    (hs : mutations.Inside t s) :
    (registerLocked config call tenantId protocol capacity).Sat
      (mutations.contract (Bounded config) t) (fun _ => mutations.Inside t) s := by
  refine Monitor.sat_owner_read hs rfl (fun s₁ _ hs₁ hg₁ => ?_)
  refine Monitor.sat_owner_read hs₁ hg₁ (fun s₂ _ hs₂ hg₂ => ?_)
  have hsize : s₁.connections.size = s.registry.connections.size := by
    rw [← registry_size]
    exact congrArg (fun R => R.connections.size) hg₁
  have htenant : s₂.registry.tenantConnections tenantId =
      s.registry.tenantConnections tenantId := congrArg (Registry.tenantConnections tenantId) hg₂
  rw [hsize, htenant]
  split_ifs with hlimit
  · exact Monitor.sat_inside (Prog.always_bind (Prog.always_mono (always_count _)
      (fun _ _ h => h.steady)) (fun _ => Prog.always_ret _)) hs₂
  · obtain ⟨hconnections, htenants⟩ := not_or.mp hlimit
    refine Monitor.sat_owner hs₂ hg₂ (fun id s₃ hinv hs₃ hg₃ hid => ?_)
    have hregistry : s₃.registry = s.registry := hg₃
    have hfresh : id ∉ s₃.channels := of_decide_eq_true hid
    refine ⟨⟨?_, ?_, ?_⟩, rfl, ?_⟩
    · rw [registry_insertConnection]
      refine hinv.registry.insert (fun hmem => hfresh (hinv.queue id hmem)) rfl ?_ ?_
      · rw [hregistry]
        exact Nat.not_le.mp hconnections
      · rw [hregistry]
        exact Nat.not_le.mp htenants
    · intro c hc
      rw [registry_insertConnection] at hc
      rcases (AList.mem_insert _).mp hc with rfl | hc
      · exact (AList.mem_insert _).mpr (Or.inl rfl)
      · exact (AList.mem_insert _).mpr (Or.inr (hinv.queue c hc))
    · intro c channel hl
      by_cases hc : c = id
      · rw [insertConnection, Shared.log, hc, AList.lookup_insert] at hl
        rw [← Option.some.inj hl]
        change 1 ≤ capacity ∧ capacity ≤ config.maxQueueCapacity
        omega
      · rw [insertConnection, Shared.log, AList.lookup_insert_ne hc] at hl
        exact hinv.capacity c channel hl
    · exact Monitor.sat_inside (Prog.always_bind (Prog.always_access
        (fun _ => ⟨rfl, fun h => h.of_eq rfl rfl⟩)) (fun _ => Prog.always_ret _)) hs₃

theorem sat_subscribeLocked {t : ℕ} {c : ConnectionId} {sid : SubscriptionId}
    {filter : RouteFilter} (hs : mutations.Inside t s) :
    (subscribeLocked config call c sid filter).Sat
      (mutations.contract (Bounded config) t) (fun _ => mutations.Inside t) s := by
  have hend : ∀ (result : Except CoreError Unit) s', mutations.Inside t s' →
      (Prog.ret result : RouterProg _).Sat (mutations.contract (Bounded config) t)
        (fun _ => mutations.Inside t) s' :=
    fun _ s' hs' => Prog.sat_ret (Monitor.stable_inside t) hs'
  refine Monitor.sat_owner_read hs rfl (fun s₁ _ hs₁ hg₁ => ?_)
  have hg₁' : s₁.registry = s.registry := hg₁
  rw [lookup_tenantId, hg₁']
  cases hlookup : s.registry.connections.lookup c with
  | none => exact hend _ s₁ hs₁
  | some r =>
    refine Monitor.sat_owner_read hs₁ hg₁ (fun s₂ _ hs₂ hg₂ => ?_)
    refine Monitor.sat_owner_read hs₂ hg₂ (fun s₃ _ hs₃ hg₃ => ?_)
    rw [show s₂.registry = s.registry from hg₂, show s₃.registry = s.registry from hg₃]
    split_ifs with hlimit
    · exact Monitor.sat_inside (Prog.always_bind (Prog.always_mono (always_count _)
        (fun _ _ h => h.steady)) (fun _ => Prog.always_ret _)) hs₃
    refine Monitor.sat_owner hs₃ hg₃ (fun _ s₄ hinv hs₄ hg₄ _ => ?_)
    have hregistry : s₄.registry = s.registry := hg₄
    have hr : s₄.registry.connections.lookup c = some r := by rw [hregistry, hlookup]
    rcases insertSubscription_cases config sid filter hr with
      ⟨_, heq⟩ | ⟨_, heq⟩ | ⟨_, heq⟩ | ⟨htenant, habsent, hper, heq⟩
    · rw [heq]
      exact ⟨hinv, rfl, hend _ s₄ hs₄⟩
    · rw [heq]
      exact ⟨hinv, rfl, hend _ s₄ hs₄⟩
    · rw [heq]
      exact ⟨hinv, rfl, hend _ s₄ hs₄⟩
    rw [heq]
    have hconn := registry_modify (s := s₄) (c := c)
      (f := fun x => { x with subscriptions := x.subscriptions.insert sid filter })
      (g := fun r => { r with subscriptions := r.subscriptions.insert sid filter }) (fun _ => rfl)
    rw [← hregistry] at hlimit
    refine ⟨⟨(hinv.registry.add hr hlimit htenant habsent hper).of_connections hconn,
      fun c' hc' => ?_, hinv.capacity⟩, rfl, ?_⟩
    · refine hinv.queue c' ?_
      rwa [hconn, AList.mem_modify] at hc'
    · refine Monitor.sat_inside (Prog.always_bind (Prog.always_access ?_)
        (fun _ => Prog.always_bind (always_gauge _) (fun _ => Prog.always_ret _))) hs₄
      exact fun _ => ⟨rfl, fun h => h.of_eq rfl rfl⟩

theorem sat_disconnectAll_bounded (l : List ConnectionId) (hinv : Bounded config s)
    (hs : mutations.Outside call.thread s) :
    (disconnectAll call order l).Sat (mutations.contract (Bounded config) call.thread)
      (fun _ => mutations.Outside call.thread) s := by
  induction l generalizing s with
  | nil => exact Prog.sat_ret (Monitor.stable_outside _) hs
  | cons c l ih =>
    refine Prog.sat_bind hinv (Prog.sat_mono (Monitor.sat_outside (always_count _) hs)
      (fun _ s₁ hinv₁ hs₁ => ?_))
    refine Prog.sat_bind hinv₁ (Prog.sat_mono (sat_mutation (fun s₂ _ hs₂ =>
      Monitor.sat_inside (always_unregisterLocked order c) hs₂) hs₁) (fun _ s₂ hinv₂ hs₂ => ?_))
    exact ih hinv₂ hs₂

theorem sat_dispatch_bounded (message : RoutedMessage) (hinv : Bounded config s)
    (hs : mutations.Outside call.thread s) :
    (dispatch config call order message).Sat (mutations.contract (Bounded config) call.thread)
      (fun _ => mutations.Outside call.thread) s := by
  refine Prog.sat_bind hinv (Prog.sat_mono (Monitor.sat_outside (always_count _) hs)
    (fun _ s₁ hinv₁ hs₁ => ?_))
  refine Prog.sat_bind hinv₁ (Prog.sat_mono (Monitor.sat_outside
    (always_collectCandidates quiet_refl _ ∅) hs₁) (fun found s₂ hinv₂ hs₂ => ?_))
  refine Prog.sat_bind hinv₂ (Prog.sat_mono (Monitor.sat_outside
    (always_offerAll quiet_offer _ _ _ _ _ _) hs₂) (fun result s₃ hinv₃ hs₃ => ?_))
  cases result with
  | error text => exact Prog.sat_ret (Monitor.stable_outside _) hs₃
  | ok result =>
    refine Prog.sat_bind hinv₃ (Prog.sat_mono (sat_disconnectAll_bounded result.2 hinv₃ hs₃)
      (fun _ s₄ _ hs₄ => ?_))
    exact Monitor.sat_outside (Prog.always_bind (always_count _) (fun _ => Prog.always_ret _)) hs₄

theorem sat_perform_bounded (request : Request) (hinv : Bounded config s)
    (hs : mutations.Outside call.thread s) :
    (perform config call order request).Sat (mutations.contract (Bounded config) call.thread)
      (fun _ => mutations.Outside call.thread) s := by
  have hreply : ∀ {α : Type} {p : RouterProg α} (reply : α → Response),
      p.Sat (mutations.contract (Bounded config) call.thread)
        (fun _ => mutations.Outside call.thread) s →
      (p >>= fun a => (pure (reply a) : RouterProg Response)).Sat
        (mutations.contract (Bounded config) call.thread)
        (fun _ => mutations.Outside call.thread) s :=
    fun reply hp => Prog.sat_bind hinv (Prog.sat_mono hp (fun _ s₁ _ hs₁ =>
      Prog.sat_ret (Monitor.stable_outside _) hs₁))
  have hret : ∀ {α : Type} (a : α), (Prog.ret a : RouterProg α).Sat
      (mutations.contract (Bounded config) call.thread)
      (fun _ => mutations.Outside call.thread) s :=
    fun _ => Prog.sat_ret (Monitor.stable_outside _) hs
  cases request with
  | register tenantId protocol queueCapacity =>
    refine hreply .registered ?_
    unfold registerConnection
    split
    · exact hret _
    dsimp only
    split_ifs with hcapacity
    · exact hret _
    · exact sat_mutation (fun _ _ hs' => sat_registerLocked hcapacity hs') hs
  | subscribe c sid filter =>
    refine hreply .settled ?_
    unfold subscribe
    split
    · exact hret _
    · exact sat_mutation (fun _ _ hs' => sat_subscribeLocked hs') hs
  | unsubscribe c sid =>
    exact hreply .settled (sat_mutation (fun _ _ hs' =>
      Monitor.sat_inside (always_unsubscribeLocked c sid) hs') hs)
  | unregister c =>
    exact hreply (fun _ => .unregistered) (sat_mutation (fun _ _ hs' =>
      Monitor.sat_inside (always_unregisterLocked order c) hs') hs)
  | dispatch message => exact hreply .dispatched (sat_dispatch_bounded message hinv hs)
  | receive c => exact hreply .received (Monitor.sat_outside (always_receive c) hs)
  | close c => exact hreply (fun _ => .closed) (Monitor.sat_outside (always_closeReceiver c) hs)

theorem sat_serve_bounded (request : Request) (hinv : Bounded config s)
    (hs : mutations.Outside call.thread s) :
    (serve config call order request).Sat (mutations.contract (Bounded config) call.thread)
      (fun _ => mutations.Outside call.thread) s := by
  refine Prog.sat_bind hinv (Prog.sat_mono (Monitor.sat_outside (always_log _) hs)
    (fun _ s₁ hinv₁ hs₁ => ?_))
  refine Prog.sat_bind hinv₁ (Prog.sat_mono (sat_perform_bounded request hinv₁ hs₁)
    (fun response s₂ _ hs₂ => ?_))
  exact Monitor.sat_outside (Prog.always_bind (always_log _) (fun _ => Prog.always_ret _)) hs₂

end Calls
end Router
end KafkaEdgeRouter
