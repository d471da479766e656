import KafkaEdgeRouter.LockedSections

/-!
# Mutations keep the protocol

Registration, subscription and removal, each proved inside its locked section: access by access the
registry moves to the one that the sequential operation builds. The events that a call leaves behind
are determined by its result.
-/

namespace KafkaEdgeRouter.Router

open History InvertedIndex

theorem registry_lookup (s : Shared) (c : ConnectionId) :
    s.registry.connections.lookup c =
      (s.connections.lookup c).map ConnectionState.toRegistration :=
  AList.lookup_mapValues ..

theorem registry_size (s : Shared) : s.registry.connections.size = s.connections.size := by
  simp [Shared.registry, AList.size, AList.mapValues]

/-- Accesses that only move the registry's gauges. -/
theorem lockedStep_gauge {call : CallId} {T : ConnectionId → Prop} {s : Shared} (hB : Base s)
    (m : Counters → Counters) (g : Gauges → Gauges) :
    LockedStep call T [] { s.registry with gauges := g s.registry.gauges } s
      ((s.count m).gauge g) :=
  ⟨hB.of_eq rfl rfl rfl rfl, rfl, rfl, by simp [Shared.count, Shared.gauge], by simp,
    fun _ h => h, fun _ _ => ⟨rfl, rfl, fun _ => rfl⟩⟩

section Register

variable {config : RouterConfig} {touches : ℕ → ConnectionId → Prop} {call : CallId}
  {reserved D : ConnectionId → Prop} {s₀ s : Shared} {own : List Event} {R : Registry}
  {tenantId : String} {protocol : DeliveryProtocol}

theorem registry_insertConnection (capacity : ℕ) (id : ConnectionId) (s : Shared) :
    (insertConnection call tenantId protocol capacity id s).registry =
      { s.registry with
        connections := s.registry.connections.insert id ⟨tenantId, protocol, ∅⟩ } := by
  simp only [Shared.registry, insertConnection, Shared.log, AList.mapValues_insert]

theorem lockedStep_insertConnection (hB : Base s) (capacity : ℕ) {id : ConnectionId}
    (hid : id ∉ s.channels) :
    LockedStep call (fun c => c = id) [.registered call id tenantId]
      { s.registry with
        connections := s.registry.connections.insert id ⟨tenantId, protocol, ∅⟩ } s
      (insertConnection call tenantId protocol capacity id s) := by
  have hnew : ∀ registrar tenantId, .registered registrar id tenantId ∉ s.history :=
    fun registrar tenantId hmem => hid (hB.channel_of_registered registrar id tenantId hmem)
  refine ⟨⟨fun c hc => ?_, fun registrar c tenantId' hmem => ?_, fun c connection hl => ?_,
    hB.filled, fun k c sid hmem => ?_, justified_concat.mpr ⟨hB.justified, hnew⟩,
    fun c channel hl => ?_⟩, rfl, registry_insertConnection capacity id s, rfl,
    by simp [Event.call],
    fun c hc => (AList.mem_insert _).mpr (Or.inr hc), fun c hne =>
      ⟨AList.lookup_insert_ne hne, AList.lookup_insert_ne hne, fun _ => rfl⟩⟩
  · rcases (AList.mem_insert _).mp hc with rfl | hc
    · exact (AList.mem_insert _).mpr (Or.inl rfl)
    · exact (AList.mem_insert _).mpr (Or.inr (hB.channel_of_connection c hc))
  · rcases List.mem_append.mp hmem with hmem | hmem
    · exact (AList.mem_insert _).mpr (Or.inr (hB.channel_of_registered registrar c tenantId' hmem))
    · obtain ⟨_, rfl, _⟩ : registrar = call ∧ c = id ∧ tenantId' = tenantId := by
        simpa using hmem
      exact (AList.mem_insert _).mpr (Or.inl rfl)
  · by_cases hc : c = id
    · subst c
      refine ⟨call, List.mem_append_right _ ?_⟩
      rw [insertConnection, Shared.log, AList.lookup_insert] at hl
      rw [← Option.some.inj hl]
      exact List.mem_singleton.mpr rfl
    · rw [insertConnection, Shared.log, AList.lookup_insert_ne hc] at hl
      obtain ⟨registrar, hmem⟩ := hB.registered c connection hl
      exact ⟨registrar, List.mem_append_left _ hmem⟩
  · obtain ⟨subscriber, filter, hk, hvalid, hst⟩ := hB.live k c sid hmem
    exact ⟨subscriber, filter, hk, hvalid, hst.append (by simp [Event.ends])⟩
  · by_cases hc : c = id
    · subst c
      rw [insertConnection, Shared.log, AList.lookup_insert] at hl
      rw [← Option.some.inj hl, Channel.log_new, eq_comm, List.filterMap_eq_nil_iff]
      intro e he
      rcases List.mem_append.mp he with he | he
      · cases ha : e.acceptedBy id with
        | none => rfl
        | some delivery => exact absurd (hB.channel_of_accepted he ha) hid
      · rw [List.mem_singleton.mp he]
        rfl
    · rw [insertConnection, Shared.log, AList.lookup_insert_ne hc] at hl
      rw [hB.log c channel hl]
      simp [insertConnection, Shared.log, Event.acceptedBy]

def registerEvents (call : CallId) (tenantId : String) :
    Except CoreError ConnectionId → List Event
  | .ok id => [.registered call id tenantId]
  | .error _ => []

theorem sat_registerConnection (hr : Rights touches call D (fun _ => False))
    (hfresh : ∀ id, ¬ reserved id → touches call.thread id) (hD : ∀ c, D c → reserved c)
    (queueCapacity : Option ℕ) (hs : Ready call own s) (hk : Kept D s₀ s) :
    (registerConnection config call tenantId protocol queueCapacity).Sat
      (contract config touches reserved call)
      (Returns call D s₀ (fun result own' => own' = own ++ registerEvents call tenantId result))
      s := by
  unfold registerConnection
  split
  · exact sat_ready_ret hr hs hk (by simp [registerEvents])
  dsimp only
  split_ifs with hcapacity
  · exact sat_ready_ret hr hs hk (by simp [registerEvents])
  refine sat_withMutationLock hr hs hk (fun R s₁ hR _ hs₁ hk₁ => ?_)
  refine sat_locked_read hr hs₁ hk₁ (fun s₂ hreg s₃ _ hs₃ hk₃ => ?_)
  refine sat_locked_read hr hs₃ hk₃ (fun s₄ hreg' s₅ _ hs₅ hk₅ => ?_)
  rw [← registry_size, hreg, hreg']
  split_ifs with hlimit
  · refine sat_locked_count hr hs₅ hk₅ (fun s₆ _ hs₆ hk₆ => ?_)
    exact sat_holding_ret hr hs₆ hk₆ ⟨hR, by simp⟩ (by simp [registerEvents])
  · refine sat_locked_await hr.others hs₅ hk₅ (fun id s₆ hinv₆ hs₆ hid => ?_)
    have hid' : id ∉ s₆.channels := of_decide_eq_true hid
    have hrid : Rights touches call D (fun c => c = id) := by
      refine ⟨hr.others, fun c hc => hc ▸ hfresh id (fun h => hid' (hinv₆.reserved id h)), ?_⟩
      exact fun c hDc hc => hid' (hc ▸ hinv₆.reserved c (hD c hDc))
    refine ⟨_, _, _, hrid, lockedStep_insertConnection hinv₆.base _ hid',
      fun s₇ _ hs₇ hk₇ => ?_⟩
    refine sat_locked hr hs₇ hk₇ (fun s₈ hB₈ hs₈ => ⟨_, _, lockedStep_gauge hB₈ _ _,
      fun s₉ _ hs₉ hk₉ => ?_⟩)
    have hnew : id ∉ R.connections := by
      rw [← hs₆.registry]
      intro hmem
      exact hid' (hinv₆.base.channel_of_connection id ((AList.mem_mapValues ..).mp hmem))
    refine sat_holding_ret hr hs₉ hk₉ ⟨?_, by simp⟩ (by simp [registerEvents])
    have hregister : R.register config id tenantId protocol = .ok { s₈.registry with
        gauges := s₈.registry.gauges.recordProtocolOpened protocol } := by
      rw [Registry.register, if_neg hlimit, hs₈.registry, hs₆.registry]
    exact Registry.Reachable.register hR hnew hregister

end Register

section Subscribe

variable {config : RouterConfig} {touches : ℕ → ConnectionId → Prop} {call : CallId}
  {reserved D : ConnectionId → Prop} {s₀ s : Shared} {own : List Event} {R : Registry}
  {c : ConnectionId} {sid : SubscriptionId} {filter : RouteFilter}

theorem lookup_tenantId (s : Shared) (c : ConnectionId) :
    (s.connections.lookup c).map (fun connection => connection.tenantId) =
      (s.registry.connections.lookup c).map Registration.tenantId := by
  rw [registry_lookup, Option.map_map]
  rfl

theorem lockedStep_refl {T : ConnectionId → Prop} (hB : Base s) :
    LockedStep call T [] s.registry s s :=
  ⟨hB, rfl, rfl, by simp, by simp, fun _ h => h, fun c _ => Same.refl c s⟩

/-- Changing the entry of a connection, but for its tenant, is a step about that connection. -/
theorem lockedStep_connection (hB : Base s) {f : ConnectionState → ConnectionState}
    {g : Registration → Registration} (hfg : ∀ x, (f x).toRegistration = g x.toRegistration)
    (htenant : ∀ x, (f x).tenantId = x.tenantId) :
    LockedStep call (fun c' => c' = c) []
      { s.registry with connections := s.registry.connections.modify c g } s
      { s with connections := s.connections.modify c f } := by
  refine ⟨hB.connections (fun c' connection' hl => ?_), rfl, ?_, by simp, by simp, fun _ h => h,
    fun c' hne => ⟨AList.lookup_modify_ne hne f _, rfl, fun _ => rfl⟩⟩
  · rw [AList.lookup_modify] at hl
    obtain ⟨connection, hl', rfl⟩ := Option.map_eq_some_iff.mp hl
    refine ⟨connection, hl', ?_⟩
    split_ifs
    · exact htenant connection
    · rfl
  · simp only [Shared.registry, AList.mapValues_modify hfg]

/-- The access that inserts a subscription makes the checks of the sequential operation. -/
theorem insertSubscription_cases (config : RouterConfig) (sid : SubscriptionId)
    (filter : RouteFilter) {r : Registration}
    (hr : s.registry.connections.lookup c = some r) :
    (r.tenantId ≠ filter.tenantId ∧
      insertSubscription config c sid filter s = (.error .tenantMismatch, s)) ∨
    (sid ∈ r.subscriptions ∧
      insertSubscription config c sid filter s = (.error .subscriptionExists, s)) ∨
    (r.subscriptions.size ≥ config.maxSubscriptionsPerConnection ∧
      insertSubscription config c sid filter s = (.error .subscriptionLimitReached, s)) ∨
    (r.tenantId = filter.tenantId ∧ sid ∉ r.subscriptions ∧
      ¬ r.subscriptions.size ≥ config.maxSubscriptionsPerConnection ∧
      insertSubscription config c sid filter s = (.ok r.protocol,
        { s with
          connections := s.connections.modify c (fun connection =>
            { connection with
              subscriptions := connection.subscriptions.insert sid filter }) })) := by
  rw [registry_lookup] at hr
  obtain ⟨connection, hl, rfl⟩ := Option.map_eq_some_iff.mp hr
  unfold insertSubscription
  simp only [hl]
  by_cases htenant : connection.tenantId = filter.tenantId
  · by_cases hexists : sid ∈ connection.subscriptions
    · exact Or.inr (Or.inl ⟨hexists, by simp [htenant, hexists]⟩)
    · by_cases hlimit : connection.subscriptions.size ≥ config.maxSubscriptionsPerConnection
      · exact Or.inr (Or.inr (Or.inl ⟨hlimit, by simp [htenant, hexists, hlimit]⟩))
      · exact Or.inr (Or.inr (Or.inr ⟨htenant, hexists, hlimit, by
          simp [htenant, hexists, hlimit]⟩))
  · exact Or.inl ⟨htenant, by simp [htenant]⟩

/-- A route may be pushed for a call that has begun and whose connection is of the filter's
tenant. -/
theorem lockedStep_pushRoute (hB : Base s) (hvalid : filter.validate = .ok ())
    (hbegan : .began call (.subscribe c sid filter) ∈ s.history)
    (hopen : ∀ response, .returned call response ∉ s.history) {r : Registration}
    (hr : s.registry.connections.lookup c = some r) (htenant : r.tenantId = filter.tenantId) :
    LockedStep call (fun c' => c' = c) [.subscribed call c sid filter]
      { s.registry with routes := s.registry.routes.push (RouteKey.ofFilter filter) c sid } s
      (pushRoute call c sid filter s) := by
  rw [registry_lookup] at hr
  obtain ⟨connection, hl, rfl⟩ := Option.map_eq_some_iff.mp hr
  have haccount : Account s.history (.subscribed call c sid filter) := by
    obtain ⟨registrar, hmem⟩ := hB.registered c connection hl
    rw [htenant] at hmem
    exact ⟨hbegan, hopen, registrar, hmem⟩
  have hrecord : Base (s.log [.subscribed call c sid filter]) :=
    hB.record haccount (fun _ _ _ _ h => h) (by simp) (fun _ => rfl)
  refine ⟨⟨hrecord.channel_of_connection, hrecord.channel_of_registered, hrecord.registered,
    filled_push hB.filled _ _ _, fun k c' sid' hmem => ?_, hrecord.justified, hrecord.log⟩,
    rfl, rfl, rfl, by simp [Event.call], fun _ h => h, fun c' hne => ⟨rfl, rfl, fun k => ?_⟩⟩
  · simp only [pushRoute, Shared.log] at hmem
    rw [items_push] at hmem
    split_ifs at hmem with hkc
    · obtain ⟨rfl, rfl⟩ := hkc
      rcases List.mem_append.mp hmem with hmem | hmem
      · exact hrecord.live _ c' sid' hmem
      · rw [List.mem_singleton.mp hmem]
        exact ⟨call, filter, rfl, hvalid, standing_new _ _ _⟩
    · exact hrecord.live k c' sid' hmem
  · simp only [pushRoute, Shared.log]
    rw [items_push, if_neg (fun h => hne h.2)]

def subscribeEvents (call : CallId) (c : ConnectionId) (sid : SubscriptionId)
    (filter : RouteFilter) : Except CoreError Unit → List Event
  | .ok () => [.subscribed call c sid filter]
  | .error _ => []

theorem mem_history_of_own {e : Event} (hown : ownEvents call s = own) (he : e ∈ own) :
    e ∈ s.history := by
  rw [← hown] at he
  exact (List.mem_filter.mp he).1

theorem sat_subscribe (hr : Rights touches call D (fun c' => c' = c)) (hs : Ready call own s)
    (hk : Kept D s₀ s) (hbegan : .began call (.subscribe c sid filter) ∈ own)
    (hopen : ∀ response, .returned call response ∉ own) :
    (subscribe config call c sid filter).Sat (contract config touches reserved call)
      (Returns call D s₀ (fun result own' =>
        own' = own ++ subscribeEvents call c sid filter result))
      s := by
  unfold subscribe
  split
  · exact sat_ready_ret hr hs hk (by simp [subscribeEvents])
  rename_i hvalid
  refine sat_withMutationLock hr hs hk (fun R s₁ hR _ hs₁ hk₁ => ?_)
  have hreject : ∀ s', Holding call own R s' → Kept D s₀ s' → ∀ e,
      (Prog.ret (.error e) : RouterProg (Except CoreError Unit)).Sat
        (contract config touches reserved call)
        (Closes config call D s₀ (fun _ => []) (fun result own' =>
          own' = own ++ subscribeEvents call c sid filter result)) s' :=
    fun s' hs' hk' e => sat_holding_ret hr hs' hk' ⟨hR, by simp⟩ (by simp [subscribeEvents])
  refine sat_locked_read hr hs₁ hk₁ (fun s₂ hreg s₃ _ hs₃ hk₃ => ?_)
  rw [lookup_tenantId, hreg]
  cases hlookup : R.connections.lookup c with
  | none => exact hreject s₃ hs₃ hk₃ _
  | some r =>
    refine sat_locked_read hr hs₃ hk₃ (fun s₄ hreg₄ s₅ _ hs₅ hk₅ => ?_)
    refine sat_locked_read hr hs₅ hk₅ (fun s₆ hreg₆ s₇ _ hs₇ hk₇ => ?_)
    rw [hreg₄, hreg₆]
    split_ifs with hlimit
    · exact sat_locked_count hr hs₇ hk₇ (fun s₈ _ hs₈ hk₈ => hreject s₈ hs₈ hk₈ _)
    refine sat_locked hr hs₇ hk₇ (fun s₈ hB₈ hs₈ => ?_)
    have hr₈ : s₈.registry.connections.lookup c = some r := by rw [hs₈.registry, hlookup]
    have hstay : LockedStep call (fun c' => c' = c) [] R s₈ s₈ := by
      rw [← hs₈.registry]
      exact lockedStep_refl hB₈
    rcases insertSubscription_cases config sid filter hr₈ with
      ⟨_, heq⟩ | ⟨_, heq⟩ | ⟨_, heq⟩ | ⟨htenant, habsent, hper, heq⟩
    · rw [heq]
      exact ⟨[], R, hstay, fun s' _ hs' hk' => hreject s' (by simpa using hs') hk' _⟩
    · rw [heq]
      exact ⟨[], R, hstay, fun s' _ hs' hk' => hreject s' (by simpa using hs') hk' _⟩
    · rw [heq]
      exact ⟨[], R, hstay, fun s' _ hs' hk' => hreject s' (by simpa using hs') hk' _⟩
    rw [heq]
    refine ⟨[], _, lockedStep_connection hB₈ (g := fun r =>
      { r with subscriptions := r.subscriptions.insert sid filter }) (fun _ => rfl) (fun _ => rfl),
      fun s₉ _ hs₉ hk₉ => ?_⟩
    refine sat_locked hr hs₉ hk₉ (fun s₁₀ hB₁₀ hs₁₀ => ?_)
    have hr₁₀ : s₁₀.registry.connections.lookup c =
        some { r with subscriptions := r.subscriptions.insert sid filter } := by
      rw [hs₁₀.registry, AList.lookup_modify_self, hr₈]
      rfl
    have hopen₁₀ : ∀ response, .returned call response ∉ s₁₀.history := by
      intro response hmem
      refine hopen response ?_
      rw [← List.append_nil own, ← hs₁₀.own]
      exact List.mem_filter.mpr ⟨hmem, by simp [Event.call]⟩
    refine ⟨_, _, lockedStep_pushRoute hB₁₀ hvalid
      (mem_history_of_own hs₁₀.own (by simpa using hbegan)) hopen₁₀ hr₁₀ htenant,
      fun s₁₁ _ hs₁₁ hk₁₁ => ?_⟩
    refine sat_locked hr hs₁₁ hk₁₁ (fun s₁₂ hB₁₂ hs₁₂ => ⟨_, _,
      lockedStep_gauge hB₁₂ id (Gauges.recordSubscriptionAdded r.protocol),
      fun s₁₃ _ hs₁₃ hk₁₃ => ?_⟩)
    refine sat_holding_ret hr hs₁₃ hk₁₃ ⟨?_, by simp⟩ (by simp [subscribeEvents])
    have hsubscribe : R.subscribe config c sid filter = .ok { s₁₂.registry with
        gauges := s₁₂.registry.gauges.recordSubscriptionAdded r.protocol } := by
      rw [Registry.subscribe_eq_ok hlookup hlimit htenant habsent hper, hs₁₂.registry,
        hs₁₀.registry, hs₈.registry]
      rfl
    exact Registry.Reachable.subscribe hR hvalid hsubscribe

end Subscribe
end KafkaEdgeRouter.Router
