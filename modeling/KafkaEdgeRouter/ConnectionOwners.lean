import KafkaEdgeRouter.CallChronicle
import KafkaEdgeRouter.ProgramNotes
import KafkaEdgeRouter.RouterCalls

/-!
# Owners of connections

The thread that registers a connection owns it, since nobody else knows its identifier. All that the
calls of other threads do to an owned connection is to put deliveries on its queue and to take it
out of the router when it is too slow. This is read off the accesses of each call and then holds in
every interleaving of threads that only name connections of their own.
-/

namespace KafkaEdgeRouter.Router

def Owns (t : ℕ) (c : ConnectionId) (s : Shared) : Prop :=
  ∃ serial tenantId, .registered ⟨t, serial⟩ c tenantId ∈ s.history

/-- The connection is registered as it was, or it was taken out. -/
def OnlyCut (c : ConnectionId) (s s' : Shared) : Prop :=
  ∀ connection', s'.connections.lookup c = some connection' → ∃ connection,
    s.connections.lookup c = some connection ∧
      connection'.toRegistration = connection.toRegistration

/-- The queue may have grown, but not once the connection is out. -/
structure OnlyFed (c : ConnectionId) (s s' : Shared) : Prop where
  channel : ∀ channel, s.channels.lookup c = some channel → ∃ channel',
    s'.channels.lookup c = some channel' ∧ channel'.received = channel.received ∧
      channel'.closed = channel.closed
  gone : c ∉ s.connections → s'.channels.lookup c = s.channels.lookup c

/-- The request only names connections that the thread owns. -/
def Mine (t : ℕ) (s : Shared) : Request → Prop
  | .register _ _ _ => True
  | .subscribe c _ _ => Owns t c s
  | .unsubscribe c _ => Owns t c s
  | .unregister c => Owns t c s
  | .dispatch _ => True
  | .receive c => Owns t c s
  | .close c => Owns t c s

def Alters (c : ConnectionId) : Request → Prop
  | .subscribe c' _ _ => c' = c
  | .unsubscribe c' _ => c' = c
  | _ => False

def Polls (c : ConnectionId) : Request → Prop
  | .receive c' => c' = c
  | .close c' => c' = c
  | _ => False

/-- The subscriptions of a connection are for its tenant. -/
def Tenanted (s : Shared) : Prop :=
  ∀ c connection, s.connections.lookup c = some connection →
    ∀ sid filter, connection.subscriptions.lookup sid = some filter →
      filter.tenantId = connection.tenantId

/-- Connections and subscriptions are added for requests that ask for them, and a subscription only
for the tenant of its connection. -/
structure Additions (request : Request) (s s' : Shared) : Prop where
  connection : ∀ c connection', s'.connections.lookup c = some connection' →
    (∃ connection, s.connections.lookup c = some connection ∧
      connection.tenantId = connection'.tenantId) ∨
    ∃ protocol queueCapacity, request = .register connection'.tenantId protocol queueCapacity
  subscription : ∀ c connection', s'.connections.lookup c = some connection' →
    ∀ sid filter, connection'.subscriptions.lookup sid = some filter →
      (∃ connection, s.connections.lookup c = some connection ∧
        connection.tenantId = connection'.tenantId ∧
        connection.subscriptions.lookup sid = some filter) ∨
      request = .subscribe c sid filter ∧ filter.tenantId = connection'.tenantId

/-- The request is about this connection and no other. -/
def Solely (c : ConnectionId) : Request → Prop
  | .subscribe c' _ _ => c' = c
  | .unsubscribe c' _ => c' = c
  | .unregister c' => c' = c
  | .receive c' => c' = c
  | .close c' => c' = c
  | _ => False

section Accesses

variable {config : RouterConfig} {call : CallId} {request : Request} {c : ConnectionId}
  {s s' : Shared}

theorem OnlyCut.of_eq (h : s'.connections.lookup c = s.connections.lookup c) : OnlyCut c s s' :=
  fun connection' hl => ⟨connection', h ▸ hl, rfl⟩

theorem OnlyFed.of_eq (h : s'.channels.lookup c = s.channels.lookup c) : OnlyFed c s s' :=
  ⟨fun channel hl => ⟨channel, h.trans hl, rfl, rfl⟩, fun _ => h⟩

theorem OnlyCut.gone (h : OnlyCut c s s') (hc : c ∉ s.connections) : c ∉ s'.connections := by
  intro hc'
  obtain ⟨connection', hl'⟩ := AList.exists_lookup hc'
  obtain ⟨connection, hl, _⟩ := h connection' hl'
  exact hc (AList.mem_of_lookup hl)

theorem onlyCut_modify {c' : ConnectionId} {f : ConnectionState → ConnectionState}
    (hconn : s'.connections = s.connections.modify c' f)
    (hf : ∀ x, (f x).toRegistration = x.toRegistration) : OnlyCut c s s' := by
  intro connection' hl
  rw [hconn, AList.lookup_modify] at hl
  obtain ⟨connection, hl', rfl⟩ := Option.map_eq_some_iff.mp hl
  refine ⟨connection, hl', ?_⟩
  split_ifs
  · exact hf connection
  · rfl

theorem onlyCut_offer (last : Bool) (message : Option RoutedMessage) (c' : ConnectionId)
    (ids : List SubscriptionId) (s : Shared) :
    OnlyCut c s (offer config call last message c' ids s).2 := by
  cases hl : s.connections.lookup c' with
  | none =>
    rw [offer_none last message hl]
    exact .of_eq rfl
  | some connection =>
    cases message with
    | none =>
      simp only [offer, hl]
      exact .of_eq rfl
    | some message =>
      rw [offer_some last hl]
      generalize strikesAfter (trySend c' ⟨message, ids⟩ s).1 connection.fullStrikes = strikes
      exact onlyCut_modify (f := fun x => { x with fullStrikes := strikes }) rfl (fun _ => rfl)

theorem onlyCut_takeConnection (c' : ConnectionId) (s : Shared) :
    OnlyCut c s (takeConnection c' s).2 := by
  rcases takeConnection_cases c' s with ⟨_, heq⟩ | ⟨r, _, heq⟩
  · rw [heq]
    exact .of_eq rfl
  · rw [heq]
    intro connection' hl
    change (s.connections.erase c').lookup c = some connection' at hl
    by_cases hc : c = c'
    · rw [hc, AList.lookup_erase] at hl
      cases hl
    · rw [AList.lookup_erase_ne hc] at hl
      exact ⟨connection', hl, rfl⟩

theorem lookup_insertSubscription_ne {c' : ConnectionId} (hne : c ≠ c') (sid : SubscriptionId)
    (filter : RouteFilter) (s : Shared) :
    (insertSubscription config c' sid filter s).2.connections.lookup c =
      s.connections.lookup c := by
  unfold insertSubscription
  split
  · rfl
  · split_ifs
    · rfl
    · rfl
    · rfl
    · exact AList.lookup_modify_ne hne _ _

theorem lookup_takeSubscription_ne {c' : ConnectionId} (hne : c ≠ c') (sid : SubscriptionId)
    (s : Shared) : (takeSubscription c' sid s).2.connections.lookup c =
      s.connections.lookup c := by
  rcases takeSubscription_cases c' sid s with ⟨e, heq⟩ | ⟨r, filter, _, _, heq⟩
  · rw [heq]
  · rw [heq]
    exact AList.lookup_modify_ne hne _ _

/-- Only its own subscriptions and their ends change the entry of a connection. -/
theorem onlyCut_of_access (h : Access config call request s s') (hc : c ∈ s.channels)
    (hrequest : ¬ Alters c request) : OnlyCut c s s' := by
  cases h with
  | read => exact .of_eq rfl
  | meter => exact .of_eq rfl
  | lock => exact .of_eq rfl
  | unlock => exact .of_eq rfl
  | @insertConnection tenantId protocol queueCapacity id _ hid =>
    have hne : c ≠ id := fun heq => hid (heq ▸ hc)
    exact .of_eq (AList.lookup_insert_ne hne)
  | insertSubscription c' sid filter _ =>
    exact .of_eq (lookup_insertSubscription_ne (fun heq => hrequest heq.symm) sid filter s)
  | pushRoute => exact .of_eq rfl
  | takeSubscription c' sid _ =>
    exact .of_eq (lookup_takeSubscription_ne (fun heq => hrequest heq.symm) sid s)
  | unsubscribed => exact .of_eq rfl
  | @takeConnection _ c' _ _ => exact onlyCut_takeConnection c' s
  | unregistered => exact .of_eq rfl
  | discard => exact .of_eq rfl
  | prune => exact .of_eq rfl
  | offer last c' ids _ _ => exact onlyCut_offer last _ c' ids s
  | receive => exact .of_eq rfl
  | close => exact .of_eq rfl

theorem lookup_of_access (h : Access config call request s s') (hrequest : Solely c request)
    {c' : ConnectionId} (hne : c' ≠ c) :
    s'.connections.lookup c' = s.connections.lookup c' := by
  cases h with
  | read => rfl
  | meter => rfl
  | lock => rfl
  | unlock => rfl
  | insertConnection => exact hrequest.elim
  | insertSubscription c₁ sid filter _ =>
    exact lookup_insertSubscription_ne (fun heq => hne (heq.trans hrequest)) sid filter s
  | pushRoute => rfl
  | takeSubscription c₁ sid _ =>
    exact lookup_takeSubscription_ne (fun heq => hne (heq.trans hrequest)) sid s
  | unsubscribed => rfl
  | @takeConnection _ c₁ _ hremoves =>
    have heq : c₁ = c := by
      cases request with
      | unregister c₂ => exact Eq.trans hremoves hrequest
      | dispatch => exact hrequest.elim
      | _ => exact hremoves.elim
    rcases takeConnection_cases c₁ s with ⟨_, hs'⟩ | ⟨r, _, hs'⟩
    · rw [hs']
    · rw [hs', heq]
      exact AList.lookup_erase_ne hne
  | unregistered => rfl
  | discard => rfl
  | prune => rfl
  | offer => exact hrequest.elim
  | receive => rfl
  | close => rfl

theorem additions_of_onlyCut (h : ∀ c, OnlyCut c s s') : Additions request s s' := by
  refine ⟨fun c connection' hl' => ?_, fun c connection' hl' sid filter hsid => ?_⟩
  · obtain ⟨connection, hl, heq⟩ := h c connection' hl'
    exact Or.inl ⟨connection, hl, (congrArg Registration.tenantId heq).symm⟩
  · obtain ⟨connection, hl, heq⟩ := h c connection' hl'
    rw [congrArg Registration.subscriptions heq] at hsid
    exact Or.inl ⟨connection, hl, (congrArg Registration.tenantId heq).symm, hsid⟩

theorem additions_of_modify {c : ConnectionId} {f : Subscriptions → Subscriptions}
    (hconn : s'.connections = s.connections.modify c
      (fun connection => { connection with subscriptions := f connection.subscriptions }))
    (hf : ∀ connection, s.connections.lookup c = some connection → ∀ sid filter,
      (f connection.subscriptions).lookup sid = some filter →
        connection.subscriptions.lookup sid = some filter ∨
        request = .subscribe c sid filter ∧ filter.tenantId = connection.tenantId) :
    Additions request s s' := by
  refine ⟨fun c' connection' hl' => ?_, fun c' connection' hl' sid filter hsid => ?_⟩
  · rw [hconn, AList.lookup_modify] at hl'
    obtain ⟨connection, hl, rfl⟩ := Option.map_eq_some_iff.mp hl'
    refine Or.inl ⟨connection, hl, ?_⟩
    split_ifs <;> rfl
  · rw [hconn, AList.lookup_modify] at hl'
    obtain ⟨connection, hl, rfl⟩ := Option.map_eq_some_iff.mp hl'
    split_ifs at hsid ⊢ with hc
    · subst hc
      rcases hf connection hl sid filter hsid with hold | hnew
      · exact Or.inl ⟨connection, hl, rfl, hold⟩
      · exact Or.inr hnew
    · exact Or.inl ⟨connection, hl, rfl, hsid⟩

theorem additions_insertSubscription (c : ConnectionId) (sid : SubscriptionId)
    (filter : RouteFilter) :
    Additions (.subscribe c sid filter) s (insertSubscription config c sid filter s).2 := by
  unfold insertSubscription
  cases hl : s.connections.lookup c with
  | none => exact additions_of_onlyCut fun _ => .of_eq rfl
  | some connection =>
    dsimp only
    split_ifs with htenant
    · exact additions_of_onlyCut fun _ => .of_eq rfl
    · exact additions_of_onlyCut fun _ => .of_eq rfl
    · exact additions_of_onlyCut fun _ => .of_eq rfl
    · refine additions_of_modify (f := fun subscriptions => subscriptions.insert sid filter) rfl ?_
      intro connection' hl' sid' filter' hsid'
      cases hl.symm.trans hl'
      by_cases hne : sid' = sid
      · rw [hne, AList.lookup_insert] at hsid'
        cases hsid'
        rw [hne]
        exact Or.inr ⟨rfl, (not_not.mp htenant).symm⟩
      · rw [AList.lookup_insert_ne hne] at hsid'
        exact Or.inl hsid'

theorem additions_takeSubscription (c : ConnectionId) (sid : SubscriptionId) :
    Additions request s (takeSubscription c sid s).2 := by
  rcases takeSubscription_cases c sid s with ⟨e, heq⟩ | ⟨r, filter, _, _, heq⟩
  · rw [heq]
    exact additions_of_onlyCut fun _ => .of_eq rfl
  · rw [heq]
    refine additions_of_modify (f := fun subscriptions => subscriptions.erase sid) rfl ?_
    intro connection hl sid' filter' hsid'
    by_cases hne : sid' = sid
    · rw [hne, AList.lookup_erase] at hsid'
      cases hsid'
    · rw [AList.lookup_erase_ne hne] at hsid'
      exact Or.inl hsid'

theorem additions_insertConnection {tenantId : String} {protocol : DeliveryProtocol}
    {queueCapacity : Option ℕ} (capacity : ℕ) (id : ConnectionId) :
    Additions (.register tenantId protocol queueCapacity) s
      (insertConnection call tenantId protocol capacity id s) := by
  have hlookup : ∀ c connection', c ≠ id →
      (insertConnection call tenantId protocol capacity id s).connections.lookup c =
        some connection' → s.connections.lookup c = some connection' :=
    fun c connection' hc hl' => (AList.lookup_insert_ne hc).symm.trans hl'
  have hnew : (insertConnection call tenantId protocol capacity id s).connections.lookup id =
      some ⟨⟨tenantId, protocol, ∅⟩, 0⟩ := AList.lookup_insert _
  refine ⟨fun c connection' hl' => ?_, fun c connection' hl' sid filter hsid => ?_⟩
  · by_cases hc : c = id
    · rw [hc, hnew] at hl'
      cases hl'
      exact Or.inr ⟨protocol, queueCapacity, rfl⟩
    · exact Or.inl ⟨connection', hlookup c connection' hc hl', rfl⟩
  · by_cases hc : c = id
    · rw [hc, hnew] at hl'
      cases hl'
      cases hsid
    · exact Or.inl ⟨connection', hlookup c connection' hc hl', rfl, hsid⟩

theorem additions_of_access (h : Access config call request s s') : Additions request s s' := by
  cases h with
  | read => exact additions_of_onlyCut fun _ => .of_eq rfl
  | meter => exact additions_of_onlyCut fun _ => .of_eq rfl
  | lock => exact additions_of_onlyCut fun _ => .of_eq rfl
  | unlock => exact additions_of_onlyCut fun _ => .of_eq rfl
  | insertConnection => exact additions_insertConnection _ _
  | insertSubscription c sid filter => exact additions_insertSubscription c sid filter
  | pushRoute => exact additions_of_onlyCut fun _ => .of_eq rfl
  | takeSubscription c sid => exact additions_takeSubscription c sid
  | unsubscribed => exact additions_of_onlyCut fun _ => .of_eq rfl
  | @takeConnection _ c _ _ => exact additions_of_onlyCut fun _ => onlyCut_takeConnection c s
  | unregistered => exact additions_of_onlyCut fun _ => .of_eq rfl
  | discard => exact additions_of_onlyCut fun _ => .of_eq rfl
  | prune => exact additions_of_onlyCut fun _ => .of_eq rfl
  | offer last c ids _ _ => exact additions_of_onlyCut fun _ => onlyCut_offer last _ c ids s
  | receive => exact additions_of_onlyCut fun _ => .of_eq rfl
  | close => exact additions_of_onlyCut fun _ => .of_eq rfl

theorem Tenanted.additions (h : Tenanted s) (hadditions : Additions request s s') :
    Tenanted s' := by
  intro c connection' hl' sid filter hsid
  rcases hadditions.subscription c connection' hl' sid filter hsid with
    ⟨connection, hl, htenant, hold⟩ | ⟨_, htenant⟩
  · exact (h c connection hl sid filter hold).trans htenant
  · exact htenant

theorem trySend_kept (delivery : Delivery) (channel : Channel Delivery) :
    (channel.trySend delivery).2.received = channel.received ∧
      (channel.trySend delivery).2.closed = channel.closed := by
  unfold Channel.trySend
  split_ifs <;> exact ⟨rfl, rfl⟩

theorem onlyFed_offer (last : Bool) (message : Option RoutedMessage) (c' : ConnectionId)
    (ids : List SubscriptionId) (s : Shared) :
    OnlyFed c s (offer config call last message c' ids s).2 := by
  cases hl : s.connections.lookup c' with
  | none =>
    rw [offer_none last message hl]
    exact .of_eq rfl
  | some connection =>
    cases message with
    | none =>
      simp only [offer, hl]
      exact .of_eq rfl
    | some message =>
      rw [offer_some last hl]
      refine ⟨fun channel hch => ?_, fun hgone => ?_⟩
      · by_cases hcc : c = c'
        · subst hcc
          exact ⟨_, (AList.lookup_modify_self ..).trans (by rw [hch]; rfl),
            trySend_kept ⟨message, ids⟩ channel⟩
        · exact ⟨channel, (AList.lookup_modify_ne hcc _ _).trans hch, rfl, rfl⟩
      · have hne : c ≠ c' := fun heq => hgone (heq ▸ AList.mem_of_lookup hl)
        exact AList.lookup_modify_ne hne _ _

/-- Only its receiver takes from the queue of a connection or closes it. -/
theorem onlyFed_of_access (h : Access config call request s s') (hc : c ∈ s.channels)
    (hrequest : ¬ Polls c request) : OnlyFed c s s' := by
  cases h with
  | read => exact .of_eq rfl
  | meter => exact .of_eq rfl
  | lock => exact .of_eq rfl
  | unlock => exact .of_eq rfl
  | @insertConnection tenantId protocol queueCapacity id _ hid =>
    have hne : c ≠ id := fun heq => hid (heq ▸ hc)
    exact .of_eq (AList.lookup_insert_ne hne)
  | insertSubscription c' sid filter _ =>
    exact .of_eq (by rw [(insertSubscription_frame config c' sid filter s).2])
  | pushRoute => exact .of_eq rfl
  | takeSubscription c' sid _ =>
    rcases takeSubscription_cases c' sid s with ⟨e, heq⟩ | ⟨r, filter, _, _, heq⟩
    · exact .of_eq (by rw [heq])
    · exact .of_eq (by rw [heq])
  | unsubscribed => exact .of_eq rfl
  | @takeConnection _ c' _ _ =>
    rcases takeConnection_cases c' s with ⟨_, heq⟩ | ⟨r, _, heq⟩
    · exact .of_eq (by rw [heq])
    · exact .of_eq (by rw [heq])
  | unregistered => exact .of_eq rfl
  | discard => exact .of_eq rfl
  | prune => exact .of_eq rfl
  | offer last c' ids _ _ => exact onlyFed_offer last _ c' ids s
  | @receive c' _ delivery channel _ =>
    exact .of_eq (AList.lookup_modify_ne (fun heq => hrequest heq.symm) _ _)
  | close c' _ =>
    exact .of_eq (AList.lookup_modify_ne (fun heq => hrequest heq.symm) _ _)

theorem kept_of_close (h : Access config call (.close c) s s') {channel : Channel Delivery}
    (hl : s.channels.lookup c = some channel) : ∃ channel',
      s'.channels.lookup c = some channel' ∧ channel'.received = channel.received ∧
        channel'.queue = channel.queue := by
  cases h with
  | read => exact ⟨channel, hl, rfl, rfl⟩
  | meter => exact ⟨channel, hl, rfl, rfl⟩
  | lock => exact ⟨channel, hl, rfl, rfl⟩
  | unlock => exact ⟨channel, hl, rfl, rfl⟩
  | takeConnection _ hremoves => exact hremoves.elim
  | unregistered _ hremoves => exact hremoves.elim
  | discard _ _ hremoves =>
    rcases hremoves with hremoves | hremoves
    · exact hremoves.elim
    · cases hremoves
  | prune => exact ⟨channel, hl, rfl, rfl⟩
  | close => exact ⟨channel.close, by simp [hl], rfl, rfl⟩

end Accesses

/-! ### Calls of a thread on its own connections -/

/-- What one access of the thread may do to connections that others own. -/
def Considerate (t : ℕ) (s s' : Shared) : Prop :=
  ∀ u c, u ≠ t → Owns u c s → OnlyCut c s s' ∧ OnlyFed c s s'

/-- What one access of the call may do to connections of its own thread. -/
structure Modest (t : ℕ) (request : Request) (s s' : Shared) : Prop where
  connection : ∀ c, Owns t c s → ¬ Alters c request → OnlyCut c s s'
  channel : ∀ c, Owns t c s → request ≠ .receive c → ∀ channel,
    s.channels.lookup c = some channel → ∃ channel', s'.channels.lookup c = some channel' ∧
      channel'.received = channel.received ∧ (c ∉ s.connections → channel'.queue = channel.queue)

def Announces (request : Request) (s s' : Shared) : Prop :=
  ∀ call request', .began call request' ∈ s'.history →
    .began call request' ∈ s.history ∨ request' = request

/-- A call that is about one connection leaves the entries of all others as they are. -/
def Elsewhere (request : Request) (s s' : Shared) : Prop :=
  ∀ c, Solely c request → ∀ c', c' ≠ c → s'.connections.lookup c' = s.connections.lookup c'

/-- The thread is outside of the lock and has not used this serial number or a later one. -/
structure Unspent (t n : ℕ) (s : Shared) : Prop where
  lock : s.mutationLock ≠ some t
  serial : ∀ e ∈ s.history, e.call.thread = t → e.call.serial < n

/-- The contract of a call in the company of threads that only name connections of their own. -/
def calling (config : RouterConfig) (t : ℕ) (request : Request) : Contract Shared where
  inv := Inv config (fun _ => False)
  interference s s' :=
    ∃ u, u ≠ t ∧ Guarantee (fun _ _ => True) u s s' ∧ Considerate u s s'
  guarantee s s' :=
    Guarantee (fun _ _ => True) t s s' ∧ Considerate t s s' ∧ Modest t request s s' ∧
      Announces request s s' ∧ Elsewhere request s s' ∧ Additions request s s'

section Calls

variable {config : RouterConfig} {call : CallId} {request : Request} {c : ConnectionId}
  {s s' : Shared} {t u n : ℕ}

theorem Owns.mono (h : Owns t c s) {events : List Event}
    (hh : s'.history = s.history ++ events) : Owns t c s' := by
  obtain ⟨serial, tenantId, hmem⟩ := h
  exact ⟨serial, tenantId, hh ▸ List.mem_append_left _ hmem⟩

theorem Mine.mono (h : Mine t s request) {events : List Event}
    (hh : s'.history = s.history ++ events) : Mine t s' request := by
  cases request with
  | register => trivial
  | dispatch => trivial
  | subscribe => exact Owns.mono h hh
  | unsubscribe => exact Owns.mono h hh
  | unregister => exact Owns.mono h hh
  | receive => exact Owns.mono h hh
  | close => exact Owns.mono h hh

theorem Base.registered_unique (hB : Base s) {registrar registrar' : CallId}
    {tenantId tenantId' : String} (h : .registered registrar c tenantId ∈ s.history)
    (h' : .registered registrar' c tenantId' ∈ s.history) : registrar = registrar' := by
  let registers : Event → Bool
    | .registered _ c' _ => c' = c
    | _ => false
  have hlength : (s.history.filter registers).length ≤ 1 := by
    refine hB.justified.filter_length_le_one (fun before e haccount he e' he' => ?_)
    cases e' with
    | registered caller c' tenant =>
      by_contra hne
      have hc' : c' = c := by simpa [registers] using hne
      subst c'
      cases e with
      | registered caller' c' tenant' =>
        have hc' : c' = c := by simpa [registers] using he
        subst c'
        exact haccount caller tenant he'
      | _ => cases he
    | _ => rfl
  have hmem : ∀ {caller tenant}, .registered caller c tenant ∈ s.history →
      .registered caller c tenant ∈ s.history.filter registers :=
    fun hmem => List.mem_filter.mpr ⟨hmem, by simp [registers]⟩
  obtain ⟨e, he⟩ := List.length_eq_one_iff.mp
    (Nat.le_antisymm hlength (List.length_pos_of_mem (hmem h)))
  have heq := List.mem_singleton.mp (he ▸ hmem h)
  have heq' := List.mem_singleton.mp (he ▸ hmem h')
  injection heq.trans heq'.symm

theorem Base.owner_unique (hB : Base s) (h : Owns t c s) (h' : Owns u c s) : t = u := by
  obtain ⟨_, _, hmem⟩ := h
  obtain ⟨_, _, hmem'⟩ := h'
  exact congrArg CallId.thread (hB.registered_unique hmem hmem')

theorem Base.channel_of_owns (hB : Base s) (h : Owns t c s) : c ∈ s.channels := by
  obtain ⟨_, _, hmem⟩ := h
  exact hB.channel_of_registered _ _ _ hmem

theorem Mine.not_alters (hB : Base s) (h : Mine t s request) (hc : Owns u c s) (hne : u ≠ t) :
    ¬ Alters c request ∧ ¬ Polls c request := by
  have hother : ∀ c', Owns t c' s → c' ≠ c :=
    fun c' hc' heq => hne (hB.owner_unique hc (heq ▸ hc'))
  cases request with
  | register => exact ⟨id, id⟩
  | dispatch => exact ⟨id, id⟩
  | subscribe c' => exact ⟨hother c' h, id⟩
  | unsubscribe c' => exact ⟨hother c' h, id⟩
  | unregister => exact ⟨id, id⟩
  | receive c' => exact ⟨id, hother c' h⟩
  | close c' => exact ⟨id, hother c' h⟩

theorem considerate_of_access (h : Access config call request s s') (hB : Base s)
    (hmine : Mine call.thread s request) : Considerate call.thread s s' := by
  intro u c hne hc
  obtain ⟨halters, hpolls⟩ := hmine.not_alters hB hc hne
  exact ⟨onlyCut_of_access h (hB.channel_of_owns hc) halters,
    onlyFed_of_access h (hB.channel_of_owns hc) hpolls⟩

theorem modest_of_access (h : Access config call request s s') (hB : Base s) :
    Modest call.thread request s s' := by
  refine ⟨fun c hc halters => onlyCut_of_access h (hB.channel_of_owns hc) halters,
    fun c hc hreceive channel hl => ?_⟩
  by_cases hpolls : Polls c request
  · cases request with
    | receive c' => exact absurd (congrArg Request.receive hpolls) hreceive
    | close c' =>
      obtain rfl : c' = c := hpolls
      obtain ⟨channel', hl', hreceived, hqueue⟩ := kept_of_close h hl
      exact ⟨channel', hl', hreceived, fun _ => hqueue⟩
    | _ => exact hpolls.elim
  · have hfed := onlyFed_of_access h (hB.channel_of_owns hc) hpolls
    obtain ⟨channel', hl', hreceived, _⟩ := hfed.channel channel hl
    refine ⟨channel', hl', hreceived, fun hgone => ?_⟩
    rw [hfed.gone hgone, hl] at hl'
    rw [← Option.some.inj hl']

theorem considerate_of_eq (hconn : s'.connections = s.connections)
    (hch : s'.channels = s.channels) : Considerate t s s' :=
  fun _ _ _ _ => ⟨.of_eq (by rw [hconn]), .of_eq (by rw [hch])⟩

theorem considerate_modify (hB : Base s) (hown : Owns t c s)
    (f : Channel Delivery → Channel Delivery) :
    Considerate t s { s with channels := s.channels.modify c f } := by
  intro u c' hne hc'
  have hcc : c' ≠ c := fun heq => hne (hB.owner_unique hc' (heq ▸ hown))
  exact ⟨.of_eq rfl, .of_eq (AList.lookup_modify_ne hcc _ _)⟩

theorem modest_of_eq (hconn : s'.connections = s.connections) (hch : s'.channels = s.channels) :
    Modest t request s s' :=
  ⟨fun _ _ _ => .of_eq (by rw [hconn]),
    fun _ _ _ channel hl => ⟨channel, by rwa [hch], rfl, fun _ => rfl⟩⟩

theorem Unspent.mono {m : ℕ} (h : Unspent t n s) (hm : n ≤ m) : Unspent t m s :=
  ⟨h.lock, fun e he ht => Nat.lt_of_lt_of_le (h.serial e he ht) hm⟩

theorem Unspent.guarantee {touches : ℕ → ConnectionId → Prop} (h : Unspent t n s)
    (hg : Guarantee touches u s s') (hne : u ≠ t) : Unspent t n s' := by
  refine ⟨fun hlock => h.lock ((hg.lock_of_ne hne).mp hlock), fun e he ht => ?_⟩
  obtain ⟨events, heq, hthread, _⟩ := hg.history
  rw [heq] at he
  rcases List.mem_append.mp he with he | he
  · exact h.serial e he ht
  · exact absurd ((hthread e he).symm.trans ht) hne

theorem Unspent.ready (h : Unspent t n s) : Ready ⟨t, n⟩ [] s := by
  refine ⟨h.lock, ?_⟩
  rw [ownEvents, List.filter_eq_nil_iff]
  intro e he heq
  have hcall : e.call = ⟨t, n⟩ := of_decide_eq_true heq
  exact absurd (h.serial e he (by rw [hcall])) (by rw [hcall]; exact Nat.lt_irrefl n)

theorem announces_append {events : List Event} (hh : s'.history = s.history ++ events)
    (hevents : ∀ call request', .began call request' ∈ events → request' = request) :
    Announces request s s' := by
  intro call' request' hmem
  rw [hh] at hmem
  exact (List.mem_append.mp hmem).imp_right (hevents call' request')

theorem announces_of_eq (hh : s'.history = s.history) : Announces request s s' :=
  fun _ _ hmem => Or.inl (hh ▸ hmem)

theorem announces_offer (last : Bool) (message : Option RoutedMessage) (c : ConnectionId)
    (ids : List SubscriptionId) (s : Shared) :
    Announces request s (offer config call last message c ids s).2 := by
  unfold offer
  cases s.connections.lookup c with
  | none => exact announces_of_eq rfl
  | some connection =>
    cases message with
    | none => exact announces_append rfl (by simp)
    | some message => exact announces_append rfl (by simp)

theorem announces_of_access (h : Access config call request s s') : Announces request s s' := by
  cases h with
  | read => exact announces_of_eq rfl
  | meter => exact announces_of_eq rfl
  | lock => exact announces_of_eq rfl
  | unlock => exact announces_append rfl (by simp)
  | insertConnection => exact announces_append rfl (by simp)
  | insertSubscription c sid filter =>
    exact announces_of_eq (insertSubscription_frame config c sid filter s).1
  | pushRoute => exact announces_append rfl (by simp)
  | takeSubscription c sid =>
    rcases takeSubscription_cases c sid s with ⟨e, heq⟩ | ⟨r, filter, _, _, heq⟩
    · exact announces_of_eq (by rw [heq])
    · exact announces_of_eq (by rw [heq])
  | unsubscribed => exact announces_append rfl (by simp)
  | @takeConnection _ c _ _ =>
    rcases takeConnection_cases c s with ⟨_, heq⟩ | ⟨r, _, heq⟩
    · exact announces_of_eq (by rw [heq])
    · exact announces_of_eq (by rw [heq])
  | unregistered => exact announces_append rfl (by simp)
  | discard => exact announces_of_eq rfl
  | prune => exact announces_of_eq rfl
  | offer last c ids _ _ => exact announces_offer last _ c ids s
  | receive => exact announces_of_eq rfl
  | close => exact announces_of_eq rfl

/-- What every access of a call does beyond the protocol. -/
structure Conduct (call : CallId) (request : Request) (s s' : Shared) : Prop where
  history : ∃ events, s'.history = s.history ++ events ∧ ∀ e ∈ events, e.call = call
  others : Base s → Mine call.thread s request → Considerate call.thread s s'
  own : Base s → Modest call.thread request s s'
  began : Announces request s s'
  elsewhere : Elsewhere request s s'
  additions : Additions request s s'

theorem conduct_log (e : Event) (he : e.call = call)
    (hbegan : ∀ call' request', .began call' request' = e → request' = request) :
    Conduct call request s (s.log [e]) :=
  ⟨⟨[e], rfl, by simpa using he⟩, fun _ _ => considerate_of_eq rfl rfl,
    fun _ => modest_of_eq rfl rfl, announces_append rfl (by simpa using hbegan),
    fun _ _ _ _ => rfl, additions_of_onlyCut fun _ => .of_eq rfl⟩

theorem conduct_serve (order : HashOrder) :
    (serve config call order request).Always (Conduct call request) := by
  refine always_serve order (fun s => conduct_log _ rfl (by simp)) (fun s s' h => ?_)
    (fun _ s => conduct_log _ rfl (by simp))
  obtain ⟨events, hh, hevents⟩ := (progresses_of_access h).history
  exact ⟨⟨events, hh, fun e he => (hevents e he).1⟩,
    fun hB hmine => considerate_of_access h hB hmine, fun hB => modest_of_access h hB,
    announces_of_access h, fun _ hsolely _ hne => lookup_of_access h hsolely hne,
    additions_of_access h⟩

theorem permitted_all (t : ℕ) (request : Request) :
    Permitted (fun _ _ => True) (fun _ => False) t request := by
  cases request <;> simp [Permitted]

/-- A call of a thread that only names its own connections. -/
theorem sat_calling (order : HashOrder) (hmine : Mine t s request) (hs : Unspent t n s) :
    (serve config ⟨t, n⟩ order request).Sat (calling config t request)
      (fun _ s' => Unspent t (n + 1) s') s := by
  have hserve : (serve config ⟨t, n⟩ order request).Sat
      (contract config (fun _ _ => True) (fun _ => False) ⟨t, n⟩)
      (fun _ s' => ∃ own, Ready ⟨t, n⟩ own s') s :=
    sat_serve_ready (permitted_all t request) hs.ready
  refine Prog.sat_mono (Prog.sat_narrow hserve (conduct_serve order)
    (P := fun s => Mine t s request ∧ ∀ e ∈ s.history, e.call.thread = t → e.call.serial ≤ n)
    (fun _ h => h) ?_ ?_ ?_ ⟨hmine, fun e he ht => Nat.le_of_lt (hs.serial e he ht)⟩) ?_
  · rintro s s' ⟨hi, hi', u, hu, hg, _⟩
    exact ⟨hi, hi', u, hu, hg⟩
  · rintro s s' _ _ ⟨u, hu, hg, _⟩ ⟨hmine, hserial⟩
    obtain ⟨events, hh, hthread, _⟩ := hg.history
    refine ⟨hmine.mono hh, fun e he ht => ?_⟩
    rw [hh] at he
    rcases List.mem_append.mp he with he | he
    · exact hserial e he ht
    · exact absurd ((hthread e he).symm.trans ht) hu
  · rintro s s' hi ⟨hmine, hserial⟩ hi' hg hconduct
    obtain ⟨events, hh, hevents⟩ := hconduct.history
    refine ⟨hi', ⟨hg, hconduct.others hi.base hmine, hconduct.own hi.base, hconduct.began,
      hconduct.elsewhere, hconduct.additions⟩, hmine.mono hh, fun e he ht => ?_⟩
    rw [hh] at he
    rcases List.mem_append.mp he with he | he
    · exact hserial e he ht
    · rw [hevents e he]
  · rintro _ s' _ ⟨⟨_, hserial⟩, own, hready⟩
    exact ⟨hready.lock, fun e he ht => Nat.lt_succ_of_le (hserial e he ht)⟩

end Calls
end KafkaEdgeRouter.Router
