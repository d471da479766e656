import KafkaEdgeRouter.RouterCalls
import KafkaEdgeRouter.WebhookRuntime

/-!
# Construction of the durable webhook runtime

While the runtime is built nobody else uses the router, so what the calls for one destination do can
be told exactly: they enroll a connection and add its subscription. A finished runtime has a station
for every destination, a connection with an open and empty queue that is indexed under the route key
of the filter and under no other, and the table of the sink lists the stations by that key.
-/

namespace KafkaEdgeRouter.Router

open InvertedIndex

section Alone

variable {config : RouterConfig} {call : CallId} {s : Shared} {α : Type} {Q : α → Shared → Prop}

theorem alone_ret {a : α} (h : Q a s) : (Prog.ret a : RouterProg α).Sat Contract.alone Q s :=
  Prog.sat_ret (Contract.stable_alone _) h

theorem alone_withMutationLock {body : RouterProg α} {events : α → List Event}
    (h : body.Sat Contract.alone
      (fun a s' => Q a (({ s' with mutationLock := none } : Shared).log (events a)))
      { s with mutationLock := some call.thread }) :
    (withMutationLock call body events).Sat Contract.alone Q s := by
  refine Prog.sat_alone (fun _ _ => Prog.sat_bind trivial (Prog.sat_mono h ?_))
  intro a s' _ hQ
  exact Prog.sat_alone (fun _ _ => alone_ret hQ)

/-- A connection has been added and nothing else has changed for any connection. -/
structure Enrolled (c : ConnectionId) (connection : ConnectionState) (channel : Channel Delivery)
    (s s' : Shared) : Prop where
  new : c ∉ s.channels
  connections : s'.connections = s.connections.insert c connection
  channels : s'.channels = s.channels.insert c channel
  routes : s'.routes = s.routes

theorem alone_registerConnection (tenantId : String) (protocol : DeliveryProtocol) (capacity : ℕ) :
    (registerConnection config call tenantId protocol (some capacity)).Sat Contract.alone
      (fun result s' => ∀ c, result = .ok c → 0 < capacity ∧
        Enrolled c ⟨⟨tenantId, protocol, ∅⟩, 0⟩ (.new capacity) s s') s := by
  unfold registerConnection
  split
  · exact alone_ret (fun c h => by cases h)
  dsimp only [Option.getD_some]
  split_ifs with hcapacity
  · exact alone_ret (fun c h => by cases h)
  apply alone_withMutationLock
  refine Prog.sat_alone (fun _ _ => Prog.sat_alone (fun _ _ => ?_))
  split_ifs
  · exact Prog.sat_alone (fun _ _ => alone_ret (fun c h => by cases h))
  · refine Prog.sat_alone (fun id hid => Prog.sat_alone (fun _ _ => alone_ret ?_))
    intro c h
    cases h
    exact ⟨by omega, of_decide_eq_true hid, rfl, rfl, rfl⟩

theorem Enrolled.same {s s' : Shared} {c c' : ConnectionId} {connection : ConnectionState}
    {channel : Channel Delivery} (he : Enrolled c connection channel s s') (hne : c' ≠ c) :
    Same c' s s' := by
  refine ⟨?_, ?_, fun k => ?_⟩
  · rw [he.connections, AList.lookup_insert_ne hne]
  · rw [he.channels, AList.lookup_insert_ne hne]
  · rw [he.routes]

/-- A subscription has been added to a connection. -/
structure Extended (c : ConnectionId) (sid : SubscriptionId) (filter : RouteFilter)
    (s s' : Shared) : Prop where
  valid : filter.validate = .ok ()
  connections : ∀ c' ∈ s.connections, c' ∈ s'.connections
  channels : s'.channels = s.channels
  routes : s'.routes = s.routes.push (RouteKey.ofFilter filter) c sid

theorem insertSubscription_keeps (config : RouterConfig) (c : ConnectionId) (sid : SubscriptionId)
    (filter : RouteFilter) (s : Shared) :
    (∀ c' ∈ s.connections, c' ∈ (insertSubscription config c sid filter s).2.connections) ∧
      (insertSubscription config c sid filter s).2.channels = s.channels ∧
      (insertSubscription config c sid filter s).2.routes = s.routes := by
  unfold insertSubscription
  split
  · exact ⟨fun _ h => h, rfl, rfl⟩
  · split_ifs
    · exact ⟨fun _ h => h, rfl, rfl⟩
    · exact ⟨fun _ h => h, rfl, rfl⟩
    · exact ⟨fun _ h => h, rfl, rfl⟩
    · exact ⟨fun _ h => (AList.mem_modify ..).mpr h, rfl, rfl⟩

theorem alone_subscribe (c : ConnectionId) (sid : SubscriptionId) (filter : RouteFilter) :
    (subscribe config call c sid filter).Sat Contract.alone
      (fun result s' => result = .ok () → Extended c sid filter s s') s := by
  unfold subscribe
  split
  · exact alone_ret (fun h => by cases h)
  rename_i hvalid
  apply alone_withMutationLock
  refine Prog.sat_alone (fun _ _ => ?_)
  dsimp only
  cases s.connections.lookup c with
  | none => exact alone_ret (fun h => by cases h)
  | some connection =>
    refine Prog.sat_alone (fun _ _ => Prog.sat_alone (fun _ _ => ?_))
    split_ifs
    · exact Prog.sat_alone (fun _ _ => alone_ret (fun h => by cases h))
    refine Prog.sat_alone (fun _ _ => ?_)
    have hkept := insertSubscription_keeps config c sid filter
      { s with mutationLock := some call.thread }
    dsimp only
    cases (insertSubscription config c sid filter
      { s with mutationLock := some call.thread }).1 with
    | error e => exact alone_ret (fun h => by cases h)
    | ok protocol =>
      refine Prog.sat_alone (fun _ _ => Prog.sat_alone (fun _ _ => alone_ret ?_))
      intro _
      refine ⟨hvalid, hkept.1, hkept.2.1, ?_⟩
      exact congrArg (fun r : Routes => r.push (RouteKey.ofFilter filter) c sid) hkept.2.2

theorem alone_serve {order : HashOrder} {request : Request} {Q : Response → Shared → Prop}
    (h : (perform config call order request).Sat Contract.alone
      (fun response s' => Q response (s'.log [.returned call response]))
      (s.log [.began call request])) :
    (serve config call order request).Sat Contract.alone Q s := by
  refine Prog.sat_alone (fun _ _ => Prog.sat_bind trivial (Prog.sat_mono h ?_))
  intro response s' _ hQ
  exact Prog.sat_alone (fun _ _ => alone_ret hQ)

theorem alone_register {order : HashOrder} (tenantId : String) (protocol : DeliveryProtocol)
    (capacity : ℕ) :
    (serve config call order (.register tenantId protocol (some capacity))).Sat Contract.alone
      (fun response s' => ∀ c, response = .registered (.ok c) → 0 < capacity ∧
        Enrolled c ⟨⟨tenantId, protocol, ∅⟩, 0⟩ (.new capacity) s s') s := by
  apply alone_serve
  refine Prog.sat_bind trivial (Prog.sat_mono
    (alone_registerConnection tenantId protocol capacity) ?_)
  intro result s' _ h
  refine alone_ret (fun c hc => ?_)
  cases hc
  obtain ⟨hcapacity, hnew, hconnections, hchannels, hroutes⟩ := h c rfl
  exact ⟨hcapacity, hnew, hconnections, hchannels, hroutes⟩

theorem alone_addSubscription {order : HashOrder} (c : ConnectionId) (sid : SubscriptionId)
    (filter : RouteFilter) :
    (serve config call order (.subscribe c sid filter)).Sat Contract.alone
      (fun response s' => response = .settled (.ok ()) → Extended c sid filter s s') s := by
  apply alone_serve
  refine Prog.sat_bind trivial (Prog.sat_mono (alone_subscribe c sid filter) ?_)
  intro result s' _ h
  refine alone_ret (fun hc => ?_)
  cases hc
  obtain ⟨hvalid, hconnections, hchannels, hroutes⟩ := h rfl
  exact ⟨hvalid, hconnections, hchannels, hroutes⟩

theorem Base.items_eq_nil (hB : Base s) {c : ConnectionId} (hc : c ∉ s.channels) (k : RouteKey) :
    items s.routes k c = [] := by
  rw [List.eq_nil_iff_forall_not_mem]
  intro sid hmem
  obtain ⟨call, filter, _, _, hstanding⟩ := hB.live k c sid hmem
  obtain ⟨before, after, heq, _, _, registrar, hregistered⟩ := hB.justified.of_mem hstanding.mem
  apply hc
  apply hB.channel_of_registered registrar c filter.tenantId
  rw [heq]
  exact List.mem_append_left _ hregistered

end Alone

theorem Guarantee.congr {touches touches' : ℕ → ConnectionId → Prop} {t : ℕ} {s s' : Shared}
    (h : Guarantee touches t s s') (htouches : ∀ c, touches t c → touches' t c) :
    Guarantee touches' t s s' :=
  ⟨h.lock, h.registry, h.history, h.channels,
    fun c hc => h.untouched c (fun htouch => hc (htouches c htouch))⟩

end KafkaEdgeRouter.Router

namespace KafkaEdgeRouter.Webhook

open Router InvertedIndex
open Ingest (Host)

/-! ### What the runtime and the transports owe each other -/

/-- The transports, who have the odd numbers, leave the connections of the runtime alone. -/
def reaches (ids : List ConnectionId) (t : ℕ) (c : ConnectionId) : Prop := t % 2 = 0 ∨ c ∉ ids

/-- During one call of the runtime, it alone reaches its connections. -/
def solely (ids : List ConnectionId) (t u : ℕ) (c : ConnectionId) : Prop := u = t ∨ c ∉ ids

/-- The runtime has not made the calls from this one on. -/
def Unused (serial : ℕ) (s : Shared) : Prop :=
  ∀ m, serial ≤ m → s.mutationLock ≠ some (2 * m) ∧ ∀ e ∈ s.history, e.call.thread ≠ 2 * m

theorem Unused.mono {serial serial' : ℕ} {s : Shared} (h : Unused serial s)
    (hle : serial ≤ serial') : Unused serial' s :=
  fun m hm => h m (by omega)

theorem Unused.guarantee {serial t : ℕ} {touches : ℕ → ConnectionId → Prop} {s s' : Shared}
    (h : Unused serial s) (hg : Guarantee touches t s s') (ht : ∀ m, serial ≤ m → t ≠ 2 * m) :
    Unused serial s' :=
  fun m hm => hg.unused (ht m hm) (h m hm)

theorem Unused.ready {serial : ℕ} {s : Shared} (h : Unused serial s) :
    Ready ⟨2 * serial, 0⟩ [] s :=
  ready_of_fresh (show (protocol {} (fun _ _ => True) (fun _ => False)).fresh (2 * serial) s from
    h serial (Nat.le_refl _))

namespace WebhookRuntime

variable (R : WebhookRuntime)

/-- The runtime owns `ids`. Unless it is serving, nobody else is there. -/
def hostContract (ids : List ConnectionId) (serving : Bool) :
    Contract (Host DurableWebhookSink) where
  inv host := Router.Inv R.router (· ∈ ids) host.router
  interference host host' := serving = true ∧ host'.outside = host.outside ∧
    ∃ k, Guarantee (reaches ids) (2 * k + 1) host.router host'.router
  guarantee host host' :=
    (∃ m, Guarantee (reaches ids) (2 * m) host.router host'.router) ∧
      (serving = true → host'.outside.connectionIds = host.outside.connectionIds)

variable {R} {ids : List ConnectionId} {serving : Bool} {host : Host DurableWebhookSink}

theorem stable_quiet (P : Host DurableWebhookSink → Prop) : (R.hostContract ids false).Stable P :=
  fun _ _ _ _ h _ => by cases h.1

theorem stable_unused (serial : ℕ) :
    (R.hostContract ids serving).Stable (fun host => Unused serial host.router) := by
  rintro host host' _ _ ⟨_, _, k, hg⟩ h
  exact h.guarantee hg (fun m _ => by omega)

theorem sat_call {serial : ℕ} {request : Request} {D : Contract Shared} (hinv : ∀ s, D.inv s)
    (hdisturb : serving = true → ∀ s s', D.interference s s') {Q : Response → Shared → Prop}
    (hunused : Unused serial host.router)
    (h : (serve R.router ⟨2 * serial, 0⟩ (R.order serial) request).Sat
      ((contract R.router (solely ids (2 * serial)) (· ∈ ids) ⟨2 * serial, 0⟩).meet D) Q
      host.router) :
    (R.call serial request).Sat (R.hostContract ids serving)
      (fun response host' => (host'.outside = host.outside ∧ Unused (serial + 1) host'.router) ∧
        Q response host'.router) host := by
  refine Prog.sat_zoom (V := routerView) (P := fun host' : Host DurableWebhookSink =>
    host'.outside = host.outside ∧ Unused (serial + 1) host'.router) ?_ ?_ ?_ ?_
    ⟨rfl, hunused.mono (by omega)⟩ h
  · rintro host₁ host₂ hi hi' hd ⟨houtside, hunused₁⟩
    exact ⟨hd.2.1.trans houtside, stable_unused _ _ _ hi hi' hd hunused₁⟩
  · intro host₁ hi _
    exact ⟨hi, hinv _⟩
  · rintro host₁ host₂ hi hi' _ ⟨hserving, _, k, hg⟩
    refine Relation.ReflTransGen.single ⟨⟨hi, hinv _⟩, ⟨hi', hinv _⟩, ⟨2 * k + 1, ?_, ?_⟩, ?_⟩
    · simp only [ne_eq]
      omega
    · exact hg.congr (fun c hc => Or.inr (hc.resolve_left (by omega)))
    · exact hdisturb hserving _ _
  · rintro host₁ s hi ⟨houtside, hunused₁⟩ ⟨hs, _⟩ ⟨hg, _⟩
    have hg' : Guarantee (reaches ids) (2 * serial) host₁.router s :=
      Guarantee.congr hg (fun c _ => Or.inl (by omega))
    exact ⟨hs, ⟨⟨serial, hg'⟩, fun _ => rfl⟩, houtside,
      hunused₁.guarantee hg' (fun m hm => by omega)⟩

theorem sat_serve_quiet {serial : ℕ} (order : HashOrder) (request : Request) {s : Shared}
    (hunused : Unused serial s) :
    (serve R.router ⟨2 * serial, 0⟩ order request).Sat
      (contract R.router (solely [] (2 * serial)) (· ∈ []) ⟨2 * serial, 0⟩) (fun _ _ => True)
      s := by
  refine sat_serve ?_ hunused.ready
  cases request <;> simp [Permitted, solely]

theorem sat_call_alone {serial : ℕ} {request : Request} {Q : Response → Shared → Prop}
    (hunused : Unused serial host.router)
    (h : (serve R.router ⟨2 * serial, 0⟩ (R.order serial) request).Sat Contract.alone Q
      host.router) :
    (R.call serial request).Sat (R.hostContract [] false)
      (fun response host' => (host'.outside = host.outside ∧ Unused (serial + 1) host'.router) ∧
        Q response host'.router) host := by
  have hserve := Prog.sat_meet (sat_serve_quiet (R.order serial) request hunused) h
  refine Prog.sat_mono (sat_call (fun _ => trivial) (fun h => by cases h) hunused hserve) ?_
  intro response host' _ hpost
  exact ⟨hpost.1, hpost.2.2⟩

theorem sat_quiet {α β : Type} {e : SinkInput → Host DurableWebhookSink → Bool}
    {f : SinkInput → Host DurableWebhookSink → β × Host DurableWebhookSink} {k : β → SinkProg α}
    {Q : α → Host DurableWebhookSink → Prop} (hinv : Router.Inv R.router (· ∈ []) host.router)
    (hrouter : ∀ i, (f i host).2.router = host.router)
    (h : ∀ i, (k (f i host).1).Sat (R.hostContract [] false) Q (f i host).2) :
    (Prog.await e f >>= k).Sat (R.hostContract [] false) Q host := by
  refine Prog.sat_await (stable_quiet (fun host' => host' = host)) rfl ?_
  rintro i host' _ rfl _
  refine ⟨?_, ⟨⟨0, ?_⟩, fun h => by cases h⟩, h i⟩
  · change Router.Inv R.router (· ∈ []) (f i host').2.router
    rw [hrouter]
    exact hinv
  · rw [hrouter]
    exact guarantee_refl _ _

/-! ### A construction that fails -/

theorem sat_closeReceivers {P : Host DurableWebhookSink → Prop} (l : List ConnectionId)
    (hP : ∀ host c, P host → P { host with router :=
      { host.router with channels := host.router.channels.modify c Channel.close } })
    (h : P host) :
    (closeReceivers l).Sat (R.hostContract [] false) (fun _ host' => P host') host := by
  induction l generalizing host with
  | nil => exact Prog.sat_ret (stable_quiet _) h
  | cons c rest ih =>
    rw [closeReceivers, closeReceiver, Prog.modify, Prog.access, Prog.zoom_await]
    refine Prog.sat_await (stable_quiet P) h ?_
    intro i host' hinv' h' _
    have htouch : reaches [] (⟨2 * 0, 0⟩ : CallId).thread c := Or.inl rfl
    obtain ⟨hinv'', hg⟩ := channel_step (f := Channel.close) hinv' htouch
      (fun channel _ => Channel.log_close channel)
    exact ⟨hinv'', ⟨⟨0, hg⟩, fun h => by cases h⟩, ih (hP host' c h')⟩

theorem sat_unregisterAll (l : List ConnectionId) {serial : ℕ}
    (hinv : Router.Inv R.router (· ∈ []) host.router) (hunused : Unused serial host.router) :
    (R.unregisterAll serial l).Sat (R.hostContract [] false)
      (fun _ host' => ∃ serial', Unused serial' host'.router) host := by
  induction l generalizing host serial with
  | nil => exact Prog.sat_ret (stable_quiet _) ⟨serial, hunused⟩
  | cons c rest ih =>
    have hserve := Prog.sat_meet (sat_serve_quiet (R := R) (R.order serial) (.unregister c) hunused)
      (Prog.sat_free _ _)
    refine Prog.sat_bind hinv (Prog.sat_mono
      (sat_call (fun _ => trivial) (fun h => by cases h) hunused hserve) ?_)
    intro response host' hinv' hpost
    exact ih hinv' hpost.1.2

theorem sat_fail {serial : ℕ} (registration : List ConnectionId) (e : WebhookError)
    {P : ℕ → Host DurableWebhookSink → Prop} (hinv : Router.Inv R.router (· ∈ []) host.router)
    (hunused : Unused serial host.router) :
    (R.fail serial registration e).Sat (R.hostContract [] false)
      (fun result host' => ∀ n, result = .ok n → P n host') host := by
  have hclose : ∀ (serial : ℕ) (host : Host DurableWebhookSink) (c : ConnectionId),
      Unused serial host.router → Unused serial
        { host.router with channels := host.router.channels.modify c Channel.close } :=
    fun _ _ _ h => h
  refine Prog.sat_bind hinv (Prog.sat_mono
    (sat_closeReceivers registration (hclose serial) hunused) ?_)
  intro _ host₁ hinv₁ hunused₁
  refine sat_quiet hinv₁ (fun _ => rfl) (fun _ => ?_)
  refine Prog.sat_bind hinv₁ (Prog.sat_mono (sat_unregisterAll _ hinv₁ hunused₁) ?_)
  rintro _ host₂ hinv₂ ⟨serial', hunused₂⟩
  refine sat_quiet hinv₂ (fun _ => rfl) (fun _ => ?_)
  refine Prog.sat_bind hinv₂ (Prog.sat_mono
    (sat_closeReceivers _ (hclose serial') hunused₂) ?_)
  intro _ host₃ _ _
  refine Prog.sat_ret (stable_quiet _) (fun n h => ?_)
  cases h

end WebhookRuntime

/-! ### Stations -/

structure Station where
  destination : WebhookDestinationConfig
  connection : ConnectionId

def Station.route (st : Station) : RouteDestination := ⟨st.destination.id, st.connection⟩

def Station.key (st : Station) : RouteKey := RouteKey.ofFilter st.destination.filter

structure Stationed (st : Station) (queue : List Delivery) (s : Shared) : Prop where
  valid : st.destination.filter.validate = .ok ()
  registered : st.connection ∈ s.connections
  channel : ∃ channel, s.channels.lookup st.connection = some channel ∧ channel.queue = queue ∧
    channel.closed = false ∧ 0 < channel.capacity
  items : ∀ k, items s.routes k st.connection ≠ [] ↔ k = st.key

theorem Stationed.same {st : Station} {queue : List Delivery} {s s' : Shared}
    (h : Stationed st queue s) (hsame : Same st.connection s s') : Stationed st queue s' := by
  refine ⟨h.valid, ?_, ?_, fun k => ?_⟩
  · obtain ⟨connection, hlookup⟩ := AList.exists_lookup h.registered
    exact AList.mem_of_lookup (hsame.connection.trans hlookup)
  · rw [hsame.channel]
    exact h.channel
  · rw [hsame.items]
    exact h.items k

theorem Stationed.mem_channels {st : Station} {queue : List Delivery} {s : Shared}
    (h : Stationed st queue s) : st.connection ∈ s.channels := by
  obtain ⟨channel, hlookup, _⟩ := h.channel
  exact AList.mem_of_lookup hlookup

theorem Stationed.ne_enrolled {st : Station} {queue : List Delivery} {s s' : Shared}
    {c : ConnectionId} {connection : ConnectionState} {channel : Channel Delivery}
    (h : Stationed st queue s) (he : Enrolled c connection channel s s') : st.connection ≠ c :=
  fun heq => he.new (heq ▸ h.mem_channels)

theorem Stationed.extended {st : Station} {queue : List Delivery} {s s' : Shared}
    {c : ConnectionId} {sid : SubscriptionId} {filter : RouteFilter} (h : Stationed st queue s)
    (he : Extended c sid filter s s') (hne : st.connection ≠ c) : Stationed st queue s' := by
  refine ⟨h.valid, he.connections _ h.registered, ?_, fun k => ?_⟩
  · rw [he.channels]
    exact h.channel
  · rw [he.routes, items_push, if_neg (fun hk => hne hk.2)]
    exact h.items k

theorem stationed_new {destination : WebhookDestinationConfig} {capacity : ℕ} {c : ConnectionId}
    {connection : ConnectionState} {sid : SubscriptionId} {s s₁ s₂ : Shared} (hB : Base s)
    (hcapacity : 0 < capacity) (he : Enrolled c connection (.new capacity) s s₁)
    (hx : Extended c sid destination.filter s₁ s₂) : Stationed ⟨destination, c⟩ [] s₂ := by
  refine ⟨hx.valid, hx.connections c ?_, ⟨.new capacity, ?_, rfl, rfl, hcapacity⟩, fun k => ?_⟩
  · rw [he.connections]
    exact (AList.mem_insert _).mpr (Or.inl rfl)
  · rw [hx.channels, he.channels, AList.lookup_insert]
  · rw [hx.routes, items_push, he.routes]
    split_ifs with hk
    · exact iff_of_true (by simp) hk.1
    · rw [hB.items_eq_nil he.new]
      exact iff_of_false (fun h => h rfl) (fun heq => hk ⟨heq, rfl⟩)

/-- The stations as the sink knows them. -/
structure Arranged (sink : DurableWebhookSink) (stations : List Station) : Prop where
  connections : sink.connectionIds = stations.map Station.connection
  nodup : (stations.map Station.connection).Nodup
  routes : ∀ k, (sink.routes.lookup k).getD [] =
    (stations.filter (fun st => st.key = k)).map Station.route

theorem Arranged.add {sink : DurableWebhookSink} {stations : List Station}
    (h : Arranged sink stations) (st : Station)
    (hnew : ∀ st' ∈ stations, st'.connection ≠ st.connection) :
    Arranged ((sink.addConnection st.connection).addRoute st.key st.route) (stations ++ [st]) := by
  refine ⟨?_, ?_, fun k => ?_⟩
  · simp [DurableWebhookSink.addConnection, DurableWebhookSink.addRoute, h.connections]
  · rw [List.map_append, List.nodup_append]
    refine ⟨h.nodup, List.nodup_singleton _, ?_⟩
    rintro c hc c' hc' rfl
    obtain ⟨st', hst', rfl⟩ := List.mem_map.mp hc
    exact hnew st' hst' (by simpa using hc')
  · simp only [DurableWebhookSink.addRoute, DurableWebhookSink.addConnection]
    by_cases hk : k = st.key
    · subst k
      rw [AList.lookup_insert, Option.getD_some, h.routes]
      simp
    · rw [AList.lookup_insert_ne hk, h.routes, List.filter_append]
      simp [Ne.symm hk]

/-- Everything is in place for a station for each of the destinations. -/
structure Constructed (destinations : List WebhookDestinationConfig) (serial : ℕ)
    (host : Host DurableWebhookSink) : Prop where
  unused : Unused serial host.router
  stations : ∃ stations, stations.map Station.destination = destinations ∧
    Arranged host.outside stations ∧ ∀ st ∈ stations, Stationed st [] host.router

namespace WebhookRuntime

variable {R : WebhookRuntime} {host : Host DurableWebhookSink}

theorem sat_addDestinations (rest : List WebhookDestinationConfig) {serial : ℕ}
    {destinations : List WebhookDestinationConfig}
    (hinv : Router.Inv R.router (· ∈ []) host.router)
    (h : Constructed destinations serial host) :
    (R.addDestinations serial rest).Sat (R.hostContract [] false)
      (fun result host' => ∀ n, result = .ok n → Constructed (destinations ++ rest) n host')
      host := by
  induction rest generalizing host serial destinations with
  | nil =>
    refine Prog.sat_ret (stable_quiet _) (fun n hn => ?_)
    cases hn
    rwa [List.append_nil]
  | cons destination rest ih =>
    obtain ⟨hunused, stations, hdestinations, harranged, hstationed⟩ := h
    unfold addDestinations
    cases SubscriptionId.new (subscriptionName destination.id) with
    | error e => exact sat_fail _ _ hinv hunused
    | ok sid =>
      refine Prog.sat_bind hinv (Prog.sat_mono
        (sat_call_alone hunused (alone_register _ _ destination.queueCapacity)) ?_)
      rintro response host₁ hinv₁ ⟨⟨houtside₁, hunused₁⟩, hregistered⟩
      rcases response with ⟨e | c⟩ | _ | _ | _ | _ | _
      · exact sat_fail _ _ hinv₁ hunused₁
      · obtain ⟨hcapacity, henrolled⟩ := hregistered c rfl
        refine sat_quiet hinv₁ (fun _ => rfl) (fun _ => ?_)
        refine Prog.sat_bind hinv₁ (Prog.sat_mono
          (sat_call_alone hunused₁ (alone_addSubscription c sid destination.filter)) ?_)
        rintro response host₂ hinv₂ ⟨⟨houtside₂, hunused₂⟩, hsettled⟩
        rcases response with _ | ⟨e | _⟩ | _ | _ | _ | _
        case settled.ok =>
          have hextended := hsettled rfl
          refine sat_quiet hinv₂ (fun _ => rfl) (fun _ => ?_)
          refine sat_quiet hinv₂ (fun i => by cases i.reply <;> rfl) (fun i => ?_)
          cases i.reply with
          | failed error applied => exact sat_fail _ _ hinv₂ hunused₂
          | done =>
            have hassoc : destinations ++ destination :: rest =
                destinations ++ [destination] ++ rest := by simp
            rw [hassoc]
            refine ih hinv₂ ⟨hunused₂, stations ++ [⟨destination, c⟩], ?_, ?_, fun st hst => ?_⟩
            · rw [List.map_append, hdestinations]
              rfl
            · have hadd := harranged.add ⟨destination, c⟩
                (fun st hst => (hstationed st hst).ne_enrolled henrolled)
              rw [← houtside₁] at hadd
              change Arranged (host₂.outside.addRoute _ _) _
              rw [houtside₂]
              exact hadd
            · rcases List.mem_append.mp hst with hst | hst
              · have hne := (hstationed st hst).ne_enrolled henrolled
                exact ((hstationed st hst).same (henrolled.same hne)).extended hextended hne
              · rw [List.mem_singleton.mp hst]
                exact stationed_new hinv.base hcapacity henrolled hextended
        all_goals exact sat_fail _ _ hinv₂ hunused₂
      all_goals exact sat_fail _ _ hinv₁ hunused₁

/-- A runtime that could be built has a station for every destination. -/
theorem sat_buildDurableRuntime (hrouter : host.router = .new) (hroutes : host.outside.routes = ∅)
    (hconnections : host.outside.connectionIds = []) :
    (R.buildDurableRuntime 0).Sat (R.hostContract [] false)
      (fun result host' => ∀ n, result = .ok n → Constructed R.webhooks.destinations n host')
      host := by
  have hinv : Router.Inv R.router (· ∈ []) host.router := by
    rw [hrouter]
    exact ⟨base_new, fun _ => Registry.Reachable.new, by simp⟩
  have hconstructed : Constructed [] 0 host := by
    refine ⟨fun m _ => by simp [hrouter, Shared.new], [], rfl, ⟨?_, by simp, fun k => ?_⟩, by simp⟩
    · rw [hconnections]
      rfl
    · rw [hroutes]
      rfl
  refine sat_quiet hinv (fun i => by cases i.reply <;> rfl) (fun i => ?_)
  cases i.reply with
  | failed error applied => exact Prog.sat_ret (stable_quiet _) (fun n hn => by cases hn)
  | done => exact sat_addDestinations _ hinv hconstructed

end WebhookRuntime
end KafkaEdgeRouter.Webhook
