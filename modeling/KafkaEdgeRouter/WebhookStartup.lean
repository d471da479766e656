import KafkaEdgeRouter.RuntimeConstruction

/-!
# Start-up of the webhooks

`WebhookManager::new` builds a worker for each destination, in the volatile mode on its own and in
the durable mode as part of the runtime. Whatever fails, and wherever, the connections that were
registered up to then are given back. So a start-up that fails leaves the connections, the routes
and the gauges of the router as they were, and one that succeeds has added one connection with one
subscription for each destination and nothing else.
-/

namespace KafkaEdgeRouter

/-- The connections with their subscriptions, the routes and the gauges. -/
structure Active where
  connections : AList (fun _ : ConnectionId => ConnectionState)
  routes : Routes
  gauges : Gauges

def Shared.active (s : Shared) : Active := ⟨s.connections, s.routes, s.gauges⟩

namespace Router

open InvertedIndex

/-! ### What single calls do when nobody else is there -/

/-- A call has returned, with the lock free, and left `A` active. -/
structure Leaves (A : Active) (s : Shared) : Prop where
  free : s.mutationLock = none
  active : s.active = A

def Registers (tenantId : String) (protocol : DeliveryProtocol) (s : Shared) :
    Except CoreError ConnectionId → Shared → Prop
  | .ok c, s' => c ∉ s.channels ∧ Leaves
      ⟨s.connections.insert c ⟨⟨tenantId, protocol, ∅⟩, 0⟩, s.routes,
        s.gauges.recordProtocolOpened protocol⟩ s'
  | .error _, s' => Leaves s.active s'

def Subscribes (c : ConnectionId) (sid : SubscriptionId) (filter : RouteFilter) (s : Shared) :
    Except CoreError Unit → Shared → Prop
  | .ok _, s' => ∃ connection, s.connections.lookup c = some connection ∧ Leaves
      ⟨s.connections.modify c (fun connection =>
          { connection with subscriptions := connection.subscriptions.insert sid filter }),
        s.routes.push (RouteKey.ofFilter filter) c sid,
        s.gauges.recordSubscriptionAdded connection.protocol⟩ s'
  | .error _, s' => Leaves s.active s'

/-- What is left when a connection has been removed. -/
def released (order : IterOrder (SubscriptionId × RouteFilter)) (c : ConnectionId)
    (connection : ConnectionState) (s : Shared) : Active where
  connections := s.connections.erase c
  routes := Registry.removeRoutes c (order.arrange connection.subscriptions.pairs) s.routes
  gauges := s.gauges.recordProtocolClosed connection.protocol connection.subscriptions.size

section Alone

variable {config : RouterConfig} {call : CallId} {s : Shared} {order : HashOrder}

theorem alone_registers (hfree : s.mutationLock = none) (tenantId : String)
    (protocol : DeliveryProtocol) (capacity : ℕ) :
    (serve config call order (.register tenantId protocol (some capacity))).Sat Contract.alone
      (fun response s' => ∃ result, response = .registered result ∧
        Registers tenantId protocol s result s') s := by
  apply alone_serve
  refine Prog.sat_bind trivial (Prog.sat_mono (Q := Registers tenantId protocol s) ?_ ?_)
  · unfold registerConnection
    split
    · exact alone_ret ⟨hfree, rfl⟩
    dsimp only [Option.getD_some]
    split_ifs
    · exact alone_ret ⟨hfree, rfl⟩
    apply alone_withMutationLock
    refine Prog.sat_alone (fun _ _ => Prog.sat_alone (fun _ _ => ?_))
    split_ifs
    · exact Prog.sat_alone (fun _ _ => alone_ret ⟨rfl, rfl⟩)
    · refine Prog.sat_alone (fun id hid => Prog.sat_alone (fun _ _ => alone_ret ?_))
      exact ⟨of_decide_eq_true hid, rfl, rfl⟩
  · rintro (e | c) s' _ h
    · exact alone_ret ⟨_, rfl, h.free, h.active⟩
    · exact alone_ret ⟨_, rfl, h.1, h.2.free, h.2.active⟩

theorem alone_subscribes (hfree : s.mutationLock = none) (c : ConnectionId) (sid : SubscriptionId)
    (filter : RouteFilter) :
    (serve config call order (.subscribe c sid filter)).Sat Contract.alone
      (fun response s' => ∃ result, response = .settled result ∧
        Subscribes c sid filter s result s') s := by
  apply alone_serve
  refine Prog.sat_bind trivial (Prog.sat_mono (Q := Subscribes c sid filter s) ?_ ?_)
  · unfold subscribe
    split
    · exact alone_ret ⟨hfree, rfl⟩
    apply alone_withMutationLock
    refine Prog.sat_alone (fun _ _ => ?_)
    dsimp only
    cases hl : s.connections.lookup c with
    | none =>
      simp only [Shared.log, hl]
      exact alone_ret ⟨rfl, rfl⟩
    | some connection =>
      simp only [Shared.log, hl]
      refine Prog.sat_alone (fun _ _ => Prog.sat_alone (fun _ _ => ?_))
      split_ifs
      · exact Prog.sat_alone (fun _ _ => alone_ret ⟨rfl, rfl⟩)
      refine Prog.sat_alone (fun _ _ => ?_)
      have hr : ({ s.log [.began call (.subscribe c sid filter)] with
          mutationLock := some call.thread } : Shared).registry.connections.lookup c =
          some connection.toRegistration := by
        rw [registry_lookup]
        exact congrArg (Option.map ConnectionState.toRegistration) hl
      obtain ⟨_, heq⟩ | ⟨_, heq⟩ | ⟨_, heq⟩ | ⟨_, _, _, heq⟩ :=
        insertSubscription_cases config sid filter hr
      · exact heq ▸ alone_ret ⟨rfl, rfl⟩
      · exact heq ▸ alone_ret ⟨rfl, rfl⟩
      · exact heq ▸ alone_ret ⟨rfl, rfl⟩
      · simp only [Shared.log] at heq
        rw [heq]
        refine Prog.sat_alone (fun _ _ => Prog.sat_alone (fun _ _ => alone_ret ?_))
        exact ⟨connection, hl, rfl, rfl⟩
  · rintro (e | _) s' _ h
    · exact alone_ret ⟨_, rfl, h.free, h.active⟩
    · obtain ⟨connection, hl, h⟩ := h
      exact alone_ret ⟨_, rfl, connection, hl, h.free, h.active⟩

theorem alone_removeAllFromRoutes {α : Type} {Q : α → Shared → Prop} (c : ConnectionId)
    (l : List (SubscriptionId × RouteFilter)) {k : Unit → RouterProg α}
    (h : (k ()).Sat Contract.alone Q { s with routes := Registry.removeRoutes c l s.routes }) :
    (removeAllFromRoutes c l >>= k).Sat Contract.alone Q s := by
  induction l generalizing s with
  | nil => exact h
  | cons e l ih =>
    rw [removeAllFromRoutes, Prog.bind_assoc, removeFromRoute, Prog.bind_assoc]
    exact Prog.sat_alone (fun _ _ => Prog.sat_alone (fun _ _ => ih h))

theorem alone_unregisters {c : ConnectionId} {connection : ConnectionState}
    (hl : s.connections.lookup c = some connection) :
    (serve config call order (.unregister c)).Sat Contract.alone
      (fun _ s' => Leaves (released (order.subscriptions c) c connection s) s') s := by
  apply alone_serve
  refine Prog.sat_bind trivial (Prog.sat_mono
    (Q := fun _ s' => Leaves (released (order.subscriptions c) c connection s) s') ?_ ?_)
  · apply alone_withMutationLock
    refine Prog.sat_alone (fun _ _ => ?_)
    have htake : takeConnection c { s.log [.began call (.unregister c)] with
        mutationLock := some call.thread } = (some connection.toRegistration,
          { s.log [.began call (.unregister c)] with
            mutationLock := some call.thread
            connections := s.connections.erase c }) := by
      unfold takeConnection
      dsimp only [Shared.log]
      rw [hl]
    rw [htake]
    refine alone_removeAllFromRoutes c _ (Prog.sat_alone (fun _ _ => alone_ret ⟨rfl, rfl⟩))
  · intro _ s' _ h
    exact alone_ret ⟨h.free, h.active⟩

end Alone
end Router

namespace Webhook

open Router InvertedIndex
open Ingest (Host)

/-! ### What has been added -/

structure Addition where
  connection : ConnectionId
  tenantId : String
  subscription : Option (SubscriptionId × RouteFilter)

namespace Addition

def subscriptions (a : Addition) : Subscriptions :=
  match a.subscription with
  | none => ∅
  | some (sid, filter) => (∅ : Subscriptions).insert sid filter

def state (a : Addition) : ConnectionState := ⟨⟨a.tenantId, .httpWebhook, a.subscriptions⟩, 0⟩

def items (a : Addition) (k : RouteKey) : List SubscriptionId :=
  match a.subscription with
  | none => []
  | some (sid, filter) => if k = RouteKey.ofFilter filter then [sid] else []

def size (a : Addition) : ℕ := if a.subscription.isSome then 1 else 0

theorem subscriptions_size (a : Addition) : a.subscriptions.size = a.size := by
  obtain ⟨c, tenantId, _ | ⟨sid, filter⟩⟩ := a
  · rfl
  · exact AList.size_insert (AList.notMem_empty sid) filter

theorem items_removeRoutes (a : Addition) (order : IterOrder (SubscriptionId × RouteFilter))
    {routes : Routes} (h : ∀ k, InvertedIndex.items routes k a.connection = a.items k)
    (k : RouteKey) :
    InvertedIndex.items (Registry.removeRoutes a.connection
      (order.arrange a.subscriptions.pairs) routes) k a.connection = [] := by
  have hperm := order.perm a.subscriptions.pairs
  obtain ⟨c, tenantId, _ | ⟨sid, filter⟩⟩ := a
  · rw [List.perm_nil.mp hperm]
    exact h k
  · rw [List.perm_singleton.mp hperm]
    change InvertedIndex.items (Registry.removeRoute c sid filter routes) k c = []
    rw [Registry.items_removeRoute, h k]
    by_cases hk : k = RouteKey.ofFilter filter
    · simp [items, hk]
    · simp [items, hk]

end Addition

theorem items_removeRoutes_ne {c c' : ConnectionId} (hne : c' ≠ c)
    (l : List (SubscriptionId × RouteFilter)) (routes : Routes) (k : RouteKey) :
    items (Registry.removeRoutes c l routes) k c' = items routes k c' := by
  refine Registry.removeRoutes_induction
    (P := fun routes' => items routes' k c' = items routes k c') c (fun sid filter routes' h => ?_)
    l rfl
  rw [Registry.items_removeRoute, if_neg (fun hk => hne hk.2)]
  exact h

def enlarge (connections subscriptions : ℕ) (g : Gauges) : Gauges where
  activeConnections := Function.update g.activeConnections .httpWebhook
    (g.activeConnections .httpWebhook + connections)
  activeSubscriptions := Function.update g.activeSubscriptions .httpWebhook
    (g.activeSubscriptions .httpWebhook + subscriptions)

theorem enlarge_zero (g : Gauges) : enlarge 0 0 g = g := by simp [enlarge]

theorem recordProtocolOpened_enlarge (n m : ℕ) (g : Gauges) :
    (enlarge n m g).recordProtocolOpened .httpWebhook = enlarge (n + 1) m g := by
  simp [enlarge, Gauges.recordProtocolOpened, Nat.add_assoc]

theorem recordSubscriptionAdded_enlarge (n m : ℕ) (g : Gauges) :
    (enlarge n m g).recordSubscriptionAdded .httpWebhook = enlarge n (m + 1) g := by
  simp [enlarge, Gauges.recordSubscriptionAdded, Nat.add_assoc]

theorem recordProtocolClosed_enlarge (n m l : ℕ) (g : Gauges) :
    (enlarge (n + 1) (m + l) g).recordProtocolClosed .httpWebhook l = enlarge n m g := by
  simp [enlarge, Gauges.recordProtocolClosed, ← Nat.add_assoc]

/-- The additions are new and all that has changed from `A` to `A'`. -/
structure Enlarged (A : Active) (added : List Addition) (A' : Active) : Prop where
  new : ∀ a ∈ added, A.connections.lookup a.connection = none ∧
    ∀ k, items A.routes k a.connection = []
  nodup : (added.map Addition.connection).Nodup
  others : ∀ c ∉ added.map Addition.connection,
    A'.connections.lookup c = A.connections.lookup c ∧
      ∀ k, items A'.routes k c = items A.routes k c
  present : ∀ a ∈ added, A'.connections.lookup a.connection = some a.state ∧
    ∀ k, items A'.routes k a.connection = a.items k
  gauges : A'.gauges = enlarge added.length (added.map Addition.size).sum A.gauges

namespace Enlarged

variable {A A' : Active} {added before after : List Addition} {c : ConnectionId}

theorem refl (A : Active) : Enlarged A [] A :=
  ⟨by simp, by simp, by simp, by simp, (enlarge_zero A.gauges).symm⟩

theorem enroll (h : Enlarged A added A') (hlookup : A'.connections.lookup c = none)
    (hitems : ∀ k, items A'.routes k c = []) (tenantId : String) :
    Enlarged A (added ++ [⟨c, tenantId, none⟩])
      ⟨A'.connections.insert c ⟨⟨tenantId, .httpWebhook, ∅⟩, 0⟩, A'.routes,
        A'.gauges.recordProtocolOpened .httpWebhook⟩ := by
  have hc : c ∉ added.map Addition.connection := by
    intro hmem
    obtain ⟨a, ha, rfl⟩ := List.mem_map.mp hmem
    rw [(h.present a ha).1] at hlookup
    cases hlookup
  obtain ⟨holdLookup, holdItems⟩ := h.others c hc
  refine ⟨fun a ha => ?_, ?_, fun c' hc' => ?_, fun a ha => ?_, ?_⟩
  · rcases List.mem_append.mp ha with ha | ha
    · exact h.new a ha
    · rw [List.mem_singleton.mp ha]
      exact ⟨holdLookup.symm.trans hlookup, fun k => (holdItems k).symm.trans (hitems k)⟩
  · rw [List.map_append, List.nodup_append_comm]
    exact List.nodup_cons.mpr ⟨hc, h.nodup⟩
  · simp only [List.map_append, List.mem_append, List.map_cons, List.map_nil,
      List.mem_singleton, not_or] at hc'
    rw [AList.lookup_insert_ne hc'.2]
    exact h.others c' hc'.1
  · rcases List.mem_append.mp ha with ha | ha
    · have hne : a.connection ≠ c := fun heq => hc (heq ▸ List.mem_map_of_mem ha)
      rw [AList.lookup_insert_ne hne]
      exact h.present a ha
    · rw [List.mem_singleton.mp ha]
      exact ⟨AList.lookup_insert _, hitems⟩
  · dsimp only
    rw [h.gauges, recordProtocolOpened_enlarge, List.length_append, List.map_append,
      List.sum_append]
    rfl

theorem attach {tenantId : String} (h : Enlarged A (added ++ [⟨c, tenantId, none⟩]) A')
    (sid : SubscriptionId) (filter : RouteFilter) :
    Enlarged A (added ++ [⟨c, tenantId, some (sid, filter)⟩])
      ⟨A'.connections.modify c (fun connection =>
          { connection with subscriptions := connection.subscriptions.insert sid filter }),
        A'.routes.push (RouteKey.ofFilter filter) c sid,
        A'.gauges.recordSubscriptionAdded .httpWebhook⟩ := by
  have hids : List.map Addition.connection (added ++ [⟨c, tenantId, some (sid, filter)⟩]) =
      List.map Addition.connection (added ++ [⟨c, tenantId, none⟩]) := by simp
  have hnodup := h.nodup
  rw [List.map_append, List.nodup_append_comm] at hnodup
  have hc : c ∉ added.map Addition.connection := (List.nodup_cons.mp hnodup).1
  have hlast : (⟨c, tenantId, none⟩ : Addition) ∈ added ++ [⟨c, tenantId, none⟩] := by simp
  refine ⟨fun a ha => ?_, hids ▸ h.nodup, fun c' hc' => ?_, fun a ha => ?_, ?_⟩
  · rcases List.mem_append.mp ha with ha | ha
    · exact h.new a (List.mem_append_left _ ha)
    · rw [List.mem_singleton.mp ha]
      exact h.new ⟨c, tenantId, none⟩ hlast
  · rw [hids] at hc'
    have hne : c' ≠ c := by
      rintro rfl
      exact hc' (List.mem_map_of_mem hlast)
    obtain ⟨hlookup, hitems⟩ := h.others c' hc'
    refine ⟨(AList.lookup_modify_ne hne _ _).trans hlookup, fun k => ?_⟩
    rw [items_push, if_neg (fun hk => hne hk.2)]
    exact hitems k
  · rcases List.mem_append.mp ha with ha | ha
    · have hne : a.connection ≠ c := fun heq => hc (heq ▸ List.mem_map_of_mem ha)
      obtain ⟨hlookup, hitems⟩ := h.present a (List.mem_append_left _ ha)
      refine ⟨(AList.lookup_modify_ne hne _ _).trans hlookup, fun k => ?_⟩
      rw [items_push, if_neg (fun hk => hne hk.2)]
      exact hitems k
    · obtain ⟨hlookup, hitems⟩ := h.present _ hlast
      rw [List.mem_singleton.mp ha]
      refine ⟨?_, fun k => ?_⟩
      · dsimp only
        rw [AList.lookup_modify_self, hlookup]
        rfl
      · dsimp only
        rw [items_push, hitems, hitems]
        by_cases hk : k = RouteKey.ofFilter filter
        · simp [Addition.items, hk]
        · simp [Addition.items, hk]
  · dsimp only
    rw [h.gauges, recordSubscriptionAdded_enlarge]
    simp [Addition.size]

theorem release {a : Addition} (h : Enlarged A (before ++ a :: after) A')
    (order : IterOrder (SubscriptionId × RouteFilter)) :
    Enlarged A (before ++ after)
      ⟨A'.connections.erase a.connection, Registry.removeRoutes a.connection
          (order.arrange a.subscriptions.pairs) A'.routes,
        A'.gauges.recordProtocolClosed .httpWebhook a.subscriptions.size⟩ := by
  have hmem : ∀ b ∈ before ++ after, b ∈ before ++ a :: after := by
    intro b hb
    simp only [List.mem_append, List.mem_cons] at hb ⊢
    exact hb.imp_right Or.inr
  have hself : a ∈ before ++ a :: after := by simp
  have hnodup := h.nodup
  rw [List.map_append, List.map_cons, List.nodup_middle, ← List.map_append,
    List.nodup_cons] at hnodup
  refine ⟨fun b hb => h.new b (hmem b hb), hnodup.2, fun c hc => ?_, fun b hb => ?_, ?_⟩
  · by_cases heq : c = a.connection
    · subst c
      obtain ⟨hnew, hnone⟩ := h.new a hself
      refine ⟨(AList.lookup_erase ..).trans hnew.symm, fun k => ?_⟩
      rw [hnone]
      exact a.items_removeRoutes order (h.present a hself).2 k
    · have hc' : c ∉ (before ++ a :: after).map Addition.connection := by
        simp only [List.map_append, List.map_cons, List.mem_append, List.mem_cons] at hc ⊢
        tauto
      obtain ⟨hlookup, hitems⟩ := h.others c hc'
      exact ⟨(AList.lookup_erase_ne heq).trans hlookup,
        fun k => (items_removeRoutes_ne heq _ _ k).trans (hitems k)⟩
  · have hne : b.connection ≠ a.connection :=
      fun heq => hnodup.1 (heq ▸ List.mem_map_of_mem hb)
    obtain ⟨hlookup, hitems⟩ := h.present b (hmem b hb)
    exact ⟨(AList.lookup_erase_ne hne).trans hlookup,
      fun k => (items_removeRoutes_ne hne _ _ k).trans (hitems k)⟩
  · have hlength : (before ++ a :: after).length = (before ++ after).length + 1 := by
      simp [Nat.add_assoc]
    have hsum : ((before ++ a :: after).map Addition.size).sum =
        ((before ++ after).map Addition.size).sum + a.subscriptions.size := by
      simp only [List.map_append, List.map_cons, List.sum_append, List.sum_cons,
        a.subscriptions_size]
      omega
    dsimp only
    rw [h.gauges, hlength, hsum, recordProtocolClosed_enlarge]

end Enlarged

namespace WebhookRuntime

/-! ### The programs -/

section Programs

variable (R : WebhookRuntime)

/-- `WebhookWorker::new`, which makes three calls at most. A failure after the registration drops
the receiver. -/
def newWorker (serial : ℕ) (destination : WebhookDestinationConfig) :
    SinkProg (Except WebhookError ConnectionId) := do
  match ← creation with
  | some error => return .error (.destination error)
  | none =>
    match ← R.call serial (.register destination.filter.tenantId .httpWebhook
        (some destination.queueCapacity)) with
    | .registered (.ok c) =>
      match SubscriptionId.new (subscriptionName destination.id) with
      | .error e => do
        let _ ← R.call (serial + 1) (.unregister c)
        closeReceivers [c]
        return .error (.registration destination.id e.display)
      | .ok subscription =>
        match ← R.call (serial + 1) (.subscribe c subscription destination.filter) with
        | .settled (.ok ()) => return .ok c
        | .settled (.error e) => do
          let _ ← R.call (serial + 2) (.unregister c)
          closeReceivers [c]
          return .error (.registration destination.id e.display)
        | _ => return .error (.registration destination.id "")
    | .registered (.error e) => return .error (.registration destination.id e.display)
    | _ => return .error (.registration destination.id "")

/-- A volatile worker that is dropped removes its connection and then drops its receiver. -/
def dropWorkers (serial : ℕ) : List ConnectionId → SinkProg Unit
  | [] => return ()
  | c :: rest => do
    let _ ← R.call serial (.unregister c)
    closeReceivers [c]
    dropWorkers (serial + 1) rest

def newWorkers (serial : ℕ) (workers : List ConnectionId) :
    List WebhookDestinationConfig → SinkProg (Except String Unit)
  | [] => return .ok ()
  | destination :: rest => do
    match ← R.newWorker serial destination with
    | .ok c => newWorkers (serial + 3) (workers ++ [c]) rest
    | .error e => do
      R.dropWorkers (serial + 3) workers
      return .error e.display

/-- `WebhookManager::new` for an enabled configuration. -/
def newManager (serial : ℕ) : WebhookDeliveryMode → SinkProg (Except String Unit)
  | .volatile => R.newWorkers serial [] R.webhooks.destinations
  | .durable => do return (← R.buildDurableRuntime serial).map (fun _ => ())

end Programs

/-! ### Building and giving back -/

variable {R : WebhookRuntime} {host : Host DurableWebhookSink} {A : Active} {serial : ℕ}
  {added after : List Addition} {c : ConnectionId} {tenantId : String}

structure Started (A : Active) (added : List Addition) (serial : ℕ)
    (host : Host DurableWebhookSink) : Prop where
  unused : Unused serial host.router
  free : host.router.mutationLock = none
  enlarged : Enlarged A added host.router.active

theorem Started.outside (h : Started A added serial host) (outside : DurableWebhookSink) :
    Started A added serial { host with outside } :=
  ⟨h.unused, h.free, h.enlarged⟩

theorem Started.mono (h : Started A added serial host) {serial' : ℕ} (hle : serial ≤ serial') :
    Started A added serial' host :=
  ⟨h.unused.mono hle, h.free, h.enlarged⟩

theorem sat_register (hinv : Router.Inv R.router (· ∈ []) host.router)
    (h : Started A added serial host) (tenantId : String) (capacity : ℕ) :
    (R.call serial (.register tenantId .httpWebhook (some capacity))).Sat (R.hostContract [] false)
      (fun response host' => host'.outside = host.outside ∧
        ((∃ c, response = .registered (.ok c) ∧
            Started A (added ++ [⟨c, tenantId, none⟩]) (serial + 1) host') ∨
          ∃ e, response = .registered (.error e) ∧ Started A added (serial + 1) host'))
      host := by
  refine Prog.sat_mono (sat_call_alone h.unused (alone_registers h.free _ _ capacity)) ?_
  rintro _ host' _ ⟨⟨houtside, hunused⟩, e | c, rfl, heffect⟩
  · refine ⟨houtside, Or.inr ⟨e, rfl, hunused, heffect.free, ?_⟩⟩
    rw [heffect.active]
    exact h.enlarged
  · obtain ⟨hnew, hleaves⟩ := heffect
    refine ⟨houtside, Or.inl ⟨c, rfl, hunused, hleaves.free, ?_⟩⟩
    rw [hleaves.active]
    have hlookup : host.router.connections.lookup c = none :=
      AList.lookup_eq_none.mpr (fun hc => hnew (hinv.base.channel_of_connection c hc))
    exact h.enlarged.enroll hlookup (hinv.base.items_eq_nil hnew) tenantId

theorem sat_subscribe (h : Started A (added ++ [⟨c, tenantId, none⟩]) serial host)
    (sid : SubscriptionId) (filter : RouteFilter) :
    (R.call serial (.subscribe c sid filter)).Sat (R.hostContract [] false)
      (fun response host' => host'.outside = host.outside ∧
        ((response = .settled (.ok ()) ∧
            Started A (added ++ [⟨c, tenantId, some (sid, filter)⟩]) (serial + 1) host') ∨
          ∃ e, response = .settled (.error e) ∧
            Started A (added ++ [⟨c, tenantId, none⟩]) (serial + 1) host'))
      host := by
  refine Prog.sat_mono (sat_call_alone h.unused (alone_subscribes h.free c sid filter)) ?_
  rintro _ host' _ ⟨⟨houtside, hunused⟩, e | _, rfl, heffect⟩
  · refine ⟨houtside, Or.inr ⟨e, rfl, hunused, heffect.free, ?_⟩⟩
    rw [heffect.active]
    exact h.enlarged
  · obtain ⟨connection, hlookup, hleaves⟩ := heffect
    have hpresent := (h.enlarged.present ⟨c, tenantId, none⟩ (by simp)).1
    have hprotocol : connection.protocol = .httpWebhook := by
      rw [Option.some.inj (hlookup.symm.trans hpresent)]
      rfl
    refine ⟨houtside, Or.inl ⟨rfl, hunused, hleaves.free, ?_⟩⟩
    rw [hleaves.active, hprotocol]
    exact h.enlarged.attach sid filter

theorem sat_unregister (before : List Addition) {a : Addition}
    (h : Started A (before ++ a :: after) serial host) :
    (R.call serial (.unregister a.connection)).Sat (R.hostContract [] false)
      (fun _ host' => host'.outside = host.outside ∧
        Started A (before ++ after) (serial + 1) host') host := by
  have hpresent := (h.enlarged.present a (by simp)).1
  refine Prog.sat_mono (sat_call_alone h.unused (alone_unregisters hpresent)) ?_
  rintro _ host' _ ⟨⟨houtside, hunused⟩, hleaves⟩
  refine ⟨houtside, hunused, hleaves.free, ?_⟩
  rw [hleaves.active]
  exact h.enlarged.release _

theorem sat_closeReceivers_started (l : List ConnectionId) (h : Started A added serial host) :
    (closeReceivers l).Sat (R.hostContract [] false)
      (fun _ host' => host'.outside = host.outside ∧ Started A added serial host') host := by
  refine sat_closeReceivers (P := fun host' => host'.outside = host.outside ∧
    Started A added serial host') l (fun host' c h' => ?_) ⟨rfl, h⟩
  exact ⟨h'.1, h'.2.unused, h'.2.free, h'.2.enlarged⟩

theorem sat_unregisterAll_started (added : List Addition)
    (hinv : Router.Inv R.router (· ∈ []) host.router) (h : Started A added serial host) :
    (R.unregisterAll serial (added.map Addition.connection)).Sat (R.hostContract [] false)
      (fun _ host' => ∃ serial', Started A [] serial' host') host := by
  induction added generalizing host serial with
  | nil => exact Prog.sat_ret (stable_quiet _) ⟨serial, h⟩
  | cons a rest ih =>
    refine Prog.sat_bind hinv (Prog.sat_mono (sat_unregister [] h) ?_)
    intro _ host' hinv' h'
    exact ih hinv' h'.2

theorem sat_dropWorkers (added : List Addition)
    (hinv : Router.Inv R.router (· ∈ []) host.router) (h : Started A added serial host) :
    (R.dropWorkers serial (added.map Addition.connection)).Sat (R.hostContract [] false)
      (fun _ host' => ∃ serial', Started A [] serial' host') host := by
  induction added generalizing host serial with
  | nil => exact Prog.sat_ret (stable_quiet _) ⟨serial, h⟩
  | cons a rest ih =>
    refine Prog.sat_bind hinv (Prog.sat_mono (sat_unregister [] h) ?_)
    intro _ host₁ hinv₁ h₁
    refine Prog.sat_bind hinv₁ (Prog.sat_mono (sat_closeReceivers_started _ h₁.2) ?_)
    intro _ host₂ hinv₂ h₂
    exact ih hinv₂ h₂.2

def Serves (destination : WebhookDestinationConfig) (a : Addition) : Prop :=
  a.tenantId = destination.filter.tenantId ∧
    a.subscription = some (⟨subscriptionName destination.id⟩, destination.filter)

/-- A start-up ends with one addition for each destination, or with none and an error. -/
def Ended (A : Active) (destinations : List WebhookDestinationConfig) {α : Type}
    (result : Except String α) (host : Host DurableWebhookSink) : Prop :=
  (∃ e serial, result = .error e ∧ Started A [] serial host) ∨
    ∃ a serial added, result = .ok a ∧ List.Forall₂ Serves destinations added ∧
      Started A added serial host

theorem sat_fail_started (registration : List ConnectionId) (e : WebhookError)
    {destinations : List WebhookDestinationConfig}
    (hinv : Router.Inv R.router (· ∈ []) host.router) (h : Started A added serial host)
    (hids : host.outside.connectionIds = added.map Addition.connection) :
    (R.fail serial registration e).Sat (R.hostContract [] false) (Ended A destinations) host := by
  refine Prog.sat_bind hinv (Prog.sat_mono (sat_closeReceivers_started registration h) ?_)
  rintro _ host₁ hinv₁ ⟨houtside₁, h₁⟩
  refine sat_quiet hinv₁ (fun _ => rfl) (fun _ => ?_)
  dsimp only
  rw [houtside₁, hids]
  refine Prog.sat_bind hinv₁ (Prog.sat_mono (sat_unregisterAll_started added hinv₁ h₁) ?_)
  rintro _ host₂ hinv₂ ⟨serial', h₂⟩
  refine sat_quiet hinv₂ (fun _ => rfl) (fun _ => ?_)
  refine Prog.sat_bind hinv₂ (Prog.sat_mono (sat_closeReceivers_started _ h₂) ?_)
  rintro _ host₃ _ ⟨_, h₃⟩
  exact Prog.sat_ret (stable_quiet _) (Or.inl ⟨_, serial', rfl, h₃⟩)

theorem subscriptionId_eq {value : String} {sid : SubscriptionId}
    (h : SubscriptionId.new value = .ok sid) : sid = ⟨value⟩ := by
  unfold SubscriptionId.new at h
  cases hv : validateIdentifier "subscription_id" value 128 with
  | error e => simp [hv, bind, Except.bind] at h
  | ok _ =>
    simp only [hv, bind, Except.bind, pure, Except.pure, Except.ok.injEq] at h
    exact h.symm

theorem sat_addDestinations_started (rest : List WebhookDestinationConfig)
    {destinations : List WebhookDestinationConfig}
    (hinv : Router.Inv R.router (· ∈ []) host.router)
    (hserves : List.Forall₂ Serves destinations added) (h : Started A added serial host)
    (hids : host.outside.connectionIds = added.map Addition.connection) :
    (R.addDestinations serial rest).Sat (R.hostContract [] false)
      (Ended A (destinations ++ rest)) host := by
  induction rest generalizing host serial destinations added with
  | nil =>
    rw [List.append_nil]
    exact Prog.sat_ret (stable_quiet _) (Or.inr ⟨serial, serial, added, rfl, hserves, h⟩)
  | cons destination rest ih =>
    unfold addDestinations
    cases hsid : SubscriptionId.new (subscriptionName destination.id) with
    | error e => exact sat_fail_started _ _ hinv h hids
    | ok sid =>
      refine Prog.sat_bind hinv (Prog.sat_mono (sat_register hinv h _ _) ?_)
      rintro response host₁ hinv₁ ⟨houtside₁, ⟨c, rfl, h₁⟩ | ⟨e, rfl, h₁⟩⟩
      · refine sat_quiet hinv₁ (fun _ => rfl) (fun _ => ?_)
        refine Prog.sat_bind hinv₁ (Prog.sat_mono
          (sat_subscribe (h₁.outside (host₁.outside.addConnection c)) sid destination.filter) ?_)
        rintro response host₂ hinv₂ ⟨houtside₂, hsettled⟩
        have hids₂ : ∀ subscription, host₂.outside.connectionIds = List.map Addition.connection
            (added ++ [⟨c, destination.filter.tenantId, subscription⟩]) := by
          intro subscription
          simp [houtside₂, DurableWebhookSink.addConnection, houtside₁, hids]
        rcases hsettled with ⟨rfl, h₂⟩ | ⟨e, rfl, h₂⟩
        · refine sat_quiet hinv₂ (fun _ => rfl) (fun _ => ?_)
          refine sat_quiet hinv₂ (fun i => by cases i.reply <;> rfl) (fun i => ?_)
          have h₃ := h₂.outside (host₂.outside.addRoute
            (RouteKey.ofFilter destination.filter) ⟨destination.id, c⟩)
          cases i.reply with
          | failed error applied => exact sat_fail_started _ _ hinv₂ h₃ (hids₂ _)
          | done =>
            have hassoc : destinations ++ destination :: rest =
                destinations ++ [destination] ++ rest := by simp
            rw [hassoc]
            refine ih hinv₂ (List.rel_append hserves (.cons ⟨rfl, ?_⟩ .nil)) h₃ (hids₂ _)
            rw [subscriptionId_eq hsid]
        · exact sat_fail_started _ _ hinv₂ h₂ (hids₂ _)
      · refine sat_fail_started _ _ hinv₁ h₁ ?_
        rw [houtside₁, hids]

/-- A worker that could not be built has left nothing behind. -/
theorem sat_newWorker (destination : WebhookDestinationConfig)
    (hinv : Router.Inv R.router (· ∈ []) host.router) (h : Started A added serial host) :
    (R.newWorker serial destination).Sat (R.hostContract [] false)
      (fun result host' => (∃ e, result = .error e ∧ Started A added (serial + 3) host') ∨
        ∃ a, result = .ok a.connection ∧ Serves destination a ∧
          Started A (added ++ [a]) (serial + 3) host') host := by
  refine sat_quiet hinv (fun i => by cases i.reply <;> rfl) (fun i => ?_)
  cases i.reply with
  | failed error applied =>
    exact Prog.sat_ret (stable_quiet _) (Or.inl ⟨_, rfl, h.mono (by omega)⟩)
  | done =>
    refine Prog.sat_bind hinv (Prog.sat_mono (sat_register hinv h _ _) ?_)
    rintro response host₁ hinv₁ ⟨_, ⟨c, rfl, h₁⟩ | ⟨e, rfl, h₁⟩⟩
    · dsimp only
      cases hsid : SubscriptionId.new (subscriptionName destination.id) with
      | error e =>
        refine Prog.sat_bind hinv₁ (Prog.sat_mono (sat_unregister added h₁) ?_)
        rintro _ host₂ hinv₂ ⟨_, h₂⟩
        refine Prog.sat_bind hinv₂ (Prog.sat_mono (sat_closeReceivers_started [c] h₂) ?_)
        rintro _ host₃ _ ⟨_, h₃⟩
        rw [List.append_nil] at h₃
        exact Prog.sat_ret (stable_quiet _) (Or.inl ⟨_, rfl, h₃.mono (by omega)⟩)
      | ok sid =>
        refine Prog.sat_bind hinv₁ (Prog.sat_mono (sat_subscribe h₁ sid destination.filter) ?_)
        rintro response host₂ hinv₂ ⟨_, ⟨rfl, h₂⟩ | ⟨e, rfl, h₂⟩⟩
        · rw [subscriptionId_eq hsid] at h₂
          exact Prog.sat_ret (stable_quiet _)
            (Or.inr ⟨⟨c, _, some _⟩, rfl, ⟨rfl, rfl⟩, h₂.mono (by omega)⟩)
        · refine Prog.sat_bind hinv₂ (Prog.sat_mono (sat_unregister added h₂) ?_)
          rintro _ host₃ hinv₃ ⟨_, h₃⟩
          refine Prog.sat_bind hinv₃ (Prog.sat_mono (sat_closeReceivers_started [c] h₃) ?_)
          rintro _ host₄ _ ⟨_, h₄⟩
          rw [List.append_nil] at h₄
          exact Prog.sat_ret (stable_quiet _) (Or.inl ⟨_, rfl, h₄⟩)
    · exact Prog.sat_ret (stable_quiet _) (Or.inl ⟨_, rfl, h₁.mono (by omega)⟩)

theorem sat_newWorkers (rest : List WebhookDestinationConfig)
    {destinations : List WebhookDestinationConfig}
    (hinv : Router.Inv R.router (· ∈ []) host.router)
    (hserves : List.Forall₂ Serves destinations added) (h : Started A added serial host) :
    (R.newWorkers serial (added.map Addition.connection) rest).Sat (R.hostContract [] false)
      (Ended A (destinations ++ rest)) host := by
  induction rest generalizing host serial destinations added with
  | nil =>
    rw [List.append_nil]
    exact Prog.sat_ret (stable_quiet _) (Or.inr ⟨(), serial, added, rfl, hserves, h⟩)
  | cons destination rest ih =>
    refine Prog.sat_bind hinv (Prog.sat_mono (sat_newWorker destination hinv h) ?_)
    rintro result host₁ hinv₁ (⟨e, rfl, h₁⟩ | ⟨a, rfl, hserves₁, h₁⟩)
    · refine Prog.sat_bind hinv₁ (Prog.sat_mono (sat_dropWorkers added hinv₁ h₁) ?_)
      rintro _ host₂ _ ⟨serial', h₂⟩
      exact Prog.sat_ret (stable_quiet _) (Or.inl ⟨_, serial', rfl, h₂⟩)
    · have hworkers : added.map Addition.connection ++ [a.connection] =
          (added ++ [a]).map Addition.connection := by simp
      have hassoc : destinations ++ destination :: rest =
          destinations ++ [destination] ++ rest := by simp
      dsimp only
      rw [hworkers, hassoc]
      exact ih hinv₁ (List.rel_append hserves (.cons hserves₁ .nil)) h₁

/-- In either mode the start-up is all or nothing. -/
theorem sat_newManager (mode : WebhookDeliveryMode)
    (hinv : Router.Inv R.router (· ∈ []) host.router) (h : Started A [] serial host)
    (hids : host.outside.connectionIds = []) :
    (R.newManager serial mode).Sat (R.hostContract [] false)
      (Ended A R.webhooks.destinations) host := by
  cases mode with
  | volatile => exact sat_newWorkers R.webhooks.destinations hinv .nil h
  | durable =>
    refine Prog.sat_bind hinv (Prog.sat_mono (Q := Ended A R.webhooks.destinations) ?_ ?_)
    · refine sat_quiet hinv (fun i => by cases i.reply <;> rfl) (fun i => ?_)
      cases i.reply with
      | failed error applied =>
        exact Prog.sat_ret (stable_quiet _) (Or.inl ⟨_, serial, rfl, h⟩)
      | done => exact sat_addDestinations_started R.webhooks.destinations hinv .nil h hids
    · rintro result host' _ (⟨e, serial', rfl, h'⟩ | ⟨n, serial', added, rfl, hserves, h'⟩)
      · exact Prog.sat_ret (stable_quiet _) (Or.inl ⟨e, serial', rfl, h'⟩)
      · exact Prog.sat_ret (stable_quiet _) (Or.inr ⟨(), serial', added, rfl, hserves, h'⟩)

end WebhookRuntime

/-- Nothing that is active has changed. -/
structure Restored (s s' : Shared) : Prop where
  connections : ∀ c, s'.connections.lookup c = s.connections.lookup c
  keys : ∀ k, k ∈ s'.routes ↔ k ∈ s.routes
  buckets : ∀ k c, (s'.routes.lookup k).bind (fun bucket => bucket.lookup c) =
    (s.routes.lookup k).bind (fun bucket => bucket.lookup c)
  gauges : s'.gauges = s.gauges

structure Installed (s : Shared) (destination : WebhookDestinationConfig) (c : ConnectionId) :
    Prop where
  connection : s.connections.lookup c = some ⟨⟨destination.filter.tenantId, .httpWebhook,
    (∅ : Subscriptions).insert ⟨WebhookRuntime.subscriptionName destination.id⟩
      destination.filter⟩, 0⟩
  items : ∀ k, items s.routes k c = if k = RouteKey.ofFilter destination.filter then
    [⟨WebhookRuntime.subscriptionName destination.id⟩] else []

/-- One connection has been added for each of the destinations. -/
structure Extends (destinations : List WebhookDestinationConfig) (ids : List ConnectionId)
    (s s' : Shared) : Prop where
  nodup : ids.Nodup
  new : ∀ c ∈ ids, c ∉ s.connections
  installed : List.Forall₂ (Installed s') destinations ids
  others : ∀ c ∉ ids, s'.connections.lookup c = s.connections.lookup c ∧
    ∀ k, items s'.routes k c = items s.routes k c
  gauges : s'.gauges = enlarge destinations.length destinations.length s.gauges

theorem Enlarged.restored {s s' : Shared} (h : Enlarged s.active [] s'.active)
    (htidy : Tidy s.routes) (htidy' : Tidy s'.routes) : Restored s s' := by
  have hothers : ∀ c, s'.connections.lookup c = s.connections.lookup c ∧
      ∀ k, items s'.routes k c = items s.routes k c := fun c => h.others c (by simp)
  refine ⟨fun c => (hothers c).1, fun k => ?_, fun k c => ?_, h.gauges.trans (enlarge_zero _)⟩
  · rw [htidy.mem_iff, htidy'.mem_iff]
    exact exists_congr (fun c => by rw [(hothers c).2])
  · rw [lookup_eq_of_filled htidy.filled, lookup_eq_of_filled htidy'.filled, (hothers c).2]

theorem installed_of_present {s : Shared} {destinations : List WebhookDestinationConfig}
    {added : List Addition} (hserves : List.Forall₂ WebhookRuntime.Serves destinations added)
    (h : ∀ a ∈ added, s.connections.lookup a.connection = some a.state ∧
      ∀ k, items s.routes k a.connection = a.items k) :
    List.Forall₂ (Installed s) destinations (added.map Addition.connection) := by
  induction hserves with
  | nil => exact .nil
  | @cons destination a destinations added hserve _ ih =>
    obtain ⟨hlookup, hitems⟩ := h a (List.mem_cons_self ..)
    obtain ⟨c, tenantId, subscription⟩ := a
    obtain ⟨rfl, rfl⟩ := hserve
    exact .cons ⟨hlookup, hitems⟩ (ih (fun a ha => h a (List.mem_cons_of_mem _ ha)))

theorem sum_size_of_serves {destinations : List WebhookDestinationConfig} {added : List Addition}
    (hserves : List.Forall₂ WebhookRuntime.Serves destinations added) :
    (added.map Addition.size).sum = destinations.length := by
  induction hserves with
  | nil => rfl
  | @cons destination a destinations added hserve _ ih =>
    have hsize : a.size = 1 := by
      rw [Addition.size, hserve.2]
      rfl
    rw [List.map_cons, List.sum_cons, ih, hsize, List.length_cons, Nat.add_comm]

theorem Enlarged.extends {s s' : Shared} {destinations : List WebhookDestinationConfig}
    {added : List Addition} (h : Enlarged s.active added s'.active)
    (hserves : List.Forall₂ WebhookRuntime.Serves destinations added) :
    Extends destinations (added.map Addition.connection) s s' := by
  refine ⟨h.nodup, fun c hc => ?_, installed_of_present hserves h.present, h.others, ?_⟩
  · obtain ⟨a, ha, rfl⟩ := List.mem_map.mp hc
    exact AList.lookup_eq_none.mp (h.new a ha).1
  · rw [show s'.gauges = _ from h.gauges, sum_size_of_serves hserves, ← hserves.length_eq]
    rfl

theorem exists_unused {s : Shared} (hfree : s.mutationLock = none) : ∃ serial, Unused serial s := by
  have hbound : ∃ serial, ∀ e ∈ s.history, e.call.thread < serial := by
    induction s.history with
    | nil => exact ⟨0, by simp⟩
    | cons e history ih =>
      obtain ⟨serial, hserial⟩ := ih
      refine ⟨max serial (e.call.thread + 1), fun e' he' => ?_⟩
      rcases List.mem_cons.mp he' with rfl | he'
      · omega
      · have := hserial e' he'
        omega
  obtain ⟨serial, hserial⟩ := hbound
  refine ⟨serial, fun m hm => ⟨by simp [hfree], fun e he => ?_⟩⟩
  have := hserial e he
  omega

/-- The start-up of enabled webhooks, in either mode, on a router that nobody else is using. Its
calls have numbers that tell them apart from all earlier ones. -/
theorem startup_all_or_nothing (R : WebhookRuntime) (mode : WebhookDeliveryMode)
    (s : Shared) (commands : List DurableRecord) (hreachable : Reachable R.router s)
    (hfree : s.mutationLock = none) :
    (∃ serial, Unused serial s) ∧ ∀ serial, Unused serial s → ∀ input result host,
      (R.newManager serial mode).run input ⟨s, ⟨∅, [], commands⟩⟩ = some (result, host) →
        (∀ e, result = .error e → Restored s host.router) ∧
        (result = .ok () → ∃ ids, Extends R.webhooks.destinations ids s host.router) := by
  refine ⟨exists_unused hfree, fun serial hunused input result host hrun => ?_⟩
  have hinv : Router.Inv R.router (· ∈ []) s := by
    have hinv := hreachable.inv
    exact ⟨hinv.base, hinv.reachable, by simp⟩
  have hstarted : WebhookRuntime.Started s.active [] serial ⟨s, ⟨∅, [], commands⟩⟩ :=
    ⟨hunused, hfree, Enlarged.refl s.active⟩
  obtain ⟨hinv', hended⟩ := Prog.sat_run hinv
    (WebhookRuntime.sat_newManager mode hinv hstarted rfl) hrun
  rcases hended with ⟨e, serial', rfl, h⟩ | ⟨_, serial', added, rfl, hserves, h⟩
  · refine ⟨fun _ _ => ?_, by simp⟩
    exact h.enlarged.restored (hinv.reachable hfree).consistent.tidy
      (hinv'.reachable h.free).consistent.tidy
  · exact ⟨by simp, fun _ => ⟨_, h.enlarged.extends hserves⟩⟩

/-- The queue of the second destination has no room. -/
def salesWebhooks : WebhookRuntime where
  router := {}
  webhooks := {
    durable := ⟨"b", "c", "g", "d", "r", "x", 1, 1024, 1⟩
    destinations := [⟨"v", ⟨"acme", none, none, none, none, none, none⟩, 1, 1, 1, 1, 1⟩,
      ⟨"w", ⟨"acme", none, none, none, none, none, none⟩, 0, 1, 1, 1, 1⟩] }
  maxPayloadBytes := 16
  commitInvalidMessages := false
  encodeDeliveryJson _ := [1]
  order _ := .listed

def salesStartup (mode : WebhookDeliveryMode) :
    Option (Except String Unit × Host DurableWebhookSink) :=
  (salesWebhooks.newManager 0 mode).run (fun _ => {}) ⟨.new, ⟨∅, [], []⟩⟩

def salesRefusal : String :=
  (WebhookError.registration "w" (CoreError.invalidQueueCapacity 0 4096).display).display

theorem startup_all_or_nothing_salesWebhooks : ∃ host host',
    salesStartup .volatile = some (.error salesRefusal, host) ∧ Restored .new host.router ∧
    salesStartup .durable = some (.error salesRefusal, host') ∧ Restored .new host'.router := by
  have hunused : Unused 0 Shared.new := fun m _ => by simp [Shared.new]
  have h : ∀ mode, (salesStartup mode).map Prod.fst = some (.error salesRefusal) →
      ∃ host, salesStartup mode = some (.error salesRefusal, host) ∧ Restored .new host.router := by
    intro mode hmode
    obtain ⟨⟨result, host⟩, hrun, rfl⟩ := Option.map_eq_some_iff.mp hmode
    refine ⟨host, hrun, ?_⟩
    exact ((startup_all_or_nothing salesWebhooks mode .new [] ⟨Calls.start, ⟨[], rfl⟩, rfl⟩
      rfl).2 0 hunused _ _ host hrun).1 _ rfl
  obtain ⟨host, hrun, hrestored⟩ := h .volatile (by decide +kernel)
  obtain ⟨host', hrun', hrestored'⟩ := h .durable (by decide +kernel)
  exact ⟨host, host', hrun, hrestored, hrun', hrestored'⟩

end Webhook
end KafkaEdgeRouter
