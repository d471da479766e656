import KafkaEdgeRouter.ConcurrentSafety
import KafkaEdgeRouter.ReceiverSchedules

/-!
# Consumers do not affect each other

A dispatch amid receivers, seen from one connection: whether it is offered the message depends on
its own subscriptions, the outcome of the offer on its own queue, and whether it is evicted on its
own strikes. So two runs whose schedules agree on a connection look the same to it, whatever the
receivers of the others do.
-/

namespace KafkaEdgeRouter.Router

open InvertedIndex

structure Silent (c : ConnectionId) (s s' : Shared) : Prop where
  events : ∃ events, s'.history = s.history ++ events ∧ offersTo c events = []
  filled : Filled s.routes → Filled s'.routes

structure Passes (c : ConnectionId) (s s' : Shared) : Prop extends Silent c s s' where
  connection : s'.connections.lookup c = s.connections.lookup c
  items : ∀ k, items s'.routes k c = items s.routes k c

section Relations

variable {c : ConnectionId} {s s' s'' : Shared}

theorem silent_of_eq (hh : s'.history = s.history) (hr : s'.routes = s.routes) :
    Silent c s s' :=
  ⟨⟨[], by rw [hh, List.append_nil], rfl⟩, fun h => by rwa [hr]⟩

theorem Silent.trans (h : Silent c s s') (h' : Silent c s' s'') : Silent c s s'' := by
  obtain ⟨events, heq, hnone⟩ := h.events
  obtain ⟨events', heq', hnone'⟩ := h'.events
  refine ⟨⟨events ++ events', by rw [heq', heq, List.append_assoc], ?_⟩,
    fun hf => h'.filled (h.filled hf)⟩
  rw [offersTo_append, hnone, hnone']
  rfl

theorem passes_of_eq (hh : s'.history = s.history) (hr : s'.routes = s.routes)
    (hc : s'.connections = s.connections) : Passes c s s' :=
  ⟨silent_of_eq hh hr, by rw [hc], fun k => by rw [hr]⟩

theorem passes_of_log {events : List Event} (hh : s'.history = s.history ++ events)
    (hnone : offersTo c events = []) (hr : s'.routes = s.routes)
    (hc : s'.connections = s.connections) : Passes c s s' :=
  ⟨⟨⟨events, hh, hnone⟩, fun h => by rwa [hr]⟩, by rw [hc], fun k => by rw [hr]⟩

theorem Passes.trans (h : Passes c s s') (h' : Passes c s' s'') : Passes c s s'' :=
  ⟨h.toSilent.trans h'.toSilent, h'.connection.trans h.connection,
    fun k => (h'.items k).trans (h.items k)⟩

theorem passes_drifts (h : Prog.Drifts poll s s') : Passes c s s' := by
  obtain ⟨channels, rfl⟩ := drifts_frame h
  exact passes_of_eq rfl rfl rfl

end Relations

section Walk

variable {config : RouterConfig} {call : CallId} {order : HashOrder} {c : ConnectionId}
  {s s' : Shared} {l : List (Entry (ConnectionId × ReceiverOp) Shared)}

theorem exec_modify {α : Type} {g : Shared → Shared} {k : Unit → RouterProg α} {a : α}
    (h : (Prog.modify g >>= k).Exec poll s l a s') (hg : ∀ c t, Passes c t (g t)) :
    ∃ t l', (∀ c, Passes c s t) ∧ (k ()).Exec poll t l' a s' := by
  obtain ⟨t, l', hdrifts, hnext⟩ := Prog.exec_access h
  exact ⟨g t, l', fun c => (passes_drifts hdrifts).trans (hg c t), hnext⟩

theorem exec_modify_ret {α : Type} {g : Shared → Shared} {a b : α}
    (h : (Prog.modify g >>= fun _ => (Prog.ret b : RouterProg α)).Exec poll s l a s')
    (hg : ∀ c t, Passes c t (g t)) (c : ConnectionId) : Passes c s s' := by
  obtain ⟨t, l', hpass, hnext⟩ := exec_modify h hg
  exact (hpass c).trans (passes_drifts (Prog.exec_ret hnext).2)

/-! ### Matching -/

def collectAll (routes : Routes) (keys : List RouteKey) (found : Matches) : Matches :=
  keys.foldl (fun found k => match routes.lookup k with
    | none => found
    | some bucket => collect bucket found) found

theorem exec_collectCandidates {keys : List RouteKey} {found found' : Matches}
    (h : (collectCandidates keys found).Exec poll s l found' s') :
    Prog.Drifts poll s s' ∧ found' = collectAll s.routes keys found := by
  induction keys generalizing found s l with
  | nil =>
    obtain ⟨rfl, hdrifts⟩ := Prog.exec_ret h
    exact ⟨hdrifts, rfl⟩
  | cons k keys ih =>
    obtain ⟨t, l', hdrifts, hnext⟩ := Prog.exec_access h
    obtain ⟨channels, rfl⟩ := drifts_frame hdrifts
    change ((match s.routes.lookup k with
      | none => collectCandidates keys found
      | some bucket => collectCandidates keys (collect bucket found)) : RouterProg Matches).Exec
        poll { s with channels := channels } l' found' s' at hnext
    rw [collectAll, List.foldl_cons]
    cases hk : s.routes.lookup k with
    | none =>
      rw [hk] at hnext
      obtain ⟨hdrifts', hfound⟩ := ih hnext
      exact ⟨hdrifts.trans hdrifts', hfound⟩
    | some bucket =>
      rw [hk] at hnext
      obtain ⟨hdrifts', hfound⟩ := ih hnext
      exact ⟨hdrifts.trans hdrifts', hfound⟩

theorem lookup_collectAll {routes : Routes} (hf : Filled routes) (keys : List RouteKey)
    (c : ConnectionId) :
    (((collectAll routes keys ∅).lookup c).getD [] = gather routes c keys) ∧
      ∀ ids, (collectAll routes keys ∅).lookup c = some ids → ids ≠ [] := by
  induction keys using List.reverseRecOn with
  | nil => exact ⟨rfl, by simp [collectAll]⟩
  | append_singleton keys k ih =>
    obtain ⟨hexact, hne⟩ := ih
    have hstep : collectAll routes (keys ++ [k]) ∅ = match routes.lookup k with
        | none => collectAll routes keys ∅
        | some bucket => collect bucket (collectAll routes keys ∅) := by
      simp only [collectAll, List.foldl_append, List.foldl_cons, List.foldl_nil]
    rw [hstep, gather_concat, ← hexact]
    cases hk : routes.lookup k with
    | none =>
      rw [items_of_lookup_none hk]
      exact ⟨rfl, hne⟩
    | some bucket =>
      simp only
      rw [items_of_bucket hk]
      cases hb : bucket.lookup c with
      | none =>
        rw [lookup_collect_none _ hb]
        exact ⟨rfl, hne⟩
      | some ids =>
        rw [lookup_collect_some _ hb]
        refine ⟨rfl, fun ids' heq => ?_⟩
        rw [← Option.some.inj heq]
        exact mergeIds_ne_nil (hf k bucket c ids hk hb)

/-! ### Offers -/

structure Offered (config : RouterConfig) (c : ConnectionId) (delivery : Delivery)
    (connection : ConnectionState) (outcome : SendOutcome) (s s' : Shared) : Prop where
  events : ∃ events, s'.history = s.history ++ events ∧ offersTo c events = [(delivery, outcome)]
  filled : Filled s.routes → Filled s'.routes
  connection : s'.connections.lookup c = some
    { connection with fullStrikes := strikesAfter outcome connection.fullStrikes }
  items : ∀ k, items s'.routes k c = items s.routes k c

theorem Offered.after {delivery : Delivery} {connection : ConnectionState} {outcome : SendOutcome}
    {t : Shared} (hp : Passes c s t) (h : Offered config c delivery connection outcome t s') :
    Offered config c delivery connection outcome s s' := by
  obtain ⟨events, heq, hnone⟩ := hp.events
  obtain ⟨events', heq', hone⟩ := h.events
  refine ⟨⟨events ++ events', by rw [heq', heq, List.append_assoc], ?_⟩,
    fun hf => h.filled (hp.filled hf), h.connection, fun k => (h.items k).trans (hp.items k)⟩
  rw [offersTo_append, hnone, hone]
  rfl

theorem Offered.before {delivery : Delivery} {connection : ConnectionState}
    {outcome : SendOutcome} {t : Shared} (h : Offered config c delivery connection outcome s t)
    (hp : Passes c t s') : Offered config c delivery connection outcome s s' := by
  obtain ⟨events, heq, hone⟩ := h.events
  obtain ⟨events', heq', hnone⟩ := hp.events
  refine ⟨⟨events ++ events', by rw [heq', heq, List.append_assoc], ?_⟩,
    fun hf => hp.filled (h.filled hf), hp.connection.trans h.connection,
    fun k => (hp.items k).trans (h.items k)⟩
  rw [offersTo_append, hnone, hone]
  rfl

theorem passes_afterOffer (call : CallId) {c' : ConnectionId} (hne : c ≠ c') (delivery : Delivery)
    (strikes : ℕ) : Passes c s (afterOffer call c' delivery strikes s) :=
  ⟨⟨⟨_, rfl, offersTo_ne call hne delivery _⟩, id⟩, AList.lookup_modify_ne hne _ _, fun _ => rfl⟩

theorem offered_afterOffer {delivery : Delivery} {connection : ConnectionState}
    (hl : s.connections.lookup c = some connection) :
    Offered config c delivery connection (trySend c delivery s).1 s (afterOffer call c delivery
      (strikesAfter (trySend c delivery s).1 connection.fullStrikes) s) := by
  refine ⟨⟨_, rfl, offersTo_self ..⟩, id, ?_, fun _ => rfl⟩
  simp only [afterOffer, AList.lookup_modify_self, hl, Option.map_some]

/-- One turn of the fan-out loop: the connection has gone, or its queue is offered the message. -/
theorem exec_offerAll_cons {message : RoutedMessage} {count index : ℕ} {report : DispatchReport}
    {disconnect : List ConnectionId} {c' : ConnectionId} {ids : List SubscriptionId}
    {rest : List (ConnectionId × List SubscriptionId)}
    {result : Except String (DispatchReport × List ConnectionId)}
    (hcount : index + (rest.length + 1) = count)
    (h : (offerAll config call count index (some message) report disconnect
      ((c', ids) :: rest)).Exec poll s l result s') :
    ∃ t l' current' report' disconnect', Prog.Drifts poll s t ∧
      (rest ≠ [] → current' = some message) ∧
      (t.connections.lookup c' = none ∧ disconnect' = disconnect ∧
        (offerAll config call count (index + 1) current' report' disconnect' rest).Exec
          poll t l' result s' ∨
      ∃ connection, t.connections.lookup c' = some connection ∧
        disconnect' = (if disconnects config (trySend c' ⟨message, ids⟩ t).1 (strikesAfter
          (trySend c' ⟨message, ids⟩ t).1 connection.fullStrikes) then disconnect ++ [c']
          else disconnect) ∧
        (offerAll config call count (index + 1) current' report' disconnect' rest).Exec poll
          (afterOffer call c' ⟨message, ids⟩ (strikesAfter (trySend c' ⟨message, ids⟩ t).1
            connection.fullStrikes) t) l' result s') := by
  obtain ⟨t, l', hdrifts, hnext⟩ := Prog.exec_access h
  cases hl : t.connections.lookup c' with
  | none =>
    rw [offer_none _ _ hl] at hnext
    exact ⟨t, l', _, _, _, hdrifts, fun _ => rfl, Or.inl ⟨hl, rfl, hnext⟩⟩
  | some connection =>
    rw [offer_some _ hl] at hnext
    refine ⟨t, l', _, _, _, hdrifts, fun hne => ?_, Or.inr ⟨connection, hl, rfl, hnext⟩⟩
    have hlength : 0 < rest.length := List.length_pos_iff.mpr hne
    have hlast : (index + 1 == count) = false := beq_eq_false_iff_ne.mpr (by omega)
    simp [hlast]

/-- A connection that does not match, or is not there, is passed over. -/
theorem exec_offerAll_passed {message : RoutedMessage} {count index : ℕ}
    {current : Option RoutedMessage} {report : DispatchReport} {disconnect : List ConnectionId}
    (rest : List (ConnectionId × List SubscriptionId))
    {result : Except String (DispatchReport × List ConnectionId)}
    (hcount : index + rest.length = count) (hcurrent : rest ≠ [] → current = some message)
    (hc : c ∉ rest.map Prod.fst ∨ s.connections.lookup c = none)
    (h : (offerAll config call count index current report disconnect rest).Exec poll s l
      result s') :
    ∃ report' disconnect', result = .ok (report', disconnect') ∧ Passes c s s' ∧
      (c ∈ disconnect' ↔ c ∈ disconnect) := by
  induction rest generalizing index current report disconnect s l with
  | nil =>
    obtain ⟨rfl, hdrifts⟩ := Prog.exec_ret h
    exact ⟨report, disconnect, rfl, passes_drifts hdrifts, Iff.rfl⟩
  | cons e rest ih =>
    obtain ⟨c', ids⟩ := e
    rw [hcurrent (List.cons_ne_nil _ _)] at h
    rw [List.length_cons] at hcount
    obtain ⟨t, l', current', report₁, disconnect₁, hdrifts, hcurrent', hnext⟩ :=
      exec_offerAll_cons hcount h
    have hpass : Passes c s t := passes_drifts hdrifts
    have hc' : c ∉ rest.map Prod.fst ∨ t.connections.lookup c = none := by
      rw [hpass.connection]
      exact hc.imp_left fun hmem hin => hmem (List.mem_cons_of_mem _ hin)
    rcases hnext with ⟨_, rfl, hnext⟩ | ⟨connection, hl, rfl, hnext⟩
    · obtain ⟨report', disconnect', rfl, hpass', hiff⟩ := ih (by omega) hcurrent' hc' hnext
      exact ⟨report', disconnect', rfl, hpass.trans hpass', hiff⟩
    · have hne : c ≠ c' := by
        rintro rfl
        rcases hc with hc | hc
        · exact hc (List.mem_cons_self ..)
        · rw [← hpass.connection, hl] at hc
          cases hc
      have hstep : Passes c s _ := hpass.trans (passes_afterOffer call hne
        ⟨message, ids⟩ (strikesAfter (trySend c' ⟨message, ids⟩ t).1 connection.fullStrikes))
      obtain ⟨report', disconnect', rfl, hpass', hiff⟩ := ih (by omega) hcurrent'
        (by rw [hstep.connection, ← hpass.connection]; exact hc') hnext
      refine ⟨report', disconnect', rfl, hstep.trans hpass', hiff.trans ?_⟩
      split_ifs
      · simp [hne]
      · rfl

/-- A connection that matches and is there is offered the message once. -/
theorem exec_offerAll_reached {message : RoutedMessage} {count index : ℕ}
    {current : Option RoutedMessage} {report : DispatchReport} {disconnect : List ConnectionId}
    (rest : List (ConnectionId × List SubscriptionId))
    {result : Except String (DispatchReport × List ConnectionId)} {ids : List SubscriptionId}
    {connection : ConnectionState} (hcount : index + rest.length = count)
    (hcurrent : rest ≠ [] → current = some message) (hnodup : (rest.map Prod.fst).Nodup)
    (hmem : (c, ids) ∈ rest) (hl : s.connections.lookup c = some connection)
    (h : (offerAll config call count index current report disconnect rest).Exec poll s l
      result s') :
    ∃ report' disconnect' outcome, result = .ok (report', disconnect') ∧
      Offered config c ⟨message, ids⟩ connection outcome s s' ∧
      (c ∈ disconnect' ↔ c ∈ disconnect ∨
        disconnects config outcome (strikesAfter outcome connection.fullStrikes) = true) := by
  induction rest generalizing index current report disconnect s l with
  | nil => cases hmem
  | cons e rest ih =>
    obtain ⟨c', ids'⟩ := e
    rw [hcurrent (List.cons_ne_nil _ _)] at h
    rw [List.length_cons] at hcount
    rw [List.map_cons, List.nodup_cons] at hnodup
    obtain ⟨t, l', current', report₁, disconnect₁, hdrifts, hcurrent', hnext⟩ :=
      exec_offerAll_cons hcount h
    have hpass : Passes c s t := passes_drifts hdrifts
    have hlt : t.connections.lookup c = some connection := hpass.connection.trans hl
    by_cases hcc : c = c'
    · subst hcc
      have hids : ids = ids' := by
        rcases List.mem_cons.mp hmem with heq | hin
        · exact (Prod.mk.inj heq).2
        · exact absurd (List.mem_map_of_mem hin) hnodup.1
      subst ids'
      rcases hnext with ⟨hnone, _⟩ | ⟨connection', hl', rfl, hnext⟩
      · rw [hlt] at hnone
        cases hnone
      · obtain rfl : connection = connection' := Option.some.inj (hlt.symm.trans hl')
        obtain ⟨report', disconnect', rfl, hpass', hiff⟩ :=
          exec_offerAll_passed rest (by omega) hcurrent' (Or.inl hnodup.1) hnext
        refine ⟨report', disconnect', (trySend c ⟨message, ids⟩ t).1, rfl,
          Offered.after hpass ((offered_afterOffer hlt).before hpass'), hiff.trans ?_⟩
        split_ifs with hd
        · simp [hd]
        · simp [hd]
    · have hin : (c, ids) ∈ rest := by
        rcases List.mem_cons.mp hmem with heq | hin
        · exact absurd (Prod.mk.inj heq).1 hcc
        · exact hin
      rcases hnext with ⟨_, rfl, hnext⟩ | ⟨connection', hl', rfl, hnext⟩
      · obtain ⟨report', disconnect', outcome, rfl, hoffered, hiff⟩ :=
          ih (by omega) hcurrent' hnodup.2 hin hlt hnext
        exact ⟨report', disconnect', outcome, rfl, hoffered.after hpass, hiff⟩
      · have hstep := passes_afterOffer call (s := t) hcc ⟨message, ids'⟩
          (strikesAfter (trySend c' ⟨message, ids'⟩ t).1 connection'.fullStrikes)
        obtain ⟨report', disconnect', outcome, rfl, hoffered, hiff⟩ :=
          ih (by omega) hcurrent' hnodup.2 hin (hstep.connection.trans hlt) hnext
        refine ⟨report', disconnect', outcome, rfl, hoffered.after (hpass.trans hstep),
          hiff.trans ?_⟩
        split_ifs
        · simp [hcc]
        · rfl

/-! ### Evictions -/

def Spares (x : ConnectionId) (s s' : Shared) : Prop :=
  ∀ c, Silent c s s' ∧ (c ≠ x → Passes c s s')

theorem spares_of_passes {x : ConnectionId} (h : ∀ c, Passes c s s') : Spares x s s' :=
  fun c => ⟨(h c).toSilent, fun _ => h c⟩

theorem Spares.trans {x : ConnectionId} {s'' : Shared} (h : Spares x s s') (h' : Spares x s' s'') :
    Spares x s s'' :=
  fun c => ⟨(h c).1.trans (h' c).1, fun hne => ((h c).2 hne).trans ((h' c).2 hne)⟩

theorem spares_routes {x : ConnectionId} {routes : Routes}
    (hfilled : Filled s.routes → Filled routes)
    (hitems : ∀ k c, c ≠ x → items routes k c = items s.routes k c) :
    Spares x s { s with routes := routes } :=
  fun _ => ⟨⟨⟨[], (List.append_nil _).symm, rfl⟩, hfilled⟩, fun hne =>
    ⟨⟨⟨[], (List.append_nil _).symm, rfl⟩, hfilled⟩, rfl, fun k => hitems k _ hne⟩⟩

theorem exec_removeAllFromRoutes {x : ConnectionId}
    {subscriptions : List (SubscriptionId × RouteFilter)} {a : Unit}
    (h : (removeAllFromRoutes x subscriptions).Exec poll s l a s') :
    Spares x s s' ∧ s'.connections = s.connections := by
  induction subscriptions generalizing s l with
  | nil =>
    obtain ⟨_, hdrifts⟩ := Prog.exec_ret h
    obtain ⟨channels, rfl⟩ := drifts_frame hdrifts
    exact ⟨spares_of_passes fun c => passes_drifts hdrifts, rfl⟩
  | cons e subscriptions ih =>
    rw [removeAllFromRoutes, removeFromRoute, Prog.bind_assoc] at h
    obtain ⟨t, l₁, hdrifts, h⟩ := Prog.exec_access h
    obtain ⟨t', l₂, hdrifts', h⟩ := Prog.exec_access h
    obtain ⟨hrest, hconn⟩ := ih h
    obtain ⟨channels, rfl⟩ := drifts_frame hdrifts
    obtain ⟨channels', rfl⟩ := drifts_frame hdrifts'
    refine ⟨Spares.trans (spares_of_passes fun c => passes_drifts hdrifts) (Spares.trans
      (spares_routes (fun hf => filled_discard hf _ _ _) ?_) (Spares.trans
      (spares_of_passes fun c => passes_drifts hdrifts') (Spares.trans
      (spares_routes (fun hf => filled_prune hf _) ?_) hrest))), hconn⟩
    · intro k c hne
      rw [items_discard, if_neg (fun heq => hne heq.2)]
    · intro k c _
      rw [items_prune]

theorem exec_unregisterLocked {x : ConnectionId} {removed : Bool}
    (h : (unregisterLocked order x).Exec poll s l removed s') :
    Spares x s s' ∧ s'.connections.lookup x = none := by
  obtain ⟨t, l₁, hdrifts, h⟩ := Prog.exec_access h
  have hstart : Spares x s t := spares_of_passes fun c => passes_drifts hdrifts
  rcases takeConnection_cases x t with ⟨hnone, heq⟩ | ⟨r, _, heq⟩
  · rw [heq] at h
    obtain ⟨_, hdrifts'⟩ := Prog.exec_ret h
    have hend : ∀ c, Passes c t s' := fun c => passes_drifts hdrifts'
    refine ⟨hstart.trans (spares_of_passes hend), ?_⟩
    rw [registry_lookup, Option.map_eq_none_iff] at hnone
    rw [(hend x).connection, hnone]
  · rw [heq] at h
    have htake : Spares x t { t with connections := t.connections.erase x } :=
      fun c => ⟨silent_of_eq rfl rfl, fun hne =>
        ⟨silent_of_eq rfl rfl, AList.lookup_erase_ne hne, fun _ => rfl⟩⟩
    obtain ⟨l₂, l₃, _, t₂, hremove, h⟩ := Prog.exec_bind h
    obtain ⟨hspares, hconn⟩ := exec_removeAllFromRoutes hremove
    have hgauge : ∀ c, Passes c t₂ s' := exec_modify_ret h (fun _ _ => passes_of_eq rfl rfl rfl)
    refine ⟨hstart.trans (htake.trans (hspares.trans (spares_of_passes hgauge))), ?_⟩
    rw [(hgauge x).connection, hconn]
    exact AList.lookup_erase ..

theorem exec_unregisterConnection {x : ConnectionId} {removed : Bool}
    (h : (unregisterConnection call order x).Exec poll s l removed s') :
    Spares x s s' ∧ s'.connections.lookup x = none := by
  obtain ⟨_, t, l₁, hdrifts, _, h⟩ := Prog.exec_await h
  obtain ⟨l₂, l₃, removed', t₂, hbody, h⟩ := Prog.exec_bind h
  obtain ⟨hspares, hnone⟩ := exec_unregisterLocked hbody
  have hlock : ∀ c, Passes c s { t with mutationLock := some call.thread } :=
    fun c => (passes_drifts hdrifts).trans (passes_of_eq rfl rfl rfl)
  have hunlock : ∀ c, Passes c t₂ s' := exec_modify_ret h
    (fun _ _ => passes_of_log rfl (by cases removed' <;> rfl) rfl rfl)
  refine ⟨(spares_of_passes hlock).trans (hspares.trans (spares_of_passes hunlock)), ?_⟩
  rw [(hunlock x).connection, hnone]

theorem exec_disconnectAll {a : Unit} (disconnect : List ConnectionId)
    (h : (disconnectAll call order disconnect).Exec poll s l a s') (c : ConnectionId) :
    Silent c s s' ∧ (c ∉ disconnect → Passes c s s') ∧
      (c ∈ disconnect ∨ s.connections.lookup c = none → s'.connections.lookup c = none) := by
  induction disconnect generalizing s l with
  | nil =>
    obtain ⟨_, hdrifts⟩ := Prog.exec_ret h
    have hpass : Passes c s s' := passes_drifts hdrifts
    refine ⟨hpass.toSilent, fun _ => hpass, fun hc => ?_⟩
    rw [hpass.connection]
    exact hc.resolve_left List.not_mem_nil
  | cons x disconnect ih =>
    obtain ⟨t, l₁, hcounted, h⟩ := exec_modify h (fun _ _ => passes_of_eq rfl rfl rfl)
    obtain ⟨l₂, l₃, removed, t₂, hunregister, h⟩ := Prog.exec_bind h
    obtain ⟨hspares, hnone⟩ := exec_unregisterConnection hunregister
    obtain ⟨hsilent, hpass, hgone⟩ := ih h
    have hstart : Passes c s t := hcounted c
    refine ⟨hstart.toSilent.trans ((hspares c).1.trans hsilent), fun hc => ?_, fun hc => ?_⟩
    · rw [List.mem_cons, not_or] at hc
      exact hstart.trans (((hspares c).2 hc.1).trans (hpass hc.2))
    · refine hgone ?_
      by_cases hcx : c = x
      · exact Or.inr (hcx ▸ hnone)
      · rw [((hspares c).2 hcx).connection, hstart.connection]
        exact hc.imp_left fun hmem => (List.mem_cons.mp hmem).resolve_left hcx

/-! ### A whole dispatch -/

/-- What a dispatch does to one connection, but for its queue. -/
inductive Effect (config : RouterConfig) (message : RoutedMessage) (c : ConnectionId) (s : Shared)
    (offers : List (Delivery × SendOutcome)) (s' : Shared) : Prop
  | passed (h : s.connections.lookup c = none ∨
        gather s.routes c (RouteKey.candidates message.metadata) = [])
      (hoffers : offers = []) (hpasses : Passes c s s')
  | kept {connection : ConnectionState} {outcome : SendOutcome}
      (hl : s.connections.lookup c = some connection)
      (hne : gather s.routes c (RouteKey.candidates message.metadata) ≠ [])
      (hoffers : offers =
        [(⟨message, gather s.routes c (RouteKey.candidates message.metadata)⟩, outcome)])
      (hd : disconnects config outcome (strikesAfter outcome connection.fullStrikes) = false)
      (hconnection : s'.connections.lookup c = some
        { connection with fullStrikes := strikesAfter outcome connection.fullStrikes })
      (hitems : ∀ k, items s'.routes k c = items s.routes k c)
  | evicted {connection : ConnectionState} {outcome : SendOutcome}
      (hl : s.connections.lookup c = some connection)
      (hne : gather s.routes c (RouteKey.candidates message.metadata) ≠ [])
      (hoffers : offers =
        [(⟨message, gather s.routes c (RouteKey.candidates message.metadata)⟩, outcome)])
      (hd : disconnects config outcome (strikesAfter outcome connection.fullStrikes) = true)
      (hconnection : s'.connections.lookup c = none)

theorem mem_arrange_iff (order : HashOrder) (found : Matches) (c : ConnectionId)
    (ids : List SubscriptionId) :
    (c, ids) ∈ order.connections.arrange found.pairs ↔ found.lookup c = some ids := by
  rw [IterOrder.mem_arrange, AList.mem_pairs]

theorem exec_fanOut {message : RoutedMessage} {found : Matches}
    {result : Except String DispatchReport} (hf : Filled s.routes)
    (hfound : found = collectAll s.routes (RouteKey.candidates message.metadata) ∅)
    (h : (offerAll config call found.size 0 (some message)
        { matchedSubscriptions := matchedSubscriptions found } []
        (order.connections.arrange found.pairs) >>= fun offered => match offered with
      | .error text => (pure (.error text) : RouterProg (Except String DispatchReport))
      | .ok (report, disconnect) => do
        disconnectAll call order disconnect
        Prog.modify (Shared.count (Counters.recordDispatch report))
        return .ok report).Exec poll s l result s') (c : ConnectionId) :
    ∃ events, s'.history = s.history ++ events ∧
      Effect config message c s (offersTo c events) s' ∧ Filled s'.routes := by
  obtain ⟨hexact, hne⟩ := lookup_collectAll hf (RouteKey.candidates message.metadata) c
  rw [← hfound] at hexact hne
  obtain ⟨l₁, l₂, offered, t, hoffers, h⟩ := Prog.exec_bind h
  have hperm := order.connections.perm found.pairs
  have hnodup : ((order.connections.arrange found.pairs).map Prod.fst).Nodup :=
    (hperm.map Prod.fst).nodup_iff.mpr found.nodup_pairs_fst
  have hcount : 0 + (order.connections.arrange found.pairs).length = found.size := by
    rw [hperm.length_eq, AList.pairs_length, Nat.zero_add]
  have hend : ∀ {report disconnect}, offered = .ok (report, disconnect) →
      Silent c t s' ∧ (c ∉ disconnect → Passes c t s') ∧
        (c ∈ disconnect → s'.connections.lookup c = none) := by
    rintro report disconnect rfl
    obtain ⟨l₃, l₄, _, t₂, hdisconnect, h⟩ := Prog.exec_bind h
    have hcounted : Passes c t₂ s' := exec_modify_ret h (fun _ _ => passes_of_eq rfl rfl rfl) c
    obtain ⟨hsilent, hpass, hgone⟩ := exec_disconnectAll disconnect hdisconnect c
    refine ⟨hsilent.trans hcounted.toSilent, fun hc => (hpass hc).trans hcounted, fun hc => ?_⟩
    rw [hcounted.connection]
    exact hgone (Or.inl hc)
  by_cases hreached : (∃ connection, s.connections.lookup c = some connection) ∧
      gather s.routes c (RouteKey.candidates message.metadata) ≠ []
  · obtain ⟨⟨connection, hl⟩, hgather⟩ := hreached
    obtain ⟨ids, hids⟩ : ∃ ids, found.lookup c = some ids := by
      cases hlookup : found.lookup c with
      | none =>
        rw [hlookup] at hexact
        exact absurd hexact.symm hgather
      | some ids => exact ⟨ids, rfl⟩
    have hgathered : ids = gather s.routes c (RouteKey.candidates message.metadata) := by
      rw [← hexact, hids]
      rfl
    obtain ⟨report, disconnect, outcome, hok, hoffered, hiff⟩ := exec_offerAll_reached
      (order.connections.arrange found.pairs) hcount (fun _ => rfl) hnodup
      ((mem_arrange_iff order found c ids).mpr hids) hl hoffers
    obtain ⟨hsilent, hpass, hgone⟩ := hend hok
    obtain ⟨events, heq, hone⟩ := hoffered.events
    obtain ⟨events', heq', hnone⟩ := hsilent.events
    have hall : offersTo c (events ++ events') =
        [(⟨message, gather s.routes c (RouteKey.candidates message.metadata)⟩, outcome)] := by
      rw [offersTo_append, hone, hnone, ← hgathered]
      rfl
    refine ⟨events ++ events', by rw [heq', heq, List.append_assoc], ?_,
      hsilent.filled (hoffered.filled hf)⟩
    cases hd : disconnects config outcome (strikesAfter outcome connection.fullStrikes) with
    | true => exact .evicted hl hgather hall hd (hgone (hiff.mpr (Or.inr hd)))
    | false =>
      have hkept : Passes c t s' := hpass fun hmem => by
        rcases hiff.mp hmem with hmem | hmem
        · cases hmem
        · rw [hd] at hmem
          cases hmem
      exact .kept hl hgather hall hd (hkept.connection.trans hoffered.connection)
        fun k => (hkept.items k).trans (hoffered.items k)
  · have hpassed : s.connections.lookup c = none ∨
        gather s.routes c (RouteKey.candidates message.metadata) = [] := by
      cases hl : s.connections.lookup c with
      | none => exact Or.inl rfl
      | some connection => exact Or.inr (by_contra fun hg => hreached ⟨⟨connection, hl⟩, hg⟩)
    have hmiss : c ∉ (order.connections.arrange found.pairs).map Prod.fst ∨
        s.connections.lookup c = none := by
      refine hpassed.symm.imp_left fun hempty hmem => ?_
      obtain ⟨⟨c', ids⟩, hin, rfl⟩ := List.mem_map.mp hmem
      have hids := (mem_arrange_iff order found c' ids).mp hin
      rw [hids, hempty] at hexact
      exact hne ids hids hexact
    obtain ⟨report, disconnect, hok, hpass, hiff⟩ := exec_offerAll_passed
      (order.connections.arrange found.pairs) hcount (fun _ => rfl) hmiss hoffers
    obtain ⟨_, hkept, _⟩ := hend hok
    have hall : Passes c s s' := hpass.trans (hkept fun hmem => by
      rw [hiff] at hmem
      cases hmem)
    obtain ⟨events, heq, hnone⟩ := hall.events
    exact ⟨events, heq, .passed hpassed hnone hall, hall.filled hf⟩

theorem Effect.after {message : RoutedMessage} {offers : List (Delivery × SendOutcome)} {t : Shared}
    (hp : Passes c s t) (h : Effect config message c t offers s') :
    Effect config message c s offers s' := by
  have hgather : gather t.routes c (RouteKey.candidates message.metadata) =
      gather s.routes c (RouteKey.candidates message.metadata) := gather_congr hp.items _
  cases h with
  | passed h hoffers hpasses =>
    rw [hgather, hp.connection] at h
    exact .passed h hoffers (hp.trans hpasses)
  | kept hl hne hoffers hd hconnection hitems =>
    rw [hgather] at hne hoffers
    exact .kept (hp.connection ▸ hl) hne hoffers hd hconnection
      fun k => (hitems k).trans (hp.items k)
  | evicted hl hne hoffers hd hconnection =>
    rw [hgather] at hne hoffers
    exact .evicted (hp.connection ▸ hl) hne hoffers hd hconnection

theorem Effect.before {message : RoutedMessage} {offers : List (Delivery × SendOutcome)}
    {t : Shared} (h : Effect config message c s offers t) (hp : Passes c t s') :
    Effect config message c s offers s' := by
  cases h with
  | passed h hoffers hpasses => exact .passed h hoffers (hpasses.trans hp)
  | kept hl hne hoffers hd hconnection hitems =>
    exact .kept hl hne hoffers hd (hp.connection.trans hconnection)
      fun k => (hp.items k).trans (hitems k)
  | evicted hl hne hoffers hd hconnection =>
    exact .evicted hl hne hoffers hd (hp.connection.trans hconnection)

theorem exec_serve_dispatch {message : RoutedMessage} {response : Response}
    (hf : Filled s.routes)
    (h : (serve config call order (.dispatch message)).Exec poll s l response s')
    (c : ConnectionId) :
    ∃ events, s'.history = s.history ++ events ∧
      Effect config message c s (offersTo c events) s' ∧ Filled s'.routes := by
  obtain ⟨t₁, l₁, hbegan, h⟩ := exec_modify h (fun _ _ => passes_of_log rfl rfl rfl rfl)
  obtain ⟨l₂, l₃, response', t₄, hperform, h⟩ := Prog.exec_bind h
  have hreturned : Passes c t₄ s' :=
    exec_modify_ret h (fun _ _ => passes_of_log rfl rfl rfl rfl) c
  obtain ⟨l₄, l₅, result, t₃, hdispatch, h⟩ := Prog.exec_bind hperform
  have hreply : Passes c t₃ t₄ := passes_drifts (Prog.exec_ret h).2
  obtain ⟨t₂, l₆, hcounted, h⟩ := exec_modify hdispatch (fun _ _ => passes_of_eq rfl rfl rfl)
  obtain ⟨l₇, l₈, found, u, hcollect, h⟩ := Prog.exec_bind h
  obtain ⟨hdrifts, hfound⟩ := exec_collectCandidates hcollect
  have hstart : Passes c s u := ((hbegan c).trans (hcounted c)).trans (passes_drifts hdrifts)
  obtain ⟨channels, rfl⟩ := drifts_frame hdrifts
  obtain ⟨events, heq, heffect, hfilled⟩ := exec_fanOut (hstart.filled hf) hfound h c
  have hend : Passes c t₃ s' := hreply.trans hreturned
  obtain ⟨before, hbefore, hnone⟩ := hstart.events
  obtain ⟨after, hafter, hnone'⟩ := hend.events
  refine ⟨before ++ events ++ after, by rw [hafter, heq, hbefore]; simp, ?_, hend.filled hfilled⟩
  rw [offersTo_append, offersTo_append, hnone, hnone', List.nil_append, List.append_nil]
  exact (heffect.after hstart).before hend

end Walk

section Isolation

variable {config : RouterConfig} {c d : ConnectionId} {s₁ s₂ : Shared}

def offersIn (c : ConnectionId) (l : List (Entry (ConnectionId × ReceiverOp) Shared)) :
    List (Delivery × SendOutcome) :=
  (view c l).filterMap Sight.offered

def Sight.erase : Sight → ReceiverOp ⊕ Delivery
  | .op receiverOp => .inl receiverOp
  | .offer delivery _ => .inr delivery

/-- A queue has no choice: what it is asked decides what it answers. -/
theorem replays_unique {v w : List Sight} {channel channel₁ channel₂ : Option (Channel Delivery)}
    (h : v.map Sight.erase = w.map Sight.erase) (hv : Replays v channel channel₁)
    (hw : Replays w channel channel₂) : v = w ∧ channel₁ = channel₂ := by
  induction v generalizing w channel with
  | nil =>
    rw [List.map_nil, eq_comm, List.map_eq_nil_iff] at h
    subst w
    exact ⟨rfl, hv.trans hw.symm⟩
  | cons x v ih =>
    cases w with
    | nil => cases h
    | cons y w =>
      rw [List.map_cons, List.map_cons] at h
      obtain ⟨hxy, htail⟩ := List.cons.inj h
      cases x with
      | op op =>
        cases y with
        | op op' =>
          obtain rfl : op = op' := Sum.inl.inj hxy
          obtain ⟨rfl, heq⟩ := ih htail hv hw
          exact ⟨rfl, heq⟩
        | offer delivery outcome => cases hxy
      | offer delivery outcome =>
        cases y with
        | op op' => cases hxy
        | offer delivery' outcome' =>
          obtain rfl : delivery = delivery' := Sum.inr.inj hxy
          obtain ⟨rfl, hv'⟩ := hv
          obtain ⟨rfl, hw'⟩ := hw
          obtain ⟨rfl, heq⟩ := ih htail hv' hw'
          exact ⟨rfl, heq⟩

/-- The two states look the same to the connection. -/
structure Alike (c : ConnectionId) (s₁ s₂ : Shared) : Prop where
  connection : s₁.connections.lookup c = s₂.connections.lookup c
  channel : s₁.channels.lookup c = s₂.channels.lookup c
  items : s₁.connections.lookup c ≠ none → ∀ k, items s₁.routes k c = items s₂.routes k c

theorem offersIn_of_keptBy {v : List Sight} {early late : List ReceiverOp}
    {offers : List (Delivery × SendOutcome)}
    (hv : v = early.map .op ++ offers.map .ofOffer ++ late.map .op) :
    v.filterMap Sight.offered = offers := by
  have hops : ∀ ops : List ReceiverOp, (ops.map Sight.op).filterMap Sight.offered = [] := by
    intro ops
    rw [List.filterMap_map, List.filterMap_eq_nil_iff]
    exact fun _ _ => rfl
  have hid : Sight.offered ∘ Sight.ofOffer = some := rfl
  rw [hv, List.filterMap_append, List.filterMap_append, hops, hops, List.filterMap_map, hid,
    List.filterMap_some, List.nil_append, List.append_nil]

theorem erase_of_keptBy {v : List Sight} {early late : List ReceiverOp}
    {offers : List (Delivery × SendOutcome)}
    (hv : v = early.map .op ++ offers.map .ofOffer ++ late.map .op) :
    v.map Sight.erase =
      early.map .inl ++ (offers.map Prod.fst).map .inr ++ late.map .inl := by
  rw [hv, List.map_append, List.map_append, List.map_map, List.map_map, List.map_map,
    List.map_map]
  rfl

theorem Effect.deliveries_eq {message : RoutedMessage} {s₁' s₂' : Shared}
    {offers₁ offers₂ : List (Delivery × SendOutcome)} (halike : Alike c s₁ s₂)
    (h₁ : Effect config message c s₁ offers₁ s₁') (h₂ : Effect config message c s₂ offers₂ s₂') :
    offers₁.map Prod.fst = offers₂.map Prod.fst := by
  have hgather : s₁.connections.lookup c ≠ none →
      gather s₁.routes c (RouteKey.candidates message.metadata) =
        gather s₂.routes c (RouteKey.candidates message.metadata) :=
    fun hl => (gather_congr (fun k => (halike.items hl k).symm) _).symm
  have hpresent : ∀ {connection}, s₂.connections.lookup c = some connection →
      s₁.connections.lookup c ≠ none := by
    intro connection hl
    rw [halike.connection, hl]
    exact Option.some_ne_none _
  have hclash : ∀ {s s' : Shared} {connection : ConnectionState},
      (s.connections.lookup c = none ∨
        gather s.routes c (RouteKey.candidates message.metadata) = []) →
      s'.connections.lookup c = some connection →
      gather s'.routes c (RouteKey.candidates message.metadata) ≠ [] →
      s.connections.lookup c = s'.connections.lookup c →
      gather s.routes c (RouteKey.candidates message.metadata) =
        gather s'.routes c (RouteKey.candidates message.metadata) → False := by
    intro s s' connection hmiss hl hne hsame hsameGather
    rcases hmiss with hnone | hempty
    · rw [hsame, hl] at hnone
      cases hnone
    · exact hne (hsameGather ▸ hempty)
  cases h₁ with
  | passed h hoffers _ =>
    cases h₂ with
    | passed _ hoffers' _ => rw [hoffers, hoffers']
    | kept hl hne hoffers' =>
      exact (hclash h hl hne halike.connection (hgather (hpresent hl))).elim
    | evicted hl hne hoffers' =>
      exact (hclash h hl hne halike.connection (hgather (hpresent hl))).elim
  | kept hl hne hoffers =>
    have hp : s₁.connections.lookup c ≠ none := by simp [hl]
    cases h₂ with
    | passed h hoffers' _ =>
      exact (hclash h hl hne halike.connection.symm (hgather hp).symm).elim
    | kept hl' hne' hoffers' => rw [hoffers, hoffers', hgather hp]; rfl
    | evicted hl' hne' hoffers' => rw [hoffers, hoffers', hgather hp]; rfl
  | evicted hl hne hoffers =>
    have hp : s₁.connections.lookup c ≠ none := by simp [hl]
    cases h₂ with
    | passed h hoffers' _ =>
      exact (hclash h hl hne halike.connection.symm (hgather hp).symm).elim
    | kept hl' hne' hoffers' => rw [hoffers, hoffers', hgather hp]; rfl
    | evicted hl' hne' hoffers' => rw [hoffers, hoffers', hgather hp]; rfl

theorem Effect.alike {message : RoutedMessage} {s₁' s₂' : Shared}
    {offers : List (Delivery × SendOutcome)} (halike : Alike c s₁ s₂)
    (h₁ : Effect config message c s₁ offers s₁') (h₂ : Effect config message c s₂ offers s₂')
    (hchannel : s₁'.channels.lookup c = s₂'.channels.lookup c) : Alike c s₁' s₂' := by
  cases h₁ with
  | passed _ hoffers hpasses =>
    cases h₂ with
    | passed _ _ hpasses' =>
      refine ⟨?_, hchannel, fun hl k => ?_⟩
      · rw [hpasses.connection, hpasses'.connection, halike.connection]
      · rw [hpasses.connection] at hl
        rw [hpasses.items, hpasses'.items, halike.items hl]
    | kept _ _ hoffers' =>
      rw [hoffers] at hoffers'
      cases hoffers'
    | evicted _ _ hoffers' =>
      rw [hoffers] at hoffers'
      cases hoffers'
  | @kept connection outcome hl hne hoffers hd hconnection hitems =>
    cases h₂ with
    | passed _ hoffers' =>
      rw [hoffers] at hoffers'
      cases hoffers'
    | @kept connection' outcome' hl' hne' hoffers' hd' hconnection' hitems' =>
      obtain ⟨_, rfl⟩ : _ ∧ outcome = outcome' := by simpa using hoffers.symm.trans hoffers'
      obtain rfl : connection = connection' := by
        rw [halike.connection, hl'] at hl
        exact (Option.some.inj hl).symm
      refine ⟨hconnection.trans hconnection'.symm, hchannel, fun _ k => ?_⟩
      rw [hitems, hitems', halike.items (by simp [hl])]
    | @evicted connection' outcome' hl' hne' hoffers' hd' hconnection' =>
      obtain ⟨_, rfl⟩ : _ ∧ outcome = outcome' := by simpa using hoffers.symm.trans hoffers'
      obtain rfl : connection = connection' := by
        rw [halike.connection, hl'] at hl
        exact (Option.some.inj hl).symm
      rw [hd] at hd'
      cases hd'
  | @evicted connection outcome hl hne hoffers hd hconnection =>
    cases h₂ with
    | passed _ hoffers' =>
      rw [hoffers] at hoffers'
      cases hoffers'
    | @kept connection' outcome' hl' hne' hoffers' hd' hconnection' hitems' =>
      obtain ⟨_, rfl⟩ : _ ∧ outcome = outcome' := by simpa using hoffers.symm.trans hoffers'
      obtain rfl : connection = connection' := by
        rw [halike.connection, hl'] at hl
        exact (Option.some.inj hl).symm
      rw [hd] at hd'
      cases hd'
    | @evicted connection' outcome' hl' hne' hoffers' hd' hconnection' =>
      exact ⟨hconnection.trans hconnection'.symm, hchannel, fun hl => absurd hconnection hl⟩

/-- The schedules of the two rounds only differ in what the receiver of `d` does. -/
structure Agrees (d : ConnectionId) (r₁ r₂ : Round) : Prop where
  message : r₁.message = r₂.message
  early : ∀ c, c ≠ d → opsOf c r₁.early = opsOf c r₂.early
  late : ∀ c, c ≠ d → opsOf c r₁.late = opsOf c r₂.late

/-- One round looks the same to a connection in both runs. -/
theorem round_alike {r₁ r₂ : Round} {p₁ p₂ : Played} (hc : c ≠ d) (hagrees : Agrees d r₁ r₂)
    (hf₁ : Filled s₁.routes) (hf₂ : Filled s₂.routes) (halike : Alike c s₁ s₂)
    (h₁ : (serve config p₁.call p₁.order (.dispatch r₁.message)).Exec poll s₁ p₁.trace
      p₁.response p₁.after)
    (h₂ : (serve config p₂.call p₂.order (.dispatch r₂.message)).Exec poll s₂ p₂.trace
      p₂.response p₂.after)
    (hk₁ : r₁.KeptBy c p₁.trace) (hk₂ : r₂.KeptBy c p₂.trace) :
    offersIn c p₁.trace = offersIn c p₂.trace ∧ Alike c p₁.after p₂.after ∧
      Filled p₁.after.routes ∧ Filled p₂.after.routes := by
  obtain ⟨hreplays₁, events₁, hhistory₁, hoffers₁⟩ := exec_view h₁ c
  obtain ⟨hreplays₂, events₂, hhistory₂, hoffers₂⟩ := exec_view h₂ c
  obtain ⟨events₁', heq₁, heffect₁, hfilled₁⟩ := exec_serve_dispatch hf₁ h₁ c
  obtain ⟨events₂', heq₂, heffect₂, hfilled₂⟩ := exec_serve_dispatch hf₂ h₂ c
  obtain rfl : events₁ = events₁' := List.append_cancel_left (hhistory₁.symm.trans heq₁)
  obtain rfl : events₂ = events₂' := List.append_cancel_left (hhistory₂.symm.trans heq₂)
  rw [hoffers₁] at heffect₁
  rw [hoffers₂] at heffect₂
  obtain ⟨offers₁, hview₁⟩ := hk₁
  obtain ⟨offers₂, hview₂⟩ := hk₂
  rw [offersIn_of_keptBy hview₁] at heffect₁
  rw [offersIn_of_keptBy hview₂, ← hagrees.message] at heffect₂
  have hdeliveries := Effect.deliveries_eq halike heffect₁ heffect₂
  have herase : (view c p₁.trace).map Sight.erase = (view c p₂.trace).map Sight.erase := by
    rw [erase_of_keptBy hview₁, erase_of_keptBy hview₂, hagrees.early c hc, hagrees.late c hc,
      hdeliveries]
  rw [halike.channel] at hreplays₁
  obtain ⟨hsame, hchannel⟩ := replays_unique herase hreplays₁ hreplays₂
  have hoffers : offers₁ = offers₂ := by
    rw [← offersIn_of_keptBy hview₁, ← offersIn_of_keptBy hview₂, hsame]
  refine ⟨by rw [offersIn, offersIn, hsame], ?_, hfilled₁, hfilled₂⟩
  rw [← hoffers] at heffect₂
  exact Effect.alike halike heffect₁ heffect₂ hchannel

/-- What a connection has to tell of a round: what it was offered and with what outcome, its queue
with everything ever received, and whether it is still there. -/
structure SameFor (c : ConnectionId) (p₁ p₂ : Played) : Prop where
  offers : offersIn c p₁.trace = offersIn c p₂.trace
  channel : p₁.after.channels.lookup c = p₂.after.channels.lookup c
  connection : p₁.after.connections.lookup c = p₂.after.connections.lookup c

theorem plays_alike {rounds₁ rounds₂ : List Round} {played₁ played₂ : List Played} (hc : c ≠ d)
    (hagree : List.Forall₂ (Agrees d) rounds₁ rounds₂) (hf₁ : Filled s₁.routes)
    (hf₂ : Filled s₂.routes) (halike : Alike c s₁ s₂) (h₁ : Plays config s₁ rounds₁ played₁)
    (h₂ : Plays config s₂ rounds₂ played₂) : List.Forall₂ (SameFor c) played₁ played₂ := by
  induction hagree generalizing s₁ s₂ played₁ played₂ with
  | nil =>
    cases played₁ with
    | nil =>
      cases played₂ with
      | nil => exact .nil
      | cons p played => exact h₂.elim
    | cons p played => exact h₁.elim
  | cons hround _ ih =>
    cases played₁ with
    | nil => exact h₁.elim
    | cons p₁ played₁ =>
      cases played₂ with
      | nil => exact h₂.elim
      | cons p₂ played₂ =>
        obtain ⟨hexec₁, hkept₁, hrest₁⟩ := h₁
        obtain ⟨hexec₂, hkept₂, hrest₂⟩ := h₂
        obtain ⟨hoffers, halike', hf₁', hf₂'⟩ :=
          round_alike hc hround hf₁ hf₂ halike hexec₁ hexec₂ (hkept₁ c) (hkept₂ c)
        exact .cons ⟨hoffers, halike'.channel, halike'.connection⟩
          (ih hf₁' hf₂' halike' hrest₁ hrest₂)

end Isolation

/-- A slow or closed consumer cannot affect anyone else: in two runs of the same dispatches from the
same router, whose schedules only differ in what the receiver of `d` does, every other connection is
offered the same deliveries with the same outcomes, has the same queue after every round, and is
evicted in the same round or not at all. -/
theorem slow_consumer_isolated (config : RouterConfig) (s : Shared) (hs : Reachable config s)
    (d : ConnectionId) (rounds₁ rounds₂ : List Round)
    (hagree : List.Forall₂ (Agrees d) rounds₁ rounds₂) (played₁ played₂ : List Played)
    (h₁ : Plays config s rounds₁ played₁) (h₂ : Plays config s rounds₂ played₂)
    (c : ConnectionId) (hc : c ≠ d) : List.Forall₂ (SameFor c) played₁ played₂ :=
  plays_alike hc hagree hs.inv.base.filled hs.inv.base.filled ⟨rfl, rfl, fun _ _ => rfl⟩ h₁ h₂

/-- Two connections of one tenant, both subscribed to everything. -/
def pairState : Shared :=
  stateAfter {} (sequentially ⟨7⟩ 0 [(.register "acme" .sse none, 8),
      (.subscribe ⟨7⟩ ⟨"s"⟩ acmeFilter, 10)] ++
    sequentially ⟨8⟩ 2 [(.register "acme" .sse none, 8),
      (.subscribe ⟨8⟩ ⟨"s"⟩ acmeFilter, 10)])

theorem view_of_own {c : ConnectionId} {l : List (Entry (ConnectionId × ReceiverOp) Shared)}
    (h : ∀ e ∈ l, ∃ before after, e = .own before after) :
    ∃ offers : List (Delivery × SendOutcome), view c l = offers.map .ofOffer := by
  induction l with
  | nil => exact ⟨[], rfl⟩
  | cons e l ih =>
    obtain ⟨before, after, rfl⟩ := h e (List.mem_cons_self ..)
    obtain ⟨offers, hoffers⟩ := ih fun e' he' => h e' (List.mem_cons_of_mem _ he')
    refine ⟨offersTo c (after.history.drop before.history.length) ++ offers, ?_⟩
    rw [List.map_append, ← hoffers]
    rfl

theorem exec_late {α : Type} {p : RouterProg α} {s s' : Shared}
    {l : List (Entry (ConnectionId × ReceiverOp) Shared)} {a : α} (h : p.Exec poll s l a s')
    (late : List (ConnectionId × ReceiverOp)) :
    p.Exec poll s (l ++ late.map .env) a (late.foldl (fun s o => poll o s) s') := by
  induction late generalizing l s' with
  | nil => rwa [List.map_nil, List.append_nil]
  | cons o late ih =>
    rw [List.map_cons, List.append_cons]
    exact ih (h.concat o)

theorem view_late (c : ConnectionId) (late : List (ConnectionId × ReceiverOp)) :
    view c (late.map .env) = (opsOf c late).map .op := by
  induction late with
  | nil => rfl
  | cons o late ih =>
    have hview : view c (.env o :: late.map .env) = sights c (.env o) ++ view c (late.map .env) :=
      List.flatMap_cons
    rw [List.map_cons, hview, ih]
    by_cases hc : o.1 = c
    · simp [sights, opsOf, hc]
    · simp [sights, opsOf, hc]

def dispatched (n : ℕ) (s : Shared) : Response × Shared :=
  ((serve {} ⟨n, 0⟩ .listed (.dispatch acmeMessage)).run (fun _ => ⟨7⟩) s).getD (.unregistered, s)

def Undisturbed (n : ℕ) (s : Shared) : Prop :=
  ((serve {} ⟨n, 0⟩ .listed (.dispatch acmeMessage)).run (fun _ => ⟨7⟩) s).isSome = true

def playedRound (n : ℕ) (s : Shared) (late : List (ConnectionId × ReceiverOp)) : Shared :=
  late.foldl (fun s o => poll o s) (dispatched n s).2

theorem plays_cons {n : ℕ} {s : Shared} (late : List (ConnectionId × ReceiverOp))
    (h : Undisturbed n s) {rounds : List Round} {played : List Played}
    (hrest : Plays {} (playedRound n s late) rounds played) :
    ∃ trace, Plays {} s (⟨acmeMessage, [], late⟩ :: rounds)
      (⟨⟨n, 0⟩, .listed, trace, (dispatched n s).1, playedRound n s late⟩ :: played) := by
  have hrun : (serve {} ⟨n, 0⟩ .listed (.dispatch acmeMessage)).run (fun _ => ⟨7⟩) s =
      some ((dispatched n s).1, (dispatched n s).2) := by
    obtain ⟨result, hresult⟩ := Option.isSome_iff_exists.mp h
    rw [dispatched, hresult, Option.getD_some]
  obtain ⟨l, hexec, hown⟩ : ∃ l, (serve {} ⟨n, 0⟩ .listed (.dispatch acmeMessage)).Exec poll s l
      (dispatched n s).1 (dispatched n s).2 ∧ ∀ e ∈ l, ∃ before after, e = .own before after :=
    Prog.exec_of_run hrun
  refine ⟨l ++ late.map .env, exec_late hexec late, fun c => ?_, hrest⟩
  obtain ⟨offers, hview⟩ := view_of_own (c := c) hown
  refine ⟨offers, ?_⟩
  have happend : view c (l ++ late.map .env) = view c l ++ view c (late.map .env) :=
    List.flatMap_append
  rw [happend, hview, view_late]
  rfl

def pairStates (late : List (ConnectionId × ReceiverOp)) : List Shared :=
  let first := playedRound 9 pairState late
  let second := playedRound 10 first []
  [first, second, playedRound 11 second []]

def pairRounds (late : List (ConnectionId × ReceiverOp)) : List Round :=
  [⟨acmeMessage, [], late⟩, ⟨acmeMessage, [], []⟩, ⟨acmeMessage, [], []⟩]

theorem plays_pair (late : List (ConnectionId × ReceiverOp)) (h₁ : Undisturbed 9 pairState)
    (h₂ : Undisturbed 10 (playedRound 9 pairState late))
    (h₃ : Undisturbed 11 (playedRound 10 (playedRound 9 pairState late) [])) :
    ∃ played, Plays {} pairState (pairRounds late) played ∧
      played.map Played.after = pairStates late := by
  have hnone : ∀ s, Plays {} s [] [] := fun _ => trivial
  obtain ⟨_, hthird⟩ := plays_cons [] h₃ (hnone _)
  obtain ⟨_, hsecond⟩ := plays_cons [] h₂ hthird
  obtain ⟨_, hfirst⟩ := plays_cons late h₁ hsecond
  exact ⟨_, hfirst, rfl⟩

/-- The receiver of one connection does nothing, or closes after the first of three dispatches, so
that the connection is evicted by the second; the other one cannot tell. -/
theorem slow_consumer_isolated_pair : ∃ played₁ played₂ : List Played,
    Plays {} pairState (pairRounds []) played₁ ∧
    Plays {} pairState (pairRounds [(⟨8⟩, .close)]) played₂ ∧
    (played₁.map Played.after).map (fun s => decide (⟨8⟩ ∈ s.connections)) = [true, true, true] ∧
    (played₂.map Played.after).map (fun s => decide (⟨8⟩ ∈ s.connections)) =
      [true, false, false] ∧
    List.Forall₂ (SameFor ⟨7⟩) played₁ played₂ := by
  obtain ⟨played₁, h₁, hafter₁⟩ := plays_pair [] rfl rfl rfl
  obtain ⟨played₂, h₂, hafter₂⟩ := plays_pair [(⟨8⟩, .close)] rfl rfl rfl
  have hclosed : Agrees ⟨8⟩ ⟨acmeMessage, [], []⟩ ⟨acmeMessage, [], [(⟨8⟩, .close)]⟩ :=
    ⟨rfl, fun _ _ => rfl, fun c hc => by simp [opsOf, Ne.symm hc]⟩
  have hsame : Agrees ⟨8⟩ ⟨acmeMessage, [], []⟩ ⟨acmeMessage, [], []⟩ :=
    ⟨rfl, fun _ _ => rfl, fun _ _ => rfl⟩
  refine ⟨played₁, played₂, h₁, h₂, by rw [hafter₁]; rfl, by rw [hafter₂]; rfl, ?_⟩
  exact slow_consumer_isolated {} pairState (reachable_stateAfter rfl) ⟨8⟩ _ _
    (.cons hclosed (.cons hsame (.cons hsame .nil))) _ _ h₁ h₂ ⟨7⟩ (by decide)

end KafkaEdgeRouter.Router
