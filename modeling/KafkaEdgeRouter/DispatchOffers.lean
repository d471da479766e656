import KafkaEdgeRouter.DispatchCollect

/-!
# Offering a message

The second half of a dispatch: the matching connections are offered the message one by one, and the
ones that are closed or too slow are unregistered. Every offer is accounted for by the history. The
call's report counts every matching connection once. A connection that nobody else touches is
offered the message exactly once when it matches, and is otherwise left alone.
-/

namespace KafkaEdgeRouter.Router

open History InvertedIndex

section Step

variable {config : RouterConfig} {call : CallId} {message : RoutedMessage} {c : ConnectionId}
  {ids : List SubscriptionId} {s : Shared}

/-- The state that an offer leaves behind. -/
def afterOffer (call : CallId) (c : ConnectionId) (delivery : Delivery) (strikes : ℕ) (s : Shared) :
    Shared :=
  { s with
    connections := s.connections.modify c (fun connection =>
      { connection with fullStrikes := strikes })
    channels := s.channels.modify c (fun channel => (channel.trySend delivery).2)
    history := s.history ++ [.offered call c delivery (trySend c delivery s).1] }

theorem offer_none (last : Bool) (message : Option RoutedMessage)
    (hl : s.connections.lookup c = none) :
    offer config call last message c ids s = (.gone, s) := by
  simp only [offer, hl]

theorem offer_some (last : Bool) {connection : ConnectionState}
    (hl : s.connections.lookup c = some connection) :
    offer config call last (some message) c ids s =
      (.sent (trySend c ⟨message, ids⟩ s).1 (disconnects config (trySend c ⟨message, ids⟩ s).1
        (strikesAfter (trySend c ⟨message, ids⟩ s).1 connection.fullStrikes)),
        afterOffer call c ⟨message, ids⟩
          (strikesAfter (trySend c ⟨message, ids⟩ s).1 connection.fullStrikes) s) := by
  simp only [offer, hl]
  rfl

theorem registry_afterOffer (delivery : Delivery) (strikes : ℕ) :
    (afterOffer call c delivery strikes s).registry = s.registry := by
  simp only [Shared.registry, afterOffer]
  rw [AList.mapValues_modify_of_eq]
  intro connection
  rfl

theorem same_afterOffer (delivery : Delivery) (strikes : ℕ) {c' : ConnectionId} (hne : c' ≠ c) :
    Same c' s (afterOffer call c delivery strikes s) :=
  ⟨AList.lookup_modify_ne hne _ _, AList.lookup_modify_ne hne _ _, fun _ => rfl⟩

theorem base_afterOffer (hB : Base s) {delivery : Delivery} (strikes : ℕ)
    (haccount : Account s.history (.offered call c delivery (trySend c delivery s).1)) :
    Base (afterOffer call c delivery strikes s) := by
  have hconn : Base { s with connections := s.connections.modify c (fun connection =>
      { connection with fullStrikes := strikes }) } := by
    apply hB.connections
    intro c' connection' hl
    rw [AList.lookup_modify] at hl
    obtain ⟨connection, hl', rfl⟩ := Option.map_eq_some_iff.mp hl
    exact ⟨connection, hl', by split_ifs <;> rfl⟩
  refine ⟨fun c' hc' => (AList.mem_modify ..).mpr (hconn.channel_of_connection c' hc'),
    fun registrar c' tenantId hmem => (AList.mem_modify ..).mpr ?_, fun c' connection hl => ?_,
    hB.filled, fun k c' sid hmem => ?_, justified_concat.mpr ⟨hB.justified, haccount⟩,
    fun c' channel' hl => ?_⟩
  · refine hB.channel_of_registered registrar c' tenantId ?_
    simpa [afterOffer] using hmem
  · obtain ⟨registrar, hmem⟩ := hconn.registered c' connection hl
    exact ⟨registrar, List.mem_append_left _ hmem⟩
  · obtain ⟨subscriber, filter, hk, hvalid, hst⟩ := hB.live k c' sid hmem
    exact ⟨subscriber, filter, hk, hvalid, hst.append (by simp [Event.ends])⟩
  · simp only [afterOffer] at hl ⊢
    rw [AList.lookup_modify] at hl
    obtain ⟨channel, hl', rfl⟩ := Option.map_eq_some_iff.mp hl
    rw [List.filterMap_append, ← hB.log c' channel hl']
    by_cases hcc : c' = c
    · subst c'
      rw [if_pos rfl, Channel.log_trySend]
      have hout : (trySend c delivery s).1 = (channel.trySend delivery).1 := by
        simp only [trySend, hl']
      rw [hout]
      cases (channel.trySend delivery).1 <;> simp [Event.acceptedBy]
    · have hnone : Event.acceptedBy c' (.offered call c delivery (trySend c delivery s).1) =
          none := by
        cases (trySend c delivery s).1 <;> simp [Event.acceptedBy, Ne.symm hcc]
      simp [if_neg hcc, hnone]

end Step

theorem mem_offersTo {call : CallId} {c : ConnectionId} {delivery : Delivery}
    {outcome : SendOutcome} {events : List Event} (h : .offered call c delivery outcome ∈ events) :
    (delivery, outcome) ∈ offersTo c events :=
  List.mem_filterMap.mpr ⟨_, h, by simp [Event.offeredTo]⟩

theorem offersTo_append (c : ConnectionId) (events events' : List Event) :
    offersTo c (events ++ events') = offersTo c events ++ offersTo c events' :=
  List.filterMap_append ..

theorem offersTo_self (call : CallId) (c : ConnectionId) (delivery : Delivery)
    (outcome : SendOutcome) :
    offersTo c [.offered call c delivery outcome] = [(delivery, outcome)] := by
  simp [offersTo, Event.offeredTo]

theorem offersTo_ne (call : CallId) {c c' : ConnectionId} (hne : c' ≠ c) (delivery : Delivery)
    (outcome : SendOutcome) : offersTo c' [.offered call c delivery outcome] = [] := by
  simp [offersTo, Event.offeredTo, hne.symm]

theorem trySend_congr {c : ConnectionId} {s s' : Shared} (h : Same c s s') (delivery : Delivery) :
    (trySend c delivery s').1 = (trySend c delivery s).1 := by
  simp only [trySend, h.channel]

theorem Same.afterOffer {call : CallId} {c : ConnectionId} {s s' : Shared} (h : Same c s s')
    (delivery : Delivery) (strikes : ℕ) :
    Same c (afterOffer call c delivery strikes s) (afterOffer call c delivery strikes s') := by
  refine ⟨?_, ?_, h.items⟩
  · simp only [Router.afterOffer, AList.lookup_modify_self, h.connection]
  · simp only [Router.afterOffer, AList.lookup_modify_self, h.channel]

/-- The connection was offered the message once, as its state at the start decides. -/
def Served (config : RouterConfig) (call : CallId) (message : RoutedMessage) (s₀ s₁ : Shared)
    (offers : List Event) (disconnect : List ConnectionId) (c : ConnectionId)
    (ids : List SubscriptionId) : Prop :=
  ∀ connection, s₀.connections.lookup c = some connection →
    offersTo c offers = [(⟨message, ids⟩, (trySend c ⟨message, ids⟩ s₀).1)] ∧
    Same c (afterOffer call c ⟨message, ids⟩
      (strikesAfter (trySend c ⟨message, ids⟩ s₀).1 connection.fullStrikes) s₀) s₁ ∧
    (c ∈ disconnect ↔ disconnects config (trySend c ⟨message, ids⟩ s₀).1
      (strikesAfter (trySend c ⟨message, ids⟩ s₀).1 connection.fullStrikes) = true)

/-- The fan-out loop has gone through `done`. The state `s₁` is one it has met; the connections in
`D` have not changed since. -/
structure Progress (config : RouterConfig) (call : CallId) (message : RoutedMessage)
    (D : ConnectionId → Prop) (s₀ : Shared) (matched : ℕ)
    (done : List (ConnectionId × List SubscriptionId)) (offers : List Event)
    (report : DispatchReport) (disconnect : List ConnectionId) (s₁ : Shared) : Prop where
  matched : report.matchedSubscriptions = matched
  total : report.deliveredConnections + report.fullConnections + report.closedConnections =
    done.length
  events : ∀ e ∈ offers, ∃ c delivery outcome, e = .offered call c delivery outcome
  spared : ∀ c, c ∉ done.map Prod.fst → offersTo c offers = [] ∧ c ∉ disconnect
  kept : ∀ c, D c → c ∉ done.map Prod.fst → Same c s₀ s₁
  served : ∀ c ids, D c → (c, ids) ∈ done → Served config call message s₀ s₁ offers disconnect c ids

section Progress

variable {config : RouterConfig} {call : CallId} {message : RoutedMessage}
  {D : ConnectionId → Prop} {s₀ s₁ s : Shared} {matched : ℕ}
  {done : List (ConnectionId × List SubscriptionId)} {offers : List Event}
  {report : DispatchReport} {disconnect : List ConnectionId} {c : ConnectionId}
  {ids : List SubscriptionId}

theorem progress_start : Progress config call message D s₀ matched [] []
    { matchedSubscriptions := matched } [] s₀ :=
  ⟨rfl, rfl, by simp, fun _ _ => ⟨rfl, List.not_mem_nil⟩, fun c _ _ => Same.refl c s₀, by simp⟩

theorem record_total (outcome : SendOutcome) (report : DispatchReport) :
    (report.record outcome).deliveredConnections + (report.record outcome).fullConnections +
        (report.record outcome).closedConnections =
      report.deliveredConnections + report.fullConnections + report.closedConnections + 1 := by
  cases outcome <;> simp only [DispatchReport.record] <;> omega

theorem record_matched (outcome : SendOutcome) (report : DispatchReport) :
    (report.record outcome).matchedSubscriptions = report.matchedSubscriptions := by
  cases outcome <;> rfl

/-- A connection that has gone in the meantime counts as closed. -/
theorem Progress.gone
    (h : Progress config call message D s₀ matched done offers report disconnect s₁)
    (hk : Kept D s₁ s) (hnew : c ∉ done.map Prod.fst) (hl : s.connections.lookup c = none) :
    Progress config call message D s₀ matched (done ++ [(c, ids)]) offers (report.record .closed)
      disconnect s := by
  have hsplit : ∀ c', c' ∉ (done ++ [(c, ids)]).map Prod.fst → c' ∉ done.map Prod.fst :=
    fun c' hc' hmem => hc' (by simp only [List.map_append]; exact List.mem_append_left _ hmem)
  refine ⟨by rw [record_matched, h.matched], by rw [record_total, h.total]; simp, h.events,
    fun c' hc' => h.spared c' (hsplit c' hc'),
    fun c' hD hc' => (h.kept c' hD (hsplit c' hc')).trans (hk c' hD), fun c' ids' hD hmem => ?_⟩
  rcases List.mem_append.mp hmem with hmem | hmem
  · intro connection hconn
    obtain ⟨hoffers, hsame, hdisc⟩ := h.served c' ids' hD hmem connection hconn
    exact ⟨hoffers, hsame.trans (hk c' hD), hdisc⟩
  · obtain ⟨rfl, rfl⟩ := Prod.mk.inj (List.mem_singleton.mp hmem)
    intro connection hconn
    rw [((h.kept c' hD hnew).trans (hk c' hD)).connection, hconn] at hl
    cases hl

theorem Progress.sent
    (h : Progress config call message D s₀ matched done offers report disconnect s₁)
    (hk : Kept D s₁ s) (hnew : c ∉ done.map Prod.fst) {connection : ConnectionState}
    (hl : s.connections.lookup c = some connection) :
    Progress config call message D s₀ matched (done ++ [(c, ids)])
      (offers ++ [.offered call c ⟨message, ids⟩ (trySend c ⟨message, ids⟩ s).1])
      (report.record (trySend c ⟨message, ids⟩ s).1)
      (if disconnects config (trySend c ⟨message, ids⟩ s).1
        (strikesAfter (trySend c ⟨message, ids⟩ s).1 connection.fullStrikes) then disconnect ++ [c]
        else disconnect)
      (afterOffer call c ⟨message, ids⟩
        (strikesAfter (trySend c ⟨message, ids⟩ s).1 connection.fullStrikes) s) := by
  have hfst : (done ++ [(c, ids)]).map Prod.fst = done.map Prod.fst ++ [c] := by simp
  have hother : ∀ c', c' ≠ c → (c' ∈ (if disconnects config (trySend c ⟨message, ids⟩ s).1
        (strikesAfter (trySend c ⟨message, ids⟩ s).1 connection.fullStrikes) then disconnect ++ [c]
        else disconnect) ↔ c' ∈ disconnect) := by
    intro c' hne
    split_ifs
    · simp [hne]
    · rfl
  have hsplit : ∀ c', c' ∉ (done ++ [(c, ids)]).map Prod.fst → c' ∉ done.map Prod.fst ∧ c' ≠ c := by
    intro c' hc'
    rw [hfst, List.mem_append, not_or] at hc'
    exact ⟨hc'.1, fun heq => hc'.2 (List.mem_singleton.mpr heq)⟩
  refine ⟨by rw [record_matched, h.matched], by rw [record_total, h.total]; simp, fun e he => ?_,
    fun c' hc' => ?_, fun c' hD hc' => ?_, fun c' ids' hD hmem => ?_⟩
  · rcases List.mem_append.mp he with he | he
    · exact h.events e he
    · exact ⟨_, _, _, List.mem_singleton.mp he⟩
  · obtain ⟨hc', hne⟩ := hsplit c' hc'
    obtain ⟨hoffers, hdisc⟩ := h.spared c' hc'
    rw [offersTo_append, hoffers, offersTo_ne call hne]
    exact ⟨rfl, fun hmem => hdisc ((hother c' hne).mp hmem)⟩
  · obtain ⟨hc', hne⟩ := hsplit c' hc'
    exact ((h.kept c' hD hc').trans (hk c' hD)).trans (same_afterOffer _ _ hne)
  · rcases List.mem_append.mp hmem with hmem | hmem
    · have hne : c' ≠ c := fun heq => hnew (heq ▸ List.mem_map.mpr ⟨_, hmem, rfl⟩)
      intro connection' hconn
      obtain ⟨hoffers, hsame, hdisc⟩ := h.served c' ids' hD hmem connection' hconn
      rw [offersTo_append, hoffers, offersTo_ne call hne, List.append_nil, hother c' hne]
      exact ⟨rfl, (hsame.trans (hk c' hD)).trans (same_afterOffer _ _ hne), hdisc⟩
    · obtain ⟨rfl, rfl⟩ := Prod.mk.inj (List.mem_singleton.mp hmem)
      intro connection' hconn
      have hsame : Same c' s₀ s := (h.kept c' hD hnew).trans (hk c' hD)
      obtain rfl : connection = connection' := by
        rw [hsame.connection, hconn] at hl
        exact (Option.some.inj hl).symm
      obtain ⟨hoffers, hdisc⟩ := h.spared c' hnew
      rw [trySend_congr hsame, offersTo_append, hoffers, offersTo_self]
      refine ⟨rfl, hsame.afterOffer _ _, ?_⟩
      split_ifs with hd
      · simp [hd]
      · simp [hd, hdisc]

end Progress
end KafkaEdgeRouter.Router
