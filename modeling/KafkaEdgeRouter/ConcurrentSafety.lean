import KafkaEdgeRouter.RouterCalls

/-!
# Safety of concurrent calls

What holds in every state that any number of calls reach in any interleaving: whenever no mutation
is in progress the route index mirrors the subscriptions, and every delivery that a dispatch put on
a queue is for a subscription of the right tenant that was not removed before the dispatch began.
-/

namespace KafkaEdgeRouter.Router

open History InvertedIndex

def sequentially (input : ConnectionId) : ℕ → List (Request × ℕ) →
    List (Move (HashOrder × Request) ConnectionId)
  | _, [] => []
  | t, (request, accesses) :: rest =>
    .spawn (.listed, request) :: List.replicate accesses (.act t input) ++
      sequentially input (t + 1) rest

def stateAfter (config : RouterConfig) (moves : List (Move (HashOrder × Request) ConnectionId)) :
    Shared :=
  ((Calls.start.run (thread config) moves).getD Calls.start).shared

theorem reachable_stateAfter {config : RouterConfig}
    {moves : List (Move (HashOrder × Request) ConnectionId)}
    (h : (Calls.start.run (thread config) moves).isSome = true) :
    Reachable config (stateAfter config moves) := by
  obtain ⟨P, hP⟩ := Option.isSome_iff_exists.mp h
  exact ⟨P, ⟨moves, hP⟩, by rw [stateAfter, hP]; rfl⟩

def acmeFilter : RouteFilter := ⟨"acme", none, none, none, none, none, none⟩

def acmeMessage : RoutedMessage where
  metadata := ⟨"m1", "acme", none, none, none, none, none, none, "text/plain", none, none⟩
  payload := []
  traceContext := none
  valid := by decide

/-- One tenant registers a connection and subscribes it to everything; a message is dispatched. -/
def acmeState : Shared :=
  stateAfter {} (sequentially ⟨7⟩ 0 [(.register "acme" .sse none, 8),
    (.subscribe ⟨7⟩ ⟨"s"⟩ acmeFilter, 10), (.dispatch acmeMessage, 6)])

theorem reachable_acmeState : Reachable {} acmeState := reachable_stateAfter rfl

/-- Whenever the mutation lock is free the route index holds exactly the subscriptions of the
registered connections, each once under the key of its filter, and nothing empty. -/
theorem routes_mirror_subscriptions (config : RouterConfig) (s : Shared)
    (hs : Reachable config s) (hfree : s.mutationLock = none) :
    (∀ k c sid, sid ∈ items s.routes k c ↔ ∃ connection filter,
      s.connections.lookup c = some connection ∧
      connection.subscriptions.lookup sid = some filter ∧ RouteKey.ofFilter filter = k) ∧
    (∀ k c, (items s.routes k c).Nodup) ∧
    (∀ k bucket, s.routes.lookup k = some bucket → bucket ≠ ∅ ∧
      ∀ c ids, bucket.lookup c = some ids → ids ≠ []) ∧
    (s.connections = ∅ → s.routes = ∅) := by
  have hR : s.registry.Consistent := (hs.inv.reachable hfree).consistent
  refine ⟨fun k c sid => ?_, hR.nodup, fun k bucket hb =>
    ⟨hR.tidy.bucket_ne k bucket hb, fun c ids => hR.tidy.filled k bucket c ids hb⟩,
    fun hempty => hR.routes_eq_empty ?_⟩
  · refine (hR.mem_iff k c sid).trans ?_
    constructor
    · rintro ⟨filter, ⟨r, hr, hf⟩, hk⟩
      rw [registry_lookup] at hr
      obtain ⟨connection, hl, rfl⟩ := Option.map_eq_some_iff.mp hr
      exact ⟨connection, filter, hl, hf, hk⟩
    · rintro ⟨connection, filter, hl, hf, hk⟩
      refine ⟨filter, ⟨connection.toRegistration, ?_, hf⟩, hk⟩
      rw [registry_lookup, hl]
      rfl
  · simp only [Shared.registry, hempty, AList.mapValues_empty]

theorem routes_mirror_subscriptions_acme : acmeState.mutationLock = none ∧
    (⟨"s"⟩ ∈ items acmeState.routes (RouteKey.ofFilter acmeFilter) ⟨7⟩ ↔
      ∃ connection filter, acmeState.connections.lookup ⟨7⟩ = some connection ∧
        connection.subscriptions.lookup ⟨"s"⟩ = some filter ∧
        RouteKey.ofFilter filter = RouteKey.ofFilter acmeFilter) ∧
    items acmeState.routes (RouteKey.ofFilter acmeFilter) ⟨7⟩ = [⟨"s"⟩] :=
  ⟨rfl, (routes_mirror_subscriptions {} acmeState reachable_acmeState rfl).1 _ _ _, rfl⟩

theorem Base.reports_ok {s : Shared} (hB : Base s) {subscriber : CallId} {c : ConnectionId}
    {sid : SubscriptionId} {filter : RouteFilter} {response : Response}
    (hsub : .subscribed subscriber c sid filter ∈ s.history)
    (hret : .returned subscriber response ∈ s.history) : response = .settled (.ok ()) := by
  obtain ⟨before, after, heq, hreturned⟩ := hB.justified.of_mem hret
  rw [heq] at hsub
  rcases List.mem_append.mp hsub with hsub | hsub
  · exact hreturned c sid filter hsub
  · have hafter : .subscribed subscriber c sid filter ∈ after := by simpa using hsub
    obtain ⟨mid, last, rfl⟩ := List.append_of_mem hafter
    have hsplit : s.history = (before ++ .returned subscriber response :: mid) ++
        .subscribed subscriber c sid filter :: last := by
      rw [heq]
      simp
    obtain ⟨_, hopen, _⟩ := hB.justified _ _ _ hsplit
    exact absurd (List.mem_append_right _ (List.mem_cons_self ..)) (hopen response)

theorem Base.tenant_unique {s : Shared} (hB : Base s) {registrar registrar' : CallId}
    {c : ConnectionId} {tenantId tenantId' : String}
    (h : .registered registrar c tenantId ∈ s.history)
    (h' : .registered registrar' c tenantId' ∈ s.history) : tenantId = tenantId' := by
  obtain ⟨before, after, heq, hfirst⟩ := hB.justified.of_mem h
  rw [heq] at h'
  rcases List.mem_append.mp h' with h' | h'
  · exact absurd h' (hfirst registrar' tenantId')
  · rcases List.mem_cons.mp h' with h' | h'
    · cases h'
      rfl
    · obtain ⟨mid, last, rfl⟩ := List.append_of_mem h'
      have hsplit : s.history = (before ++ .registered registrar c tenantId :: mid) ++
          .registered registrar' c tenantId' :: last := by
        rw [heq]
        simp
      exact absurd (List.mem_append_right _ (List.mem_cons_self ..))
        (hB.justified _ _ _ hsplit registrar tenantId)

/-- Dispatches racing mutations: a queue only holds deliveries of its tenant, one dispatch puts at
most one on it, every identifier in it leads to a subscription that a successful call made and whose
removal had not returned when the dispatch began, and the message is never missing. -/
theorem dispatch_racing_mutations (config : RouterConfig) (s : Shared)
    (hs : Reachable config s) :
    (∀ c channel delivery, s.channels.lookup c = some channel → delivery ∈ channel.log →
      (∃ registrar, .registered registrar c delivery.message.metadata.tenantId ∈ s.history) ∧
      ∀ registrar tenantId, .registered registrar c tenantId ∈ s.history →
        delivery.message.metadata.tenantId = tenantId) ∧
    (∀ c channel, s.channels.lookup c = some channel →
      channel.log = s.history.filterMap (Event.acceptedBy c)) ∧
    (∀ call c, (s.history.filter (Event.puts call c)).length ≤ 1) ∧
    (∀ before after call c delivery,
      s.history = before ++ .offered call c delivery .accepted :: after →
      .began call (.dispatch delivery.message) ∈ before ∧
      ∀ sid ∈ delivery.subscriptionIds, ∃ subscriber filter,
        filter.matches delivery.message.metadata = true ∧
        .began subscriber (.subscribe c sid filter) ∈ before ∧
        (∀ response, .returned subscriber response ∈ s.history → response = .settled (.ok ())) ∧
        (Standing (.subscribed subscriber c sid filter) (Event.ends c sid)
            (prior (Event.isBegan call) before) ∨
          .subscribed subscriber c sid filter ∈ since (Event.isBegan call) before)) ∧
    (∀ call text, .panicked call text ∉ s.history) := by
  have hB : Base s := hs.inv.base
  refine ⟨fun c channel delivery hl hmem => ?_, hB.log, fun call c => ?_,
    fun before after call c delivery heq => ?_, fun call text hmem => ?_⟩
  · rw [hB.log c channel hl] at hmem
    obtain ⟨e, he, haccepted⟩ := List.mem_filterMap.mp hmem
    obtain ⟨call, rfl⟩ := acceptedBy_eq_some haccepted
    obtain ⟨before, after, heq, _, _, ⟨registrar, hreg⟩, _⟩ := hB.justified.of_mem he
    have hreg' : .registered registrar c delivery.message.metadata.tenantId ∈ s.history := by
      rw [heq]
      exact List.mem_append_left _ hreg
    exact ⟨⟨registrar, hreg'⟩, fun registrar' tenantId h => hB.tenant_unique hreg' h⟩
  · refine hB.justified.filter_length_le_one (fun before e he hputs e' he' => ?_)
    have hinv : ∀ e, Event.puts call c e = true →
        ∃ delivery, e = .offered call c delivery .accepted := by
      intro e h
      unfold Event.puts at h
      split at h
      · obtain ⟨rfl, rfl⟩ := of_decide_eq_true h
        exact ⟨_, rfl⟩
      · cases h
    obtain ⟨delivery, rfl⟩ := hinv e hputs
    cases hputs' : Event.puts call c e' with
    | false => rfl
    | true =>
      obtain ⟨delivery', rfl⟩ := hinv e' hputs'
      exact absurd he' (he.2.1 delivery' .accepted)
  · obtain ⟨hbegan, _, _, hfound⟩ := hB.justified before _ after heq
    refine ⟨hbegan, fun sid hsid => ?_⟩
    obtain ⟨subscriber, filter, hmatch, hsub, hwhen⟩ := hfound sid hsid
    have hsub' : .subscribed subscriber c sid filter ∈ s.history := by
      rw [heq]
      exact List.mem_append_left _ hsub
    refine ⟨subscriber, filter, hmatch, ?_, fun response hret => hB.reports_ok hsub' hret, hwhen⟩
    obtain ⟨before', after', rfl⟩ := List.append_of_mem hsub
    rw [List.append_assoc, List.cons_append] at heq
    exact List.mem_append_left _ (hB.justified before' _ _ heq).1
  · obtain ⟨_, _, _, hfalse⟩ := hB.justified.of_mem hmem
    exact hfalse

/-- The dispatch has collected its candidates when the only subscription is removed, and makes its
offer when the removal has returned. -/
def racingState : Shared :=
  stateAfter {} (sequentially ⟨7⟩ 0 [(.register "acme" .sse none, 8),
      (.subscribe ⟨7⟩ ⟨"s"⟩ acmeFilter, 10)] ++
    .spawn (.listed, .dispatch acmeMessage) :: List.replicate 3 (.act 2 ⟨7⟩) ++
    .spawn (.listed, .unsubscribe ⟨7⟩ ⟨"s"⟩) :: List.replicate 8 (.act 3 ⟨7⟩) ++
    List.replicate 3 (.act 2 ⟨7⟩))

theorem dispatch_racing_mutations_acme : ∃ before after,
    racingState.history =
      before ++ .offered ⟨2, 0⟩ ⟨7⟩ ⟨acmeMessage, [⟨"s"⟩]⟩ .accepted :: after ∧
    .returned ⟨3, 0⟩ (.settled (.ok ())) ∈ before ∧ racingState.routes = ∅ ∧
    (∃ subscriber filter, filter.matches acmeMessage.metadata = true ∧
      (Standing (.subscribed subscriber ⟨7⟩ ⟨"s"⟩ filter) (Event.ends ⟨7⟩ ⟨"s"⟩)
          (prior (Event.isBegan ⟨2, 0⟩) before) ∨
        .subscribed subscriber ⟨7⟩ ⟨"s"⟩ filter ∈ since (Event.isBegan ⟨2, 0⟩) before)) ∧
    ∀ call c, (racingState.history.filter (Event.puts call c)).length ≤ 1 := by
  have hracing := dispatch_racing_mutations {} racingState (reachable_stateAfter rfl)
  have hhistory : racingState.history = racingState.history.take 10 ++
      .offered ⟨2, 0⟩ ⟨7⟩ ⟨acmeMessage, [⟨"s"⟩]⟩ .accepted :: racingState.history.drop 11 := rfl
  obtain ⟨_, hids⟩ := hracing.2.2.2.1 _ _ _ _ _ hhistory
  obtain ⟨subscriber, filter, hmatch, _, _, hwhen⟩ := hids ⟨"s"⟩ List.mem_cons_self
  refine ⟨_, _, hhistory, ?_, rfl, ⟨subscriber, filter, hmatch, hwhen⟩, hracing.2.2.1⟩
  exact List.mem_of_getElem? (i := 9) rfl

end KafkaEdgeRouter.Router
