import KafkaEdgeRouter.ConcurrentSafety
import Mathlib.Data.List.Dedup

/-!
# Dispatch refines the reference matcher

A dispatch that no mutation interrupts. It never waits in vain, and it offers the message exactly to
the connections with a matching subscription, once each and with exactly the identifiers of their
matching subscriptions; its report counts them.
-/

namespace KafkaEdgeRouter.Router

open History InvertedIndex

section Completion

variable {config : RouterConfig} {call : CallId} {order : HashOrder} {s : Shared}

theorem completes_removeAllFromRoutes {α : Type} {Q : α → Shared → Prop} (c : ConnectionId)
    (l : List (SubscriptionId × RouteFilter)) {k : Unit → RouterProg α}
    (hk : ∀ s, (k ()).Completes Q s) : (removeAllFromRoutes c l >>= k).Completes Q s := by
  induction l generalizing s with
  | nil => exact hk s
  | cons e l ih =>
    rw [removeAllFromRoutes, Prog.bind_assoc, removeFromRoute, Prog.bind_assoc]
    exact Prog.completes_access (Prog.completes_access ih)

theorem completes_unregisterConnection (c : ConnectionId) (hfree : s.mutationLock = none) :
    (unregisterConnection call order c).Completes (fun _ s' => s'.mutationLock = none) s := by
  refine Prog.completes_await (fun _ => by simp [hfree]) (fun _ => ?_)
  have hend : ∀ (removed : Bool) (s : Shared), (unlock
        (if removed then [.removalReturned call c none] else []) >>= fun _ =>
          (pure removed : RouterProg Bool)).Completes (fun _ s' => s'.mutationLock = none) s :=
    fun removed s => Prog.completes_access rfl
  rw [unregisterLocked, Prog.bind_assoc]
  refine Prog.completes_access ?_
  split
  · exact hend _ _
  · rw [Prog.bind_assoc]
    refine completes_removeAllFromRoutes c _ (fun s => ?_)
    rw [Prog.bind_assoc]
    exact Prog.completes_access (hend _ _)

theorem completes_disconnectAll (l : List ConnectionId) (hfree : s.mutationLock = none) :
    (disconnectAll call order l).Completes (fun _ s' => s'.mutationLock = none) s := by
  induction l generalizing s with
  | nil => exact hfree
  | cons c l ih =>
    refine Prog.completes_access (Prog.completes_bind ?_)
    exact Prog.completes_mono (completes_unregisterConnection c hfree) (fun _ s' h => ih h)

theorem completes_collectCandidates (keys : List RouteKey) (found : Matches) :
    (collectCandidates keys found).Completes (fun _ s' => s' = s) s := by
  induction keys generalizing found with
  | nil => rfl
  | cons k keys ih =>
    refine Prog.completes_access ?_
    split
    · exact ih found
    · exact ih _

theorem offer_lock (last : Bool) (message : Option RoutedMessage) (c : ConnectionId)
    (ids : List SubscriptionId) :
    (offer config call last message c ids s).2.mutationLock = s.mutationLock := by
  unfold offer
  split
  · rfl
  · split <;> rfl

theorem completes_offerAll {count index : ℕ} {message : Option RoutedMessage}
    {report : DispatchReport} {disconnect : List ConnectionId}
    (rest : List (ConnectionId × List SubscriptionId)) (hfree : s.mutationLock = none) :
    (offerAll config call count index message report disconnect rest).Completes
      (fun _ s' => s'.mutationLock = none) s := by
  induction rest generalizing index message report disconnect s with
  | nil => exact hfree
  | cons e rest ih =>
    rw [offerAll]
    refine Prog.completes_access ?_
    have hfree' : (offer config call (index + 1 == count) message e.1 e.2 s).2.mutationLock =
        none := (offer_lock _ message e.1 e.2).trans hfree
    split
    · exact ih hfree'
    · exact hfree'
    · exact ih hfree'

/-- Alone, a dispatch never waits in vain. -/
theorem completes_serve_dispatch (message : RoutedMessage) (hfree : s.mutationLock = none) :
    (serve config call order (.dispatch message)).Completes (fun _ _ => True) s := by
  refine Prog.completes_access (Prog.completes_bind (Prog.completes_bind ?_))
  refine Prog.completes_access (Prog.completes_bind ?_)
  refine Prog.completes_mono (completes_collectCandidates _ ∅) ?_
  rintro found s₁ rfl
  refine Prog.completes_bind (Prog.completes_mono (completes_offerAll _ hfree) ?_)
  intro result s₂ hfree₂
  have hend : ∀ (result : Except String DispatchReport) (s : Shared),
      (Prog.ret result : RouterProg _).Completes (fun result s =>
        (pure (.dispatched result) : RouterProg Response).Completes (fun response s =>
          (Prog.modify (Shared.log [.returned call response]) >>= fun _ =>
            (pure response : RouterProg Response)).Completes (fun _ _ => True) s) s) s :=
    fun result s => Prog.completes_access trivial
  split
  · exact hend _ _
  · refine Prog.completes_bind (Prog.completes_mono (completes_disconnectAll _ hfree₂) ?_)
    exact fun _ s₃ _ => Prog.completes_access (hend _ _)

end Completion

/-- The connection has the subscription, and its filter matches the message. -/
def Matched (s : Shared) (message : RoutedMessage) (c : ConnectionId) (sid : SubscriptionId) :
    Prop :=
  ∃ connection filter, s.connections.lookup c = some connection ∧
    connection.subscriptions.lookup sid = some filter ∧ filter.matches message.metadata = true

def matchingPairs (s : Shared) (message : RoutedMessage) : List (ConnectionId × SubscriptionId) :=
  s.connections.pairs.flatMap (fun e =>
    ((e.2.subscriptions.pairs.filter (fun f => f.2.matches message.metadata)).map Prod.fst).map
      (fun sid => (e.1, sid)))

def matchingConnections (s : Shared) (message : RoutedMessage) : List ConnectionId :=
  (s.connections.pairs.filter (fun e =>
    e.2.subscriptions.pairs.any (fun f => f.2.matches message.metadata))).map Prod.fst

section Matching

variable {config : RouterConfig} {s : Shared} {message : RoutedMessage}

theorem mem_matchingPairs {c : ConnectionId} {sid : SubscriptionId} :
    (c, sid) ∈ matchingPairs s message ↔ Matched s message c sid := by
  simp only [matchingPairs, List.mem_flatMap, List.mem_map, List.mem_filter, Prod.mk.injEq]
  constructor
  · rintro ⟨⟨c', connection⟩, hc, sid', ⟨⟨_, filter⟩, ⟨hf, hm⟩, rfl⟩, rfl, rfl⟩
    exact ⟨connection, filter, AList.mem_pairs.mp hc, AList.mem_pairs.mp hf, hm⟩
  · rintro ⟨connection, filter, hc, hf, hm⟩
    exact ⟨(c, connection), AList.mem_pairs.mpr hc, sid,
      ⟨(sid, filter), ⟨AList.mem_pairs.mpr hf, hm⟩, rfl⟩, rfl, rfl⟩

theorem mem_matchingConnections {c : ConnectionId} :
    c ∈ matchingConnections s message ↔ ∃ sid, Matched s message c sid := by
  simp only [matchingConnections, List.mem_map, List.mem_filter, List.any_eq_true]
  constructor
  · rintro ⟨⟨_, connection⟩, ⟨hc, ⟨sid, filter⟩, hf, hm⟩, rfl⟩
    exact ⟨sid, connection, filter, AList.mem_pairs.mp hc, AList.mem_pairs.mp hf, hm⟩
  · rintro ⟨sid, connection, filter, hc, hf, hm⟩
    exact ⟨(c, connection), ⟨AList.mem_pairs.mpr hc, (sid, filter), AList.mem_pairs.mpr hf, hm⟩,
      rfl⟩

theorem nodup_matchingPairs : (matchingPairs s message).Nodup := by
  refine s.connections.nodup_flatMap_pairs (f := fun connection =>
    (connection.subscriptions.pairs.filter (fun f => f.2.matches message.metadata)).map Prod.fst) ?_
  intro e _
  exact e.2.subscriptions.nodup_pairs_fst.sublist ((List.filter_sublist).map Prod.fst)

theorem nodup_matchingConnections : (matchingConnections s message).Nodup :=
  s.connections.nodup_pairs_fst.sublist ((List.filter_sublist).map Prod.fst)

/-- On a consistent index, gathering under the candidate keys is matching. -/
theorem mem_gather_candidates (hR : s.registry.Consistent) {c : ConnectionId}
    {sid : SubscriptionId} :
    sid ∈ gather s.routes c (RouteKey.candidates message.metadata) ↔ Matched s message c sid := by
  rw [mem_gather]
  constructor
  · rintro ⟨k, hk, hmem⟩
    obtain ⟨filter, hsub, rfl⟩ := (hR.mem_iff k c sid).mp hmem
    have hmatch := (ofFilter_mem_candidates_iff (hR.valid c sid filter hsub) message).mp hk
    obtain ⟨r, hr, hf⟩ := hsub
    rw [registry_lookup] at hr
    obtain ⟨connection, hl, rfl⟩ := Option.map_eq_some_iff.mp hr
    exact ⟨connection, filter, hl, hf, hmatch⟩
  · rintro ⟨connection, filter, hl, hf, hmatch⟩
    have hsub : s.registry.Subscribed c sid filter :=
      ⟨connection.toRegistration, by rw [registry_lookup, hl]; rfl, hf⟩
    exact ⟨RouteKey.ofFilter filter,
      (ofFilter_mem_candidates_iff (hR.valid c sid filter hsub) message).mpr hmatch,
      (hR.mem_iff _ c sid).mpr ⟨filter, hsub, rfl⟩⟩

variable {found : Matches}

theorem lookup_of_exact (hexact : ∀ c, (found.lookup c).getD [] =
    gather s.routes c (RouteKey.candidates message.metadata)) {c : ConnectionId}
    {ids : List SubscriptionId} (hl : found.lookup c = some ids) :
    ids = gather s.routes c (RouteKey.candidates message.metadata) := by
  rw [← hexact c, hl]
  rfl

theorem mem_found_iff (hR : s.registry.Consistent) (hexact : ∀ c, (found.lookup c).getD [] =
    gather s.routes c (RouteKey.candidates message.metadata))
    (hne : ∀ c ids, found.lookup c = some ids → ids ≠ []) {c : ConnectionId} :
    c ∈ found ↔ ∃ sid, Matched s message c sid := by
  constructor
  · intro hc
    obtain ⟨ids, hl⟩ := AList.exists_lookup hc
    obtain ⟨sid, hsid⟩ := List.exists_mem_of_ne_nil ids (hne c ids hl)
    rw [lookup_of_exact hexact hl] at hsid
    exact ⟨sid, (mem_gather_candidates hR).mp hsid⟩
  · rintro ⟨sid, hm⟩
    have hsid := (mem_gather_candidates hR).mpr hm
    rw [← hexact c] at hsid
    by_contra hc
    rw [AList.lookup_eq_none.mpr hc] at hsid
    cases hsid

theorem matchedSubscriptions_eq (hR : s.registry.Consistent) (hexact : ∀ c,
    (found.lookup c).getD [] = gather s.routes c (RouteKey.candidates message.metadata)) :
    matchedSubscriptions found = (matchingPairs s message).length := by
  have hnodup : (found.pairs.flatMap (fun e => (id e.2).map (fun sid => (e.1, sid)))).Nodup := by
    refine found.nodup_flatMap_pairs (fun e he => ?_)
    rw [id, lookup_of_exact hexact (AList.mem_pairs.mp he)]
    exact nodup_gather _ _ _
  have hperm : (found.pairs.flatMap (fun e => (id e.2).map (fun sid => (e.1, sid)))).Perm
      (matchingPairs s message) := by
    rw [List.perm_ext_iff_of_nodup hnodup nodup_matchingPairs]
    rintro ⟨c, sid⟩
    rw [mem_matchingPairs, ← mem_gather_candidates hR, ← hexact c]
    simp only [List.mem_flatMap, List.mem_map, Prod.mk.injEq, id]
    constructor
    · rintro ⟨⟨c', ids⟩, he, sid', hsid, rfl, rfl⟩
      rw [AList.mem_pairs.mp he]
      exact hsid
    · intro hsid
      cases hl : found.lookup c with
      | none => simp [hl] at hsid
      | some ids =>
        rw [hl] at hsid
        exact ⟨(c, ids), AList.mem_pairs.mpr hl, sid, hsid, rfl, rfl⟩
  rw [← hperm.length_eq, matchedSubscriptions, List.length_flatMap]
  simp

theorem size_eq (hR : s.registry.Consistent) (hexact : ∀ c,
    (found.lookup c).getD [] = gather s.routes c (RouteKey.candidates message.metadata))
    (hne : ∀ c ids, found.lookup c = some ids → ids ≠ []) :
    found.size = (matchingConnections s message).length := by
  have hperm : found.keys.Perm (matchingConnections s message) := by
    rw [List.perm_ext_iff_of_nodup found.keys_nodup nodup_matchingConnections]
    intro c
    rw [mem_matchingConnections, AList.mem_keys.symm, mem_found_iff hR hexact hne]
  rw [← hperm.length_eq, ← AList.pairs_map_fst, List.length_map, AList.pairs_length]

end Matching

/-- A dispatch that no mutation interrupts reports, and offers the message exactly once to every
connection with a matching subscription, with exactly the identifiers of its matching subscriptions,
and to no other connection; its counts are those of the reference matcher. -/
theorem dispatch_refines_matching (config : RouterConfig) (s : Shared) (hs : Reachable config s)
    (hfree : s.mutationLock = none) (call : CallId) (hnew : ∀ e ∈ s.history, e.call ≠ call)
    (order : HashOrder) (message : RoutedMessage) (input : ℕ → ConnectionId) :
    ∃ report s', (serve config call order (.dispatch message)).run input s =
        some (.dispatched (.ok report), s') ∧
      (∀ c, (∃ sid, Matched s message c sid) → ∃ ids outcome,
        offersTo c (ownEvents call s') = [(⟨message, ids⟩, outcome)] ∧ ids.Nodup ∧
        ∀ sid, sid ∈ ids ↔ Matched s message c sid) ∧
      (∀ c, (¬ ∃ sid, Matched s message c sid) → offersTo c (ownEvents call s') = []) ∧
      report.matchedSubscriptions = (matchingPairs s message).length ∧
      report.deliveredConnections + report.fullConnections + report.closedConnections =
        (matchingConnections s message).length := by
  have hinv := hs.inv
  have hR : s.registry.Consistent := (hinv.reachable hfree).consistent
  have hready : Ready call [] s := by
    refine ⟨by simp [hfree], ?_⟩
    rw [ownEvents, List.filter_eq_nil_iff]
    exact fun e he heq => hnew e he (of_decide_eq_true heq)
  have hkept : Kept (fun _ => True) s s := fun c _ => Same.refl c s
  have hcompletes : (serve config call order (.dispatch message)).Completes (fun _ _ => True) s :=
    completes_serve_dispatch message hfree
  have hsat : (serve config call order (.dispatch message)).Sat
      (contract config (fun u _ => u = call.thread) (fun _ => False) call) _ s :=
    sat_serve_dispatch (fun _ _ hu _ h => hu h) (fun _ => rfl) hready hkept
  obtain ⟨response, s', hrun, _⟩ := Prog.completes_run hcompletes input
  obtain ⟨_, report, own', found, rfl, hready', hf⟩ := Prog.sat_run hinv hsat hrun
  have hexact := fun c => hf.exact c trivial
  have hoffers : ∀ c, offersTo c (ownEvents call s') = offersTo c own' := by
    intro c
    rw [hready'.own, offersTo_append]
    exact List.append_nil _
  refine ⟨report, s', hrun, fun c hc => ?_, fun c hc => ?_, ?_, ?_⟩
  · have hmem := (mem_found_iff hR hexact hf.nonempty).mpr hc
    obtain ⟨ids, hl⟩ := AList.exists_lookup hmem
    obtain ⟨_, connection, _, hconn, _⟩ := hc
    refine ⟨ids, _, (hoffers c).trans (hf.served c ids connection trivial hl hconn).1, ?_, ?_⟩
    · rw [lookup_of_exact hexact hl]
      exact nodup_gather _ _ _
    · intro sid
      rw [lookup_of_exact hexact hl]
      exact mem_gather_candidates hR
  · have hnone : found.lookup c = none := by
      rw [AList.lookup_eq_none, mem_found_iff hR hexact hf.nonempty]
      exact hc
    rw [hoffers, (hf.spared c hnone).1]
  · rw [hf.matched, matchedSubscriptions_eq hR hexact]
  · rw [hf.total, size_eq hR hexact hf.nonempty]

theorem dispatch_refines_matching_acme : acmeState.mutationLock = none ∧
    ∃ report s', (serve {} ⟨3, 0⟩ .listed (.dispatch acmeMessage)).run (fun _ => ⟨7⟩) acmeState =
      some (.dispatched (.ok report), s') ∧ report.matchedSubscriptions = 1 := by
  obtain ⟨report, s', hrun, _, _, hmatched, _⟩ := dispatch_refines_matching {} acmeState
    reachable_acmeState rfl ⟨3, 0⟩ (by decide) .listed acmeMessage (fun _ => ⟨7⟩)
  exact ⟨rfl, report, s', hrun, hmatched⟩

end KafkaEdgeRouter.Router
