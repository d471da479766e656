import KafkaEdgeRouter.DispatchOffers

/-!
# Dispatch against concurrent calls

A dispatch under the protocol of concurrent calls, from its first access to its report: it always
reports, no matter what the others do in between, and its report and offers are as described by
`Fanout`. With it every call of the router keeps the protocol.
-/

namespace KafkaEdgeRouter.Router

open History InvertedIndex

variable {config : RouterConfig} {touches : ℕ → ConnectionId → Prop} {call : CallId}
  {reserved D : ConnectionId → Prop} {s₀ s₁ s : Shared} {own : List Event}
  {message : RoutedMessage} {α : Type} {Q : α → Shared → Prop}

/-- What was found for a connection justifies offering it the message. -/
theorem account_offered (hB : Base s) (hown : ownEvents call s = own)
    (hbegan : .began call (.dispatch message) ∈ own) {c : ConnectionId}
    (hfirst : offersTo c own = []) {ids : List SubscriptionId} (hne : ids ≠ [])
    (hfound : ∀ sid ∈ ids, Found call message c s.history sid) (outcome : SendOutcome) :
    Account s.history (.offered call c ⟨message, ids⟩ outcome) := by
  refine ⟨mem_history_of_own hown hbegan, fun delivery' outcome' hmem => ?_, ?_, hfound⟩
  · have hmem' : .offered call c delivery' outcome' ∈ own := by
      rw [← hown]
      exact List.mem_filter.mpr ⟨hmem, by simp [Event.call]⟩
    have hoffers := mem_offersTo hmem'
    rw [hfirst] at hoffers
    cases hoffers
  · obtain ⟨sid, hsid⟩ := List.exists_mem_of_ne_nil ids hne
    obtain ⟨subscriber, filter, hmatch, hsub, _⟩ := hfound sid hsid
    obtain ⟨before, after, heq, _, _, registrar, hreg⟩ := hB.justified.of_mem hsub
    refine ⟨registrar, ?_⟩
    have htenant : filter.tenantId = message.metadata.tenantId := by
      simp only [RouteFilter.matches, Bool.and_eq_true, beq_iff_eq] at hmatch
      exact hmatch.1.1.1.1.1
    rw [← htenant, heq]
    exact List.mem_append_left _ hreg

theorem guarantee_afterOffer (htouch : ∀ c, touches call.thread c) (c : ConnectionId)
    (delivery : Delivery) (strikes : ℕ) :
    Guarantee touches call.thread s (afterOffer call c delivery strikes s) := by
  refine ⟨Or.inl rfl, fun _ => registry_afterOffer delivery strikes,
    ⟨[.offered call c delivery (trySend c delivery s).1], rfl, by simp [Event.call], ?_⟩,
    fun c' hc' => (AList.mem_modify ..).mpr hc', fun c' hnt => absurd (htouch c') hnt⟩
  intro _ e he
  rw [List.mem_singleton.mp he]
  exact fun _ _ h => h

theorem sat_offerAll (hothers : ∀ u c, u ≠ call.thread → D c → ¬ touches u c)
    (htouch : ∀ c, touches call.thread c) (hbegan : .began call (.dispatch message) ∈ own)
    (hown : ∀ c, offersTo c own = []) {matched count : ℕ}
    (rest : List (ConnectionId × List SubscriptionId))
    {done : List (ConnectionId × List SubscriptionId)} {current : Option RoutedMessage}
    {report : DispatchReport} {disconnect : List ConnectionId} {offers : List Event}
    {next : Except String (DispatchReport × List ConnectionId) → RouterProg α}
    (hcount : done.length + rest.length = count) (hnodup : ((done ++ rest).map Prod.fst).Nodup)
    (hcurrent : rest ≠ [] → current = some message) (hinv : Inv config reserved s)
    (hs : Ready call (own ++ offers) s) (hk : Kept D s₁ s)
    (hfound : ∀ e ∈ rest, e.2 ≠ [] ∧ ∀ sid ∈ e.2, Found call message e.1 s.history sid)
    (hp : Progress config call message D s₀ matched done offers report disconnect s₁)
    (h : ∀ report' disconnect' offers' s' s₁', Inv config reserved s' →
      Ready call (own ++ offers') s' → Kept D s₁' s' →
      Progress config call message D s₀ matched (done ++ rest) offers' report' disconnect' s₁' →
      (next (.ok (report', disconnect'))).Sat (contract config touches reserved call) Q s') :
    (offerAll config call count done.length current report disconnect rest >>= next).Sat
      (contract config touches reserved call) Q s := by
  induction rest generalizing done current report disconnect offers s s₁ with
  | nil =>
    rw [List.append_nil] at h
    exact h report disconnect offers s s₁ hinv hs hk hp
  | cons e rest ih =>
    obtain ⟨c, ids⟩ := e
    rw [hcurrent (List.cons_ne_nil _ _)]
    have hassoc : done ++ (c, ids) :: rest = done ++ [(c, ids)] ++ rest := by simp
    have hlength : (done ++ [(c, ids)]).length = done.length + 1 := by simp
    rw [hassoc] at h hnodup
    have hnew : c ∉ done.map Prod.fst := by
      rw [List.map_append, List.map_append] at hnodup
      have hleft := (List.nodup_append.mp hnodup).1
      intro hmem
      exact (List.nodup_append.mp hleft).2.2 c hmem c (by simp) rfl
    have hcount' : (done ++ [(c, ids)]).length + rest.length = count := by
      rw [hlength]
      simp only [List.length_cons] at hcount
      omega
    rw [offerAll, Prog.bind_assoc]
    refine Prog.sat_access (stable_history (P := fun h => ∀ e ∈ (c, ids) :: rest, e.2 ≠ [] ∧
      ∀ sid ∈ e.2, Found call message e.1 h sid) hothers (List.mem_append_left _ hbegan) ?_)
      ⟨⟨hs, hk⟩, hfound⟩ ?_
    · intro h l hb hall e he
      exact ⟨(hall e he).1, fun sid hsid => ((hall e he).2 sid hsid).append
        ⟨_, hb, by simp [Event.isBegan]⟩ l⟩
    rintro s' hinv' ⟨⟨hs', hk'⟩, hfound'⟩
    obtain ⟨hne, hids⟩ := hfound' (c, ids) (List.mem_cons_self ..)
    have hrest : ∀ e ∈ rest, e.2 ≠ [] ∧ ∀ sid ∈ e.2, Found call message e.1 s'.history sid :=
      fun e he => hfound' e (List.mem_cons_of_mem _ he)
    cases hl : s'.connections.lookup c with
    | none =>
      rw [offer_none _ _ hl]
      refine ⟨hinv', guarantee_refl _ s', ?_⟩
      rw [← hlength]
      exact ih hcount' hnodup (fun _ => rfl) hinv' hs' (fun c' _ => Same.refl c' s') hrest
        (hp.gone hk' hnew hl) h
    | some connection =>
      rw [offer_some _ hl]
      have haccount := account_offered hinv'.base hs'.own (List.mem_append_left _ hbegan)
        (by rw [offersTo_append, hown, (hp.spared c hnew).1]; rfl) hne hids
        (trySend c ⟨message, ids⟩ s').1
      have hinv'' : Inv config reserved (afterOffer call c ⟨message, ids⟩
          (strikesAfter (trySend c ⟨message, ids⟩ s').1 connection.fullStrikes) s') :=
        ⟨base_afterOffer hinv'.base _ haccount, fun hfree => by
          rw [registry_afterOffer]
          exact hinv'.reachable hfree, fun c' hc' =>
            (AList.mem_modify ..).mpr (hinv'.reserved c' hc')⟩
      refine ⟨hinv'', guarantee_afterOffer htouch c _ _, ?_⟩
      rw [← hlength]
      refine ih hcount' hnodup (fun hmore => ?_) hinv'' ?_ (fun c' _ => Same.refl c' _)
        (fun e he => ⟨(hrest e he).1, fun sid hsid => ((hrest e he).2 sid hsid).append
          ⟨_, mem_history_of_own hs'.own (List.mem_append_left _ hbegan),
            by simp [Event.isBegan]⟩ _⟩) (hp.sent hk' hnew hl) h
      · have hpos := List.length_pos_iff.mpr hmore
        have hlast : (done.length + 1 == count) = false := by
          rw [hlength] at hcount'
          simp only [beq_eq_false_iff_ne]
          omega
        simp [hlast]
      · refine ⟨hs'.lock, ?_⟩
        rw [← List.append_assoc, ← hs'.own]
        exact ownEvents_append rfl (by simp [Event.call])

theorem sat_disconnectAll (hothers : ∀ u c, u ≠ call.thread → D c → ¬ touches u c)
    (htouch : ∀ c, touches call.thread c) (order : HashOrder) (l : List ConnectionId)
    (hD : ∀ c ∈ l, ¬ D c) {next : Unit → RouterProg α} (hinv : Inv config reserved s)
    (hs : Ready call own s) (hk : Kept D s₁ s)
    (h : ∀ removals s', (∀ e ∈ removals, ∃ c, e = .removalReturned call c none) →
      Inv config reserved s' → Ready call (own ++ removals) s' → Kept D s₁ s' →
      (next ()).Sat (contract config touches reserved call) Q s') :
    (disconnectAll call order l >>= next).Sat (contract config touches reserved call) Q s := by
  induction l generalizing own s with
  | nil => exact h [] s (by simp) hinv (by rwa [List.append_nil]) hk
  | cons c l ih =>
    rw [disconnectAll, Prog.bind_assoc]
    refine sat_ready_count hothers hs hk (fun s' hinv' hs' hk' => ?_)
    have hr : Rights touches call D (fun c' => c' = c) :=
      ⟨hothers, fun c' _ => htouch c', fun c' hDc heq =>
        hD c (List.mem_cons_self ..) (heq ▸ hDc)⟩
    rw [Prog.bind_assoc]
    refine Prog.sat_bind hinv' (Prog.sat_mono (sat_unregisterConnection hr order hs' hk') ?_)
    rintro removed s₂ hinv₂ ⟨own₂, hs₂, hk₂, rfl⟩
    refine ih (fun c' hc' => hD c' (List.mem_cons_of_mem _ hc')) hinv₂ hs₂ hk₂ ?_
    intro removals s₃ hremovals hinv₃ hs₃ hk₃
    rw [List.append_assoc] at hs₃
    refine h _ s₃ (fun e he => ?_) hinv₃ hs₃ hk₃
    rcases List.mem_append.mp he with he | he
    · cases removed with
      | false => simp [unregisterEvents] at he
      | true => exact ⟨c, by simpa [unregisterEvents] using he⟩
    · exact hremovals e he

/-- What a dispatch reports and has offered, given the state at its start for the connections that
nobody else touches. -/
structure Fanout (config : RouterConfig) (call : CallId) (message : RoutedMessage)
    (D : ConnectionId → Prop) (s₀ : Shared) (own own' : List Event) (report : DispatchReport)
    (found : Matches) (s : Shared) : Prop where
  matched : report.matchedSubscriptions = matchedSubscriptions found
  total : report.deliveredConnections + report.fullConnections + report.closedConnections =
    found.size
  nonempty : ∀ c ids, found.lookup c = some ids → ids ≠ []
  exact : ∀ c, D c → (found.lookup c).getD [] =
    gather s₀.routes c (RouteKey.candidates message.metadata)
  spared : ∀ c, found.lookup c = none → offersTo c own' = [] ∧ (D c → Same c s₀ s)
  served : ∀ c ids connection, D c → found.lookup c = some ids →
    s₀.connections.lookup c = some connection →
    offersTo c own' = [(⟨message, ids⟩, (trySend c ⟨message, ids⟩ s₀).1)] ∧
    (disconnects config (trySend c ⟨message, ids⟩ s₀).1
      (strikesAfter (trySend c ⟨message, ids⟩ s₀).1 connection.fullStrikes) = false →
      Same c (afterOffer call c ⟨message, ids⟩
        (strikesAfter (trySend c ⟨message, ids⟩ s₀).1 connection.fullStrikes) s₀) s)
  unsubscribed : ∀ subscriber c sid filter, .subscribed subscriber c sid filter ∈ own' →
    .subscribed subscriber c sid filter ∈ own

def DispatchPost (config : RouterConfig) (call : CallId) (message : RoutedMessage)
    (D : ConnectionId → Prop) (s₀ : Shared) (own : List Event)
    (result : Except String DispatchReport) (s : Shared) : Prop :=
  ∃ report own' found, result = .ok report ∧ Ready call own' s ∧
    Fanout config call message D s₀ own own' report found s

theorem Fanout.same {own' : List Event} {report : DispatchReport} {found : Matches} {s' : Shared}
    (hf : Fanout config call message D s₀ own own' report found s)
    (hsame : ∀ c, D c → Same c s s') :
    Fanout config call message D s₀ own own' report found s' := by
  refine ⟨hf.matched, hf.total, hf.nonempty, hf.exact, fun c hc => ?_,
    fun c ids connection hD hc hl => ?_, hf.unsubscribed⟩
  · exact ⟨(hf.spared c hc).1, fun hD => ((hf.spared c hc).2 hD).trans (hsame c hD)⟩
  · obtain ⟨hoffers, hafter⟩ := hf.served c ids connection hD hc hl
    exact ⟨hoffers, fun hd => (hafter hd).trans (hsame c hD)⟩

theorem stable_dispatchPost (hothers : ∀ u c, u ≠ call.thread → D c → ¬ touches u c)
    (result : Except String DispatchReport) :
    (contract config touches reserved call).Stable
      (DispatchPost config call message D s₀ own result) := by
  rintro s s' hi hi' ⟨u, hu, hg⟩ ⟨report, own', found, hresult, hs, hf⟩
  exact ⟨report, own', found, hresult, stable_ready _ s s' hi hi' ⟨u, hu, hg⟩ hs,
    hf.same (fun c hD => hg.untouched c (hothers u c hu hD))⟩

theorem offersTo_removals {removals : List Event}
    (h : ∀ e ∈ removals, ∃ c, e = .removalReturned call c none) (c : ConnectionId) :
    offersTo c removals = [] := by
  rw [offersTo, List.filterMap_eq_nil_iff]
  intro e he
  obtain ⟨c', rfl⟩ := h e he
  rfl

/-- The loops of a dispatch add up to its description. -/
theorem fanout_of_progress {found : Matches} {offers removals : List Event}
    {report : DispatchReport} {disconnect : List ConnectionId}
    {l : List (ConnectionId × List SubscriptionId)} {h : List Event} (hperm : l.Perm found.pairs)
    (hc : Collected call message D s₀ (RouteKey.candidates message.metadata) found h)
    (hown : ∀ c, offersTo c own = [])
    (hp : Progress config call message D s₀ (matchedSubscriptions found) l offers report
      disconnect s₁)
    (hremovals : ∀ e ∈ removals, ∃ c, e = .removalReturned call c none)
    (hk : Kept (fun c => D c ∧ c ∉ disconnect) s₁ s) :
    Fanout config call message D s₀ own (own ++ offers ++ removals) report found s := by
  have hmem : ∀ c ids, (c, ids) ∈ l ↔ found.lookup c = some ids :=
    fun c ids => hperm.mem_iff.trans AList.mem_pairs
  have hkey : ∀ c, found.lookup c = none → c ∉ l.map Prod.fst := by
    intro c hnone hmem'
    obtain ⟨⟨c', ids⟩, he, rfl⟩ := List.mem_map.mp hmem'
    rw [(hmem c' ids).mp he] at hnone
    cases hnone
  have htotal : ∀ c, offersTo c (own ++ offers ++ removals) = offersTo c offers := by
    intro c
    rw [offersTo_append, offersTo_append, hown, offersTo_removals hremovals]
    simp
  refine ⟨hp.matched, ?_, hc.nonempty, hc.exact, fun c hnone => ?_,
    fun c ids connection hD hids hl => ?_, ?_⟩
  · rw [hp.total, hperm.length_eq, AList.pairs_length]
  · obtain ⟨hno, hdisc⟩ := hp.spared c (hkey c hnone)
    exact ⟨by rw [htotal, hno], fun hD => (hp.kept c hD (hkey c hnone)).trans (hk c ⟨hD, hdisc⟩)⟩
  · obtain ⟨hone, hsame, hdisc⟩ := hp.served c ids hD ((hmem c ids).mpr hids) connection hl
    refine ⟨by rw [htotal, hone], fun hd => hsame.trans (hk c ⟨hD, fun hmem' => ?_⟩)⟩
    rw [hdisc.mp hmem'] at hd
    cases hd
  · intro subscriber c sid filter hsub
    rcases List.mem_append.mp hsub with hsub | hsub
    · rcases List.mem_append.mp hsub with hsub | hsub
      · exact hsub
      · obtain ⟨c', delivery, outcome, heq⟩ := hp.events _ hsub
        cases heq
    · obtain ⟨c', heq⟩ := hremovals _ hsub
      cases heq

end KafkaEdgeRouter.Router
