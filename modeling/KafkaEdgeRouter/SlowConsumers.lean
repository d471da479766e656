import KafkaEdgeRouter.CallChronicle
import KafkaEdgeRouter.RemovalAccounts
import Mathlib.Data.UInt

/-!
# What the slow-consumer counter counts

A dispatch strikes a connection out when it finds its receiver closed, or its queue full once too
often in a row. The counter counts strike-outs, one by one, before the connections are removed. So
it counts closed receivers with the slow ones, and it counts a connection again for every dispatch
that struck it out, although only one call removes it. The counter wraps, so what is shown of it is
shown modulo 2^64.
-/

namespace KafkaEdgeRouter

namespace Event

def asOffer : Event → Option (CallId × ConnectionId)
  | .offered call c _ _ => some (call, c)
  | _ => none

def asRemoval : Event → Option (CallId × ConnectionId)
  | .removalReturned call c none => some (call, c)
  | _ => none

end Event

namespace Router

open History

/-- The offer found the queue full, for the last time in a row that the policy bears. -/
def slow (config : RouterConfig) (before : List Event) : Event → Bool
  | .offered _ c _ .full => max 1 config.slowConsumerStrikes ≤
      consecutiveFulls ((offersTo c before).map Prod.snd ++ [.full])
  | _ => false

def lost : Event → Bool
  | .offered _ _ _ .closed => true
  | _ => false

def struckOut (config : RouterConfig) (before : List Event) (e : Event) : Bool :=
  slow config before e || lost e

/-- The event records that a call removed a connection that it had struck out as slow. -/
def evicts (config : RouterConfig) (h : List Event) (e : Event) : Bool :=
  e.asRemoval.any (fun x => x ∈ (select (slow config) h).filterMap Event.asOffer)

def slowEvictions (config : RouterConfig) (h : List Event) : List Event :=
  h.filter (evicts config h)

/-- The number of offers that met a closed receiver and of slow strike-outs that were not carried
out by the call that struck out. -/
def miscounted (config : RouterConfig) (h : List Event) : ℕ :=
  (h.filter lost).length + (((select (slow config) h).filterMap Event.asOffer).filter
    (fun x => x ∉ h.filterMap Event.asRemoval)).length

/-- What the counter is ahead of the strike-outs. -/
def surplus (config : RouterConfig) (s : Shared) : UInt64 :=
  s.counters.slowConsumerDisconnects - .ofNat (select (struckOut config) s.history).length

section Accesses

variable {config : RouterConfig} {call : CallId} {request : Request} {order : HashOrder}
  {c : ConnectionId} {s s' : Shared}

theorem struckOut_eq_false {e : Event} (he : ∀ c, e.offeredTo c = none) (before : List Event) :
    struckOut config before e = false := by
  cases e with
  | offered caller x delivery outcome => simpa [Event.offeredTo] using he x
  | began => rfl
  | registered => rfl
  | subscribed => rfl
  | removalReturned => rfl
  | panicked => rfl
  | returned => rfl

theorem surplus_of_log {events : List Event} (hh : s'.history = s.history ++ events)
    (hevents : ∀ c, offersTo c events = [])
    (hc : s'.counters.slowConsumerDisconnects = s.counters.slowConsumerDisconnects) :
    surplus config s' = surplus config s := by
  have hselect : select (struckOut config) s'.history = select (struckOut config) s.history := by
    rw [hh]
    refine select_append (fun e he => struckOut_eq_false fun c => ?_)
    have hnone := hevents c
    rw [offersTo, List.filterMap_eq_nil_iff] at hnone
    exact hnone e he
  rw [surplus, surplus, hselect, hc]

theorem counters_of_access (h : Access config call request s s')
    (hne : ∀ message, request ≠ .dispatch message) :
    s'.counters.slowConsumerDisconnects = s.counters.slowConsumerDisconnects := by
  cases h with
  | meter _ _ hm =>
    rcases hm with ⟨message, rfl⟩ | hm
    · exact absurd rfl (hne message)
    · exact hm s.counters
  | insertSubscription x sid filter =>
    unfold insertSubscription
    split
    · rfl
    · split_ifs <;> rfl
  | takeSubscription x sid =>
    rcases takeSubscription_cases x sid s with ⟨_, heq⟩ | ⟨_, _, _, _, heq⟩
    · rw [heq]
    · rw [heq]
  | @takeConnection _ x =>
    rcases takeConnection_cases x s with ⟨_, heq⟩ | ⟨_, _, heq⟩
    · rw [heq]
    · rw [heq]
  | offer => exact absurd rfl (hne _)
  | read => rfl
  | lock => rfl
  | unlock => rfl
  | insertConnection => rfl
  | pushRoute => rfl
  | unsubscribed => rfl
  | unregistered => rfl
  | discard => rfl
  | prune => rfl
  | receive => rfl
  | close => rfl

theorem quiet_of_access (h : Access config call request s s')
    (hne : ∀ message, request ≠ .dispatch message) :
    ∃ events, s'.history = s.history ++ events ∧ (∀ e ∈ events, e.call = call) ∧
      ∀ c, offersTo c events = [] := by
  obtain ⟨events, heq, hevents⟩ := (progresses_of_access h).history
  refine ⟨events, heq, fun e he => (hevents e he).1, fun c => ?_⟩
  rcases calm_or_offer h with ⟨message, _, _, _, _, hdispatch, _⟩ | hcalm
  · exact absurd hdispatch (hne message)
  have hoffers : offersTo c s'.history = offersTo c s.history := by
    cases hcalm c with
    | same hoffers => exact hoffers
    | registered hoffers => exact hoffers
  rw [heq, offersTo_append] at hoffers
  exact List.append_right_eq_self.mp hoffers

theorem surplus_of_access (h : Access config call request s s')
    (hne : ∀ message, request ≠ .dispatch message) : surplus config s' = surplus config s := by
  obtain ⟨events, heq, _, hevents⟩ := quiet_of_access h hne
  exact surplus_of_log heq hevents (counters_of_access h hne)

theorem disconnects_eq (hstrikes : config.slowConsumerStrikes ≤ 4294967295) (hs : Struck c s)
    {connection : ConnectionState} (hl : s.connections.lookup c = some connection)
    (delivery : Delivery) (outcome : SendOutcome) :
    disconnects config outcome (strikesAfter outcome connection.fullStrikes) =
      struckOut config s.history (.offered call c delivery outcome) := by
  have hcount := hs.strikes connection hl
  rw [strikesOf_eq] at hcount
  cases outcome with
  | accepted => rfl
  | closed => rfl
  | full =>
    simp only [disconnects, struckOut, slow, lost, Bool.or_false, decide_eq_decide,
      consecutiveFulls_concat]
    rw [strikesAfter]
    omega

theorem surplus_afterOffer (delivery : Delivery) (strikes : ℕ) :
    surplus config (afterOffer call c delivery strikes s) = surplus config s -
      if struckOut config s.history (.offered call c delivery (trySend c delivery s).1)
        then 1 else 0 := by
  have hhistory : (afterOffer call c delivery strikes s).history =
      s.history ++ [.offered call c delivery (trySend c delivery s).1] := rfl
  have hcounter : (afterOffer call c delivery strikes s).counters = s.counters := rfl
  rw [surplus, surplus, hhistory, hcounter, select_concat]
  split_ifs
  · rw [List.length_append, List.length_singleton, UInt64.ofNat_add]
    exact sub_add_eq_sub_sub _ _ _
  · exact (sub_zero _).symm

end Accesses

section Books

variable {config : RouterConfig} {call : CallId} {order : HashOrder}

/-- The fan-out runs up one debt for each connection on its disconnect list. -/
theorem books_offerAll (hstrikes : config.slowConsumerStrikes ≤ 4294967295) {count index : ℕ}
    {message : Option RoutedMessage} {report : DispatchReport} {disconnect : List ConnectionId}
    (rest : List (ConnectionId × List SubscriptionId)) (hcount : index + rest.length = count)
    (hmessage : rest ≠ [] → message ≠ none) {b : UInt64} :
    (offerAll config call count index message report disconnect rest).Books AllStruck
      (surplus config) (fun result b' => ∃ report' disconnect',
        result = .ok (report', disconnect') ∧
          b' + .ofNat disconnect'.length = b + .ofNat disconnect.length)
      b := by
  induction rest generalizing index message report disconnect b with
  | nil => exact ⟨report, disconnect, rfl, rfl⟩
  | cons e rest ih =>
    obtain ⟨x, ids⟩ := e
    obtain ⟨m, rfl⟩ := Option.ne_none_iff_exists'.mp (hmessage (List.cons_ne_nil _ _))
    rw [List.length_cons] at hcount
    refine Prog.books_access (fun s hs => ?_)
    cases hl : s.connections.lookup x with
    | none =>
      rw [offer_none _ _ hl, sub_self, add_zero]
      exact ih (by omega) (fun _ => by simp)
    | some connection =>
      rw [offer_some _ hl]
      simp only
      rw [surplus_afterOffer, ← disconnects_eq hstrikes (hs x) hl]
      refine Prog.books_mono (ih (by omega) (fun hne => ?_)) ?_
      · have hlast : (index + 1 == count) = false := by
          have hpos := List.length_pos_iff.mpr hne
          rw [beq_eq_false_iff_ne]
          omega
        simp [hlast]
      · rintro result b' ⟨report', disconnect', rfl, hb⟩
        refine ⟨report', disconnect', rfl, ?_⟩
        rw [hb]
        split_ifs
        · have hpaid : -1 + UInt64.ofNat 1 = 0 := by decide
          rw [List.length_append, List.length_singleton, UInt64.ofNat_add, sub_sub_cancel_left,
            add_add_add_comm, hpaid, add_zero]
        · rw [sub_zero, sub_self, add_zero]

/-- The evictions pay it back. -/
theorem books_disconnectAll_surplus (l : List ConnectionId) (b : UInt64) :
    (disconnectAll call order l).Books AllStruck (surplus config)
      (fun _ b' => b' = b + .ofNat l.length) b := by
  induction l generalizing b with
  | nil => exact (add_zero b).symm
  | cons x l ih =>
    refine Prog.books_access (fun s _ => ?_)
    have hcounted : surplus config (s.count Counters.recordSlowDisconnect) =
        surplus config s + 1 := by
      simp only [surplus, Shared.count, Counters.recordSlowDisconnect]
      exact add_sub_right_comm _ _ _
    rw [hcounted, add_sub_cancel_left]
    have haccesses : (unregisterConnection call order x).Always
        (Access config call (.unregister x)) := accesses_unregisterConnection order rfl
    have hstill : (unregisterConnection call order x).Always
        (fun s s' => AllStruck s → surplus config s' = surplus config s) :=
      Prog.always_mono haccesses fun _ _ h _ => surplus_of_access h (by simp)
    refine Prog.books_skip hstill (fun _ => Prog.books_mono (ih (b + 1)) ?_)
    rintro _ b' rfl
    rw [List.length_cons, UInt64.ofNat_add, add_assoc, add_comm (UInt64.ofNat l.length)]
    rfl

theorem books_dispatch_surplus (hstrikes : config.slowConsumerStrikes ≤ 4294967295)
    (message : RoutedMessage) :
    (dispatch config call order message).Books AllStruck (surplus config)
      (fun _ b => b = 0) 0 := by
  have hlog : ∀ {f : Counters → Counters}, Spared f → ∀ s,
      surplus config (s.count f) = surplus config s := by
    intro f hf s
    exact surplus_of_log (List.append_nil _).symm (fun _ => rfl) (hf s.counters)
  refine Prog.books_skip (Prog.always_access fun s _ => hlog (fun _ => rfl) s) (fun _ => ?_)
  refine Prog.books_skip (always_collectCandidates (fun _ _ => rfl) _ _) (fun found => ?_)
  have hlength : (order.connections.arrange found.pairs).length = found.size := by
    rw [(order.connections.perm found.pairs).length_eq, AList.pairs_length]
  refine Prog.books_bind (Prog.books_mono (books_offerAll hstrikes _ (by omega) (by simp)) ?_)
  rintro _ b ⟨report, disconnect, rfl, hb⟩
  refine Prog.books_bind (Prog.books_mono (books_disconnectAll_surplus disconnect b) ?_)
  rintro _ b' rfl
  refine Prog.books_access_same (fun s _ => hlog (fun _ => rfl) s) (fun _ _ => ?_)
  exact hb

theorem balanced_surplus (hstrikes : config.slowConsumerStrikes ≤ 4294967295) (t : ℕ)
    (task : HashOrder × Request) :
    Pool.Balanced AllStruck (surplus config) (fun _ task => ¬ Removing task.2) t task
      (thread config t task) 0 := by
  obtain ⟨order, request⟩ := task
  have hrecord : ∀ {e : Event}, (∀ c, e.offeredTo c = none) → ∀ s,
      surplus config (s.log [e]) = surplus config s := by
    intro e he s
    refine surplus_of_log rfl (fun c => ?_) rfl
    simp [offersTo, he c]
  have hquiet : (∀ message, request ≠ .dispatch message) →
      (thread config t (order, request)).Always
        (fun s s' => AllStruck s → surplus config s' = surplus config s) := by
    intro hne
    exact always_serve order (fun s _ => hrecord (fun _ => rfl) s)
      (fun _ _ h _ => surplus_of_access h hne) (fun _ s _ => hrecord (fun _ => rfl) s)
  refine ⟨fun hcalm => ⟨rfl, hquiet ?_⟩, fun hremoving => ?_⟩
  · rintro message rfl
    exact hcalm trivial
  · by_cases hdispatch : ∃ message, request = .dispatch message
    · obtain ⟨message, rfl⟩ := hdispatch
      refine Prog.books_skip (Prog.always_access fun s _ => hrecord (fun _ => rfl) s) (fun _ => ?_)
      refine Prog.books_bind (Prog.books_bind
        (Prog.books_mono (books_dispatch_surplus hstrikes message) ?_))
      rintro result _ rfl
      exact Prog.books_access_same (fun s _ => hrecord (fun _ => rfl) s) (fun _ _ => rfl)
    · exact Prog.books_of_always (hquiet fun message heq => hdispatch ⟨message, heq⟩)

end Books

/-! ### Every strike-out ends with the connection gone -/

def Gone (c : ConnectionId) (s : Shared) : Prop := c ∈ s.channels ∧ c ∉ s.connections

def Strikes (config : RouterConfig) (call : CallId) (c : ConnectionId) (h : List Event) : Prop :=
  ∃ delivery outcome, .offered call c delivery outcome ∈ select (struckOut config) h

def Departs (t : ℕ) (s s' : Shared) : Prop :=
  Records t s s' ∧ ∀ c, Gone c s → Gone c s'

def departures : Protocol Shared where
  inv := AllStruck
  guar := Departs
  fresh t s := ∀ e ∈ s.history, e.call.thread ≠ t

/-- What the call has struck out is on the list, or gone. -/
def Pending (config : RouterConfig) (call : CallId) (l : List ConnectionId) (s : Shared) : Prop :=
  ∀ c, Strikes config call c s.history → c ∈ l ∨ Gone c s

section Departures

variable {config : RouterConfig} {call : CallId} {request : Request} {order : HashOrder}
  {c : ConnectionId} {l : List ConnectionId} {s s' : Shared}

theorem gone_of_access (h : Access config call request s s') (hs : Gone c s) : Gone c s' := by
  obtain ⟨hchannel, hconnection⟩ := hs
  cases h with
  | insertConnection hid =>
    refine ⟨(AList.mem_insert _).mpr (Or.inr hchannel), fun hmem => ?_⟩
    rcases (AList.mem_insert _).mp hmem with rfl | hmem
    · exact hid hchannel
    · exact hconnection hmem
  | insertSubscription x sid filter =>
    unfold insertSubscription
    split
    · exact ⟨hchannel, hconnection⟩
    split_ifs
    · exact ⟨hchannel, hconnection⟩
    · exact ⟨hchannel, hconnection⟩
    · exact ⟨hchannel, hconnection⟩
    · exact ⟨hchannel, fun hmem => hconnection ((AList.mem_modify ..).mp hmem)⟩
  | takeSubscription x sid =>
    rcases takeSubscription_cases x sid s with ⟨_, heq⟩ | ⟨_, _, _, _, heq⟩
    · rw [heq]
      exact ⟨hchannel, hconnection⟩
    · rw [heq]
      exact ⟨hchannel, fun hmem => hconnection ((AList.mem_modify ..).mp hmem)⟩
  | @takeConnection _ x =>
    rcases takeConnection_cases x s with ⟨_, heq⟩ | ⟨_, _, heq⟩
    · rw [heq]
      exact ⟨hchannel, hconnection⟩
    · rw [heq]
      exact ⟨hchannel, fun hmem => hconnection (AList.mem_erase.mp hmem).2⟩
  | @offer _ message' last x ids =>
    cases hl : s.connections.lookup x with
    | none =>
      rw [offer_none last message' hl]
      exact ⟨hchannel, hconnection⟩
    | some connection =>
      cases message' with
      | none =>
        simp only [offer, hl]
        exact ⟨hchannel, hconnection⟩
      | some message =>
        rw [offer_some last hl]
        exact ⟨(AList.mem_modify ..).mpr hchannel,
          fun hmem => hconnection ((AList.mem_modify ..).mp hmem)⟩
  | receive => exact ⟨(AList.mem_modify ..).mpr hchannel, hconnection⟩
  | close => exact ⟨(AList.mem_modify ..).mpr hchannel, hconnection⟩
  | read => exact ⟨hchannel, hconnection⟩
  | meter => exact ⟨hchannel, hconnection⟩
  | lock => exact ⟨hchannel, hconnection⟩
  | unlock => exact ⟨hchannel, hconnection⟩
  | pushRoute => exact ⟨hchannel, hconnection⟩
  | unsubscribed => exact ⟨hchannel, hconnection⟩
  | unregistered => exact ⟨hchannel, hconnection⟩
  | discard => exact ⟨hchannel, hconnection⟩
  | prune => exact ⟨hchannel, hconnection⟩

theorem departs_of_access (h : Access config call request s s') : Departs call.thread s s' := by
  obtain ⟨events, heq, hevents⟩ := (progresses_of_access h).history
  exact ⟨⟨events, heq, fun e he => by rw [(hevents e he).1]⟩, fun _ => gone_of_access h⟩

theorem Strikes.of_append {events : List Event}
    (hevents : ∀ e ∈ events, e.call = call → e.offeredTo c = none)
    (h : Strikes config call c (s.history ++ events)) : Strikes config call c s.history := by
  obtain ⟨delivery, outcome, hmem⟩ := h
  refine ⟨delivery, outcome, (mem_select_append hmem).resolve_right fun he => ?_⟩
  have hnone := hevents _ he rfl
  simp [Event.offeredTo] at hnone

theorem stable_pending :
    (departures.contract call.thread).Stable (Pending config call l) := by
  rintro s s' _ _ ⟨u, hu, ⟨events, heq, hevents⟩, hgone⟩ hs c hstrikes
  rw [heq] at hstrikes
  refine (hs c (hstrikes.of_append fun e he hcall => ?_)).imp_right (hgone c)
  exact absurd (by rw [← hevents e he, hcall]) hu

theorem Pending.of_quiet {events : List Event} (hs : Pending config call l s)
    (hh : s'.history = s.history ++ events) (hevents : ∀ c, offersTo c events = [])
    (hgone : ∀ c, Gone c s → Gone c s') : Pending config call l s' := by
  intro c hstrikes
  rw [hh] at hstrikes
  refine (hs c (hstrikes.of_append fun e he _ => ?_)).imp_right (hgone c)
  have hnone := hevents c
  rw [offersTo, List.filterMap_eq_nil_iff] at hnone
  exact hnone e he

theorem Pending.access (hne : ∀ message, request ≠ .dispatch message)
    (h : Access config call request s s') (hs : Pending config call l s) :
    Pending config call l s' := by
  obtain ⟨events, heq, _, hevents⟩ := quiet_of_access h hne
  exact hs.of_quiet heq hevents (fun _ => gone_of_access h)

theorem sat_pending_of_accesses {α : Type} {p : RouterProg α}
    (hne : ∀ message, request ≠ .dispatch message)
    (h : p.Always (Access config call request)) (hs : Pending config call l s) :
    p.Sat (departures.contract call.thread) (fun _ => Pending config call l) s :=
  Prog.sat_of_always stable_pending (Prog.always_mono h fun _ _ haccess hinv hp =>
    ⟨fun c => (hinv c).access haccess, departs_of_access haccess, hp.access hne haccess⟩) hs

theorem Pending.afterOffer {x : ConnectionId} {delivery : Delivery} {strikes : ℕ} {evict : Bool}
    (hs : Pending config call l s)
    (hevict : evict =
      struckOut config s.history (.offered call x delivery (trySend x delivery s).1))
    (hgone : ∀ c, Gone c s → Gone c (Router.afterOffer call x delivery strikes s)) :
    Pending config call (if evict then l ++ [x] else l)
      (Router.afterOffer call x delivery strikes s) := by
  rintro c ⟨delivery', outcome', hmem⟩
  change _ ∈ select _ (s.history ++ [.offered call x delivery (trySend x delivery s).1]) at hmem
  rw [select_concat, ← hevict] at hmem
  have hold : .offered call c delivery' outcome' ∈ select (struckOut config) s.history →
      c ∈ l ∨ Gone c (Router.afterOffer call x delivery strikes s) :=
    fun h => (hs c ⟨delivery', outcome', h⟩).imp_right (hgone c)
  split_ifs at hmem ⊢
  · rcases List.mem_append.mp hmem with hmem | hmem
    · exact (hold hmem).imp_left (List.mem_append_left _)
    · obtain ⟨_, rfl, _⟩ := Event.offered.inj (List.mem_singleton.mp hmem)
      exact Or.inl (List.mem_append_right _ (List.mem_singleton.mpr rfl))
  · exact hold hmem

theorem sat_offerAll_pending (hstrikes : config.slowConsumerStrikes ≤ 4294967295)
    {count index : ℕ} {message : Option RoutedMessage} {report : DispatchReport}
    (rest : List (ConnectionId × List SubscriptionId)) (hcount : index + rest.length = count)
    (hmessage : rest ≠ [] → message ≠ none) (hs : Pending config call l s) :
    (offerAll config call count index message report l rest).Sat
      (departures.contract call.thread) (fun result s' => ∃ report' disconnect,
        result = .ok (report', disconnect) ∧ Pending config call disconnect s') s := by
  induction rest generalizing index message report l s with
  | nil =>
    refine Prog.sat_ret ?_ ⟨report, l, rfl, hs⟩
    rintro s s' hi hi' hd ⟨report', disconnect, heq, hp⟩
    exact ⟨report', disconnect, heq, stable_pending s s' hi hi' hd hp⟩
  | cons e rest ih =>
    obtain ⟨x, ids⟩ := e
    obtain ⟨m, rfl⟩ := Option.ne_none_iff_exists'.mp (hmessage (List.cons_ne_nil _ _))
    rw [List.length_cons] at hcount
    refine Prog.sat_access stable_pending hs (fun s₁ hinv₁ hs₁ => ?_)
    have haccess : Access config call (.dispatch m) s₁
        (offer config call (index + 1 == count) (some m) x ids s₁).2 :=
      .offer _ x ids s₁ fun m' heq => (Option.some.inj heq).symm
    refine ⟨fun c => (hinv₁ c).access haccess, departs_of_access haccess, ?_⟩
    have hgone : ∀ c, Gone c s₁ → Gone c
        (offer config call (index + 1 == count) (some m) x ids s₁).2 := fun _ =>
      gone_of_access haccess
    cases hl : s₁.connections.lookup x with
    | none =>
      rw [offer_none _ _ hl]
      exact ih (by omega) (fun _ => by simp) hs₁
    | some connection =>
      rw [offer_some _ hl] at hgone ⊢
      refine ih (by omega) (fun hne => ?_)
        (hs₁.afterOffer (disconnects_eq hstrikes (hinv₁ x) hl _ _) hgone)
      have hlast : (index + 1 == count) = false := by
        have hpos := List.length_pos_iff.mpr hne
        rw [beq_eq_false_iff_ne]
        omega
      simp [hlast]

theorem sat_unregisterConnection_pending {x : ConnectionId} (hs : Pending config call (x :: l) s) :
    (unregisterConnection call order x).Sat (departures.contract call.thread)
      (fun _ => Pending config call l) s := by
  have haccesses : (unregisterConnection call order x).Always
      (Access config call (.unregister x)) := accesses_unregisterConnection order rfl
  have hne : ∀ message, Request.unregister x ≠ .dispatch message := by simp
  intro i s₁ hinv₁ hrely₁ he₁
  obtain ⟨hlock, hrest₁⟩ := haccesses i s₁ he₁
  have hs₁ : Pending config call (x :: l) s₁ := stable_pending.rely hrely₁ hs
  refine ⟨fun c => (hinv₁ c).access hlock, departs_of_access hlock, ?_⟩
  intro i₂ s₂ hinv₂ hrely₂ he₂
  obtain ⟨htake, hrest₂⟩ := hrest₁ i₂ s₂ he₂
  have hs₂ : Pending config call (x :: l) s₂ :=
    stable_pending.rely hrely₂ (hs₁.access hne hlock)
  refine ⟨fun c => (hinv₂ c).access htake, departs_of_access htake, ?_⟩
  refine sat_pending_of_accesses hne hrest₂ (fun c hstrikes => ?_)
  have htaken : x ∉ (takeConnection x s₂).2.connections := by
    rcases takeConnection_cases x s₂ with ⟨hnone, heq⟩ | ⟨r, _, heq⟩
    · rw [heq, ← AList.lookup_eq_none]
      rw [registry_lookup] at hnone
      exact Option.map_eq_none_iff.mp hnone
    · rw [heq]
      exact fun hmem => (AList.mem_erase.mp hmem).1 rfl
  have hchannels : (takeConnection x s₂).2.channels = s₂.channels := by
    rcases takeConnection_cases x s₂ with ⟨_, heq⟩ | ⟨r, _, heq⟩
    · rw [heq]
    · rw [heq]
  rcases (hs₂.access hne htake) c hstrikes with hmem | hgone
  · rcases List.mem_cons.mp hmem with rfl | hmem
    · refine Or.inr ⟨?_, htaken⟩
      obtain ⟨delivery, outcome, hselected⟩ := hstrikes
      obtain ⟨before, after, heq, _⟩ := mem_select.mp hselected
      by_contra hnone
      have hempty := ((hinv₂ c).access htake).unoffered hnone
      rw [offersTo, List.filterMap_eq_nil_iff] at hempty
      have hmem : .offered call c delivery outcome ∈ (takeConnection c s₂).2.history :=
        heq ▸ List.mem_append_right _ (List.mem_cons_self ..)
      simpa [Event.offeredTo] using hempty _ hmem
    · exact Or.inl hmem
  · exact Or.inr hgone

theorem sat_pending_modify {α : Type} {Q : α → Shared → Prop} {f : Shared → Shared}
    {k : Unit → RouterProg α} {events : List Event}
    (hh : ∀ s, (f s).history = s.history ++ events) (hcall : ∀ e ∈ events, e.call = call)
    (hoffers : ∀ c, offersTo c events = []) (hconnections : ∀ s, (f s).connections = s.connections)
    (hchannels : ∀ s, (f s).channels = s.channels) (hs : Pending config call l s)
    (hk : ∀ s', AllStruck s' → Pending config call l s' →
      (k ()).Sat (departures.contract call.thread) Q s') :
    (Prog.modify f >>= k).Sat (departures.contract call.thread) Q s := by
  refine Prog.sat_access stable_pending hs (fun s₁ hinv₁ hs₁ => ?_)
  have hgone : ∀ c, Gone c s₁ → Gone c (f s₁) := by
    rintro c ⟨hchannel, hconnection⟩
    exact ⟨hchannels s₁ ▸ hchannel, hconnections s₁ ▸ hconnection⟩
  have hinv₂ : AllStruck (f s₁) := by
    intro c
    refine (hinv₁ c).calm (calm_of_eq ?_ (hchannels s₁) (hconnections s₁))
    rw [hh, offersTo_append, hoffers, List.append_nil]
  refine ⟨hinv₂, ⟨⟨events, hh s₁, fun e he => by rw [hcall e he]⟩, hgone⟩, ?_⟩
  exact hk (f s₁) hinv₂ (hs₁.of_quiet (hh s₁) hoffers hgone)

theorem sat_pending_count {α : Type} {Q : α → Shared → Prop} (f : Counters → Counters)
    {k : Unit → RouterProg α} (hs : Pending config call l s)
    (hk : ∀ s', AllStruck s' → Pending config call l s' →
      (k ()).Sat (departures.contract call.thread) Q s') :
    (Prog.modify (Shared.count f) >>= k).Sat (departures.contract call.thread) Q s :=
  sat_pending_modify (fun _ => (List.append_nil _).symm) (by simp) (fun _ => rfl) (fun _ => rfl)
    (fun _ => rfl) hs hk

theorem sat_disconnectAll_pending (hs : Pending config call l s) :
    (disconnectAll call order l).Sat (departures.contract call.thread)
      (fun _ => Pending config call []) s := by
  induction l generalizing s with
  | nil => exact Prog.sat_ret stable_pending hs
  | cons x l ih =>
    refine sat_pending_count _ hs (fun s₁ hinv₁ hs₁ => ?_)
    exact Prog.sat_bind hinv₁ (Prog.sat_mono (sat_unregisterConnection_pending hs₁)
      fun _ s₂ _ hs₂ => ih hs₂)

theorem sat_dispatch_pending (hstrikes : config.slowConsumerStrikes ≤ 4294967295)
    (message : RoutedMessage) (hs : Pending config call [] s) :
    (dispatch config call order message).Sat (departures.contract call.thread)
      (fun _ => Pending config call []) s := by
  refine sat_pending_count _ hs (fun s₁ hinv₁ hs₁ => ?_)
  have hcollect : (collectCandidates (RouteKey.candidates message.metadata) ∅).Always
      (fun s s' => AllStruck s → Pending config call [] s →
        AllStruck s' ∧ Departs call.thread s s' ∧ Pending config call [] s') :=
    always_collectCandidates (fun s hinv hs => ⟨hinv,
      ⟨⟨[], (List.append_nil _).symm, by simp⟩, fun _ h => h⟩, hs⟩) _ _
  refine Prog.sat_bind hinv₁ (Prog.sat_mono (Prog.sat_of_always stable_pending hcollect hs₁)
    fun found s₂ hinv₂ hs₂ => ?_)
  have hlength : (order.connections.arrange found.pairs).length = found.size := by
    rw [(order.connections.perm found.pairs).length_eq, AList.pairs_length]
  refine Prog.sat_bind hinv₂ (Prog.sat_mono (sat_offerAll_pending hstrikes _ (by omega) (by simp)
    hs₂) ?_)
  rintro _ s₃ hinv₃ ⟨report, disconnect, rfl, hs₃⟩
  refine Prog.sat_bind hinv₃ (Prog.sat_mono (sat_disconnectAll_pending hs₃)
    fun _ s₄ _ hs₄ => ?_)
  exact sat_pending_count _ hs₄ fun s₅ _ hs₅ => Prog.sat_ret stable_pending hs₅

/-- Every connection that the call has struck out is gone when the call returns. -/
theorem sat_serve_pending (hstrikes : config.slowConsumerStrikes ≤ 4294967295)
    (hs : ∀ e ∈ s.history, e.call.thread ≠ call.thread) :
    (serve config call order request).Sat (departures.contract call.thread)
      (fun _ => Pending config call []) s := by
  have hnone : Pending config call [] s := by
    rintro c ⟨delivery, outcome, hmem⟩
    obtain ⟨before, after, heq, _⟩ := mem_select.mp hmem
    exact absurd rfl (hs (.offered call c delivery outcome)
      (heq ▸ List.mem_append_right _ (List.mem_cons_self ..)))
  refine sat_pending_modify (fun _ => rfl) (by simp [Event.call]) (fun _ => rfl) (fun _ => rfl)
    (fun _ => rfl) hnone (fun s₁ hinv₁ hs₁ => ?_)
  have hperform : (perform config call order request).Sat (departures.contract call.thread)
      (fun _ => Pending config call []) s₁ := by
    by_cases hdispatch : ∃ message, request = .dispatch message
    · obtain ⟨message, rfl⟩ := hdispatch
      exact Prog.sat_bind hinv₁ (Prog.sat_mono (sat_dispatch_pending hstrikes message hs₁)
        fun _ s₂ _ hs₂ => Prog.sat_ret stable_pending hs₂)
    · exact sat_pending_of_accesses (fun message heq => hdispatch ⟨message, heq⟩)
        (accesses_perform order request) hs₁
  refine Prog.sat_bind hinv₁ (Prog.sat_mono hperform fun response s₂ _ hs₂ => ?_)
  exact sat_pending_modify (fun _ => rfl) (by simp [Event.call]) (fun _ => rfl) (fun _ => rfl)
    (fun _ => rfl) hs₂ fun s₃ _ hs₃ => Prog.sat_ret stable_pending hs₃

end Departures

/-- Whenever no removal is under way, the counter is the number of strike-outs. -/
theorem counter_eq_strikeOuts {config : RouterConfig}
    (hstrikes : config.slowConsumerStrikes ≤ 4294967295)
    {moves : List (Move (HashOrder × Request) ConnectionId)} {P : Calls}
    (hrun : Calls.start.run (thread config) moves = some P) (hidle : Idle moves P) :
    P.shared.counters.slowConsumerDisconnects =
      .ofNat (select (struckOut config) P.shared.history).length := by
  have hstart : AllStruck Calls.start.shared := struck_new
  have hkeeps : ∀ t task, (thread config t task).Always (fun s s' => AllStruck s → AllStruck s') :=
    fun _ task => struck_always task.2
  have hsettled : surplus config P.shared = surplus config Calls.start.shared :=
    Pool.value_settled hkeeps (balanced_surplus hstrikes) rfl hstart hrun
      (fun t task ht hremoving => hidle t task ht (not_not.mp hremoving))
  have hzero : surplus config Calls.start.shared = 0 := sub_self (UInt64.ofNat 0)
  rw [hzero, surplus] at hsettled
  exact sub_eq_zero.mp hsettled

theorem stable_untouched (t : ℕ) : (departures.contract t).Stable (departures.fresh t) := by
  rintro s s' _ _ ⟨u, hu, hrecords, _⟩ hs e he
  rcases hrecords.mem he with he | he
  · exact hs e he
  · rw [he]
    exact hu

def OffersOf (t : ℕ) (request : Request) (s s' : Shared) : Prop :=
  ∃ events, s'.history = s.history ++ events ∧ ∀ call c delivery outcome,
    .offered call c delivery outcome ∈ events →
      call = ⟨t, 0⟩ ∧ ∃ message, request = .dispatch message

theorem offersOf_of_access {config : RouterConfig} {t : ℕ} {request : Request} {s s' : Shared}
    (h : Access config ⟨t, 0⟩ request s s') : OffersOf t request s s' := by
  by_cases hdispatch : ∃ message, request = .dispatch message
  · obtain ⟨events, heq, hevents⟩ := (progresses_of_access h).history
    exact ⟨events, heq, fun _ _ _ _ he => ⟨(hevents _ he).1, hdispatch⟩⟩
  · obtain ⟨events, heq, _, hnone⟩ :=
      quiet_of_access h fun message heq => hdispatch ⟨message, heq⟩
    refine ⟨events, heq, fun call c delivery outcome he => ?_⟩
    have hempty := hnone c
    rw [offersTo, List.filterMap_eq_nil_iff] at hempty
    simpa [Event.offeredTo] using hempty _ he

theorem offered_spawned {config : RouterConfig}
    {moves : List (Move (HashOrder × Request) ConnectionId)} {P : Calls}
    (hrun : Calls.start.run (thread config) moves = some P) {call : CallId} {c : ConnectionId}
    {delivery : Delivery} {outcome : SendOutcome}
    (hmem : .offered call c delivery outcome ∈ P.shared.history) :
    call.serial = 0 ∧ ∃ order message,
      (Pool.spawned moves)[call.thread]? = some (order, .dispatch message) := by
  have hcode : ∀ t task, (thread config t task).Always (OffersOf t task.2) :=
    fun t task => always_serve task.1 (fun _ => ⟨_, rfl, by simp⟩)
      (fun _ _ => offersOf_of_access) (fun _ _ => ⟨_, rfl, by simp⟩)
  refine Pool.run_keeps (I := fun tasks s => ∀ call c delivery outcome,
      .offered call c delivery outcome ∈ s.history → call.serial = 0 ∧ ∃ order message,
        tasks[call.thread]? = some (order, .dispatch message)) hcode ?_ ?_ rfl
    (by simp [Calls.start, Shared.new]) hrun call c delivery outcome hmem
  · intro tasks task s hI call c delivery outcome he
    obtain ⟨hserial, order, message, htask⟩ := hI call c delivery outcome he
    refine ⟨hserial, order, message, ?_⟩
    rw [List.getElem?_append_left (List.getElem?_eq_some_iff.mp htask).1, htask]
  · rintro tasks t ⟨order, request⟩ s s' htask ⟨events, heq, hevents⟩ hI call c delivery outcome he
    rw [heq] at he
    rcases List.mem_append.mp he with he | he
    · exact hI call c delivery outcome he
    · obtain ⟨rfl, message, rfl⟩ := hevents call c delivery outcome he
      exact ⟨rfl, order, message, htask⟩

/-- Whenever no removal is under way, everything that was struck out is gone. -/
theorem gone_of_struckOut {config : RouterConfig}
    (hstrikes : config.slowConsumerStrikes ≤ 4294967295)
    {moves : List (Move (HashOrder × Request) ConnectionId)} {P : Calls}
    (hrun : Calls.start.run (thread config) moves = some P) (hidle : Idle moves P) {call : CallId}
    {c : ConnectionId} (h : Strikes config call c P.shared.history) : Gone c P.shared := by
  have hstart : departures.Holds id
      (fun t (_ : Response) s => Pending config ⟨t, 0⟩ [] s) Calls.start :=
    ⟨struck_new, by simp [Calls.start], fun t _ => by
      simp [departures, Calls.start, Shared.new]⟩
  have hcode : ∀ t (task : HashOrder × Request) s, AllStruck s → departures.fresh t s →
      (thread config t task).Sat (departures.contract t)
        (fun _ => Pending config ⟨t, 0⟩ []) s := by
    intro t task s _ hs
    have hs' : ∀ e ∈ s.history, e.call.thread ≠ (⟨t, 0⟩ : CallId).thread := hs
    exact sat_serve_pending hstrikes hs'
  have hholds :=
    Protocol.holds_run Function.injective_id stable_untouched hcode hstart ⟨moves, hrun⟩
  obtain ⟨delivery, outcome, hmem⟩ := h
  obtain ⟨before, after, heq, _⟩ := mem_select.mp hmem
  obtain ⟨hserial, order, message, hspawned⟩ := offered_spawned hrun
    (heq ▸ List.mem_append_right _ (List.mem_cons_self ..))
  obtain ⟨response, hthread⟩ := hidle _ _ hspawned trivial
  have hpost := hholds.sat call.thread _ hthread P.shared hholds.inv (Contract.rely_refl _ _)
  obtain ⟨t, serial⟩ := call
  obtain rfl : serial = 0 := hserial
  exact (hpost c ⟨delivery, outcome, hmem⟩).resolve_left (List.not_mem_nil)

/-! ### Counting -/

section Counting

variable {config : RouterConfig} {h : List Event}

theorem length_filter_filterMap {α β : Type} (f : α → Option β) (q : β → Bool) (l : List α) :
    ((l.filterMap f).filter q).length = (l.filter (fun a => (f a).any q)).length := by
  induction l with
  | nil => rfl
  | cons a l ih =>
    cases hf : f a with
    | none => simp [hf, ih]
    | some b => by_cases hq : q b = true <;> simp [hf, hq, ih]

theorem length_struckOut : (select (struckOut config) h).length =
    (select (slow config) h).length + (h.filter lost).length := by
  induction h using List.reverseRecOn with
  | nil => rfl
  | append_singleton h e ih =>
    rw [select_concat, select_concat, List.filter_append, List.length_append]
    have hexclusive : slow config h e = true → lost e = false := by
      unfold slow lost
      split
      · exact fun _ => rfl
      · exact fun hfalse => absurd hfalse Bool.false_ne_true
    cases hslow : slow config h e with
    | true => simp [struckOut, hslow, hexclusive hslow, ih, Nat.add_right_comm]
    | false => cases hlost : lost e <;> simp [struckOut, hslow, hlost, ih, Nat.add_assoc]

theorem asOffer_of_slow {e : Event} (he : e ∈ select (slow config) h) :
    ∃ call c delivery, e = .offered call c delivery .full := by
  obtain ⟨before, _, _, hslow⟩ := mem_select.mp he
  unfold slow at hslow
  split at hslow
  · exact ⟨_, _, _, rfl⟩
  · exact absurd hslow Bool.false_ne_true

theorem length_asOffer : ((select (slow config) h).filterMap Event.asOffer).length =
    (select (slow config) h).length := by
  rw [List.length_filterMap_eq_countP, List.countP_eq_length]
  intro e he
  obtain ⟨call, c, delivery, rfl⟩ := asOffer_of_slow he
  rfl

theorem nodup_asOffer (hj : Justified Account h) : (h.filterMap Event.asOffer).Nodup := by
  induction h using List.reverseRecOn with
  | nil => exact List.nodup_nil
  | append_singleton h e ih =>
    obtain ⟨hh, he⟩ := justified_concat.mp hj
    rw [List.filterMap_append]
    refine List.nodup_append'.mpr ⟨ih hh, ?_, ?_⟩
    · cases e with
      | offered call c delivery outcome => exact List.nodup_singleton (call, c)
      | _ => exact List.nodup_nil
    · intro x hx hx'
      cases e with
      | offered call c delivery outcome =>
        obtain rfl : x = (call, c) := by simpa [Event.asOffer] using hx'
        obtain ⟨e', he', hoffer⟩ := List.mem_filterMap.mp hx
        cases e' with
        | offered call' c' delivery' outcome' =>
          obtain ⟨rfl, rfl⟩ := Prod.mk.inj (Option.some.inj hoffer)
          exact he.2.1 delivery' outcome' he'
        | _ => cases hoffer
      | _ => exact absurd hx' List.not_mem_nil

theorem mem_asRemoval {call : CallId} {c : ConnectionId} :
    (call, c) ∈ h.filterMap Event.asRemoval ↔ .removalReturned call c none ∈ h := by
  rw [List.mem_filterMap]
  constructor
  · rintro ⟨e, he, heq⟩
    unfold Event.asRemoval at heq
    split at heq
    · obtain ⟨rfl, rfl⟩ := Prod.mk.inj (Option.some.inj heq)
      exact he
    · cases heq
  · exact fun he => ⟨_, he, rfl⟩

theorem asRemoval_eq_some {e : Event} {call : CallId} {c : ConnectionId} :
    e.asRemoval = some (call, c) ↔ e = .removalReturned call c none := by
  constructor
  · intro heq
    unfold Event.asRemoval at heq
    split at heq
    · obtain ⟨rfl, rfl⟩ := Prod.mk.inj (Option.some.inj heq)
      rfl
    · cases heq
  · rintro rfl
    rfl

theorem nodup_asRemoval (honce : ∀ c, h.countP (Event.removes c) ≤ 1) :
    (h.filterMap Event.asRemoval).Nodup := by
  rw [List.nodup_iff_count_le_one]
  rintro ⟨call, c⟩
  refine Nat.le_trans ?_ (honce c)
  rw [List.count_eq_countP, List.countP_filterMap]
  refine List.countP_mono_left fun e _ he => ?_
  cases hx : e.asRemoval with
  | none => simp [hx] at he
  | some x =>
    obtain rfl : x = (call, c) := by simpa [hx] using he
    rw [asRemoval_eq_some.mp hx, Event.removes, decide_eq_true rfl]

theorem removes_iff {e : Event} {c : ConnectionId} :
    e.removes c = true ↔ ∃ call, e = .removalReturned call c none := by
  constructor
  · intro he
    unfold Event.removes at he
    split at he
    · exact ⟨_, by rw [of_decide_eq_true he]⟩
    · cases he
  · rintro ⟨call, rfl⟩
    exact decide_eq_true rfl

theorem removed_by_iff {c : ConnectionId} (honce : h.countP (Event.removes c) = 1)
    (call : CallId) : .removalReturned call c none ∈ h ↔
      ∀ call', call' ≠ call → .removalReturned call' c none ∉ h := by
  rw [List.countP_eq_length_filter, List.length_eq_one_iff] at honce
  obtain ⟨e, he⟩ := honce
  have honly : ∀ call', .removalReturned call' c none ∈ h ↔ .removalReturned call' c none = e := by
    intro call'
    rw [← List.mem_singleton, ← he, List.mem_filter]
    exact ⟨fun hmem => ⟨hmem, removes_iff.mpr ⟨call', rfl⟩⟩, fun hmem => hmem.1⟩
  obtain ⟨remover, rfl⟩ : ∃ remover, e = .removalReturned remover c none := by
    have hmem : e ∈ h.filter (Event.removes c) := he ▸ List.mem_singleton.mpr rfl
    exact removes_iff.mp (List.mem_filter.mp hmem).2
  simp only [honly, Event.removalReturned.injEq, and_true]
  constructor
  · rintro rfl call' hne
    exact hne
  · intro hothers
    by_contra hne
    exact hothers remover (Ne.symm hne) rfl

/-- Each slow strike-out is carried out by its call, or another call was first. -/
theorem length_slowEvictions (hj : Justified Account h)
    (honce : ∀ c, h.countP (Event.removes c) ≤ 1) :
    (slowEvictions config h).length = (((select (slow config) h).filterMap Event.asOffer).filter
      (fun x => x ∈ h.filterMap Event.asRemoval)).length := by
  have hoffers : ((select (slow config) h).filterMap Event.asOffer).Nodup :=
    (nodup_asOffer hj).sublist ((select_sublist _ h).filterMap _)
  have hremovals := nodup_asRemoval honce
  have hperm : ((h.filterMap Event.asRemoval).filter
      (fun x => x ∈ (select (slow config) h).filterMap Event.asOffer)).Perm
      (((select (slow config) h).filterMap Event.asOffer).filter
        (fun x => x ∈ h.filterMap Event.asRemoval)) := by
    rw [List.perm_ext_iff_of_nodup (hremovals.filter _) (hoffers.filter _)]
    intro x
    simp only [List.mem_filter, decide_eq_true_eq]
    exact and_comm
  rw [← hperm.length_eq, length_filter_filterMap]
  rfl

end Counting

section Runs

variable {config : RouterConfig} {moves : List (Move (HashOrder × Request) ConnectionId)}
  {P : Calls}

theorem removes_le_one (hrun : Calls.start.run (thread config) moves = some P)
    (hidle : Idle moves P) (c : ConnectionId) : P.shared.history.countP (Event.removes c) ≤ 1 := by
  have haccount := removed_once hrun hidle c
  unfold outstanding at haccount
  split_ifs at haccount <;> omega

theorem removes_eq_one (hstrikes : config.slowConsumerStrikes ≤ 4294967295)
    (hrun : Calls.start.run (thread config) moves = some P) (hidle : Idle moves P) {call : CallId}
    {c : ConnectionId} {delivery : Delivery}
    (h : .offered call c delivery .full ∈ select (slow config) P.shared.history) :
    P.shared.history.countP (Event.removes c) = 1 := by
  obtain ⟨before, after, heq, hslow⟩ := mem_select.mp h
  have hstruck : .offered call c delivery .full ∈ select (struckOut config) P.shared.history :=
    mem_select.mpr ⟨before, after, heq, by rw [struckOut, hslow, Bool.true_or]⟩
  obtain ⟨hchannel, hconnection⟩ := gone_of_struckOut hstrikes hrun hidle ⟨_, _, hstruck⟩
  have haccount := removed_once hrun hidle c
  rw [outstanding, if_pos hchannel, if_neg hconnection] at haccount
  omega

theorem length_struckOut_eq (hrun : Calls.start.run (thread config) moves = some P)
    (hidle : Idle moves P) : (select (struckOut config) P.shared.history).length =
      (slowEvictions config P.shared.history).length + miscounted config P.shared.history := by
  have hjustified := (holds_of_reaches ⟨moves, hrun⟩).inv.base.justified
  have hsplit := List.length_eq_length_filter_add
    (l := (select (slow config) P.shared.history).filterMap Event.asOffer)
    (fun x => decide (x ∈ P.shared.history.filterMap Event.asRemoval))
  simp only [← decide_not] at hsplit
  rw [length_struckOut, length_slowEvictions hjustified (removes_le_one hrun hidle), miscounted,
    ← length_asOffer]
  omega

theorem miscounted_eq_zero (hstrikes : config.slowConsumerStrikes ≤ 4294967295)
    (hrun : Calls.start.run (thread config) moves = some P) (hidle : Idle moves P) :
    miscounted config P.shared.history = 0 ↔
      (∀ call c delivery, .offered call c delivery .closed ∉ P.shared.history) ∧
      ∀ call c delivery, .offered call c delivery .full ∈ select (slow config) P.shared.history →
        ∀ call', call' ≠ call → .removalReturned call' c none ∉ P.shared.history := by
  rw [miscounted, Nat.add_eq_zero_iff, List.length_eq_zero_iff, List.filter_eq_nil_iff,
    List.length_eq_zero_iff, List.filter_eq_nil_iff]
  apply and_congr
  · constructor
    · exact fun hnone call c delivery hmem => hnone _ hmem rfl
    · intro hnone e he hlost
      unfold lost at hlost
      split at hlost
      · exact hnone _ _ _ he
      · cases hlost
  · simp only [decide_eq_true_eq, not_not]
    constructor
    · intro hall call c delivery hmem
      have hown := hall (call, c) (List.mem_filterMap.mpr ⟨_, hmem, rfl⟩)
      exact (removed_by_iff (removes_eq_one hstrikes hrun hidle hmem) call).mp
        (mem_asRemoval.mp hown)
    · rintro hothers x hx
      obtain ⟨e, he, hoffer⟩ := List.mem_filterMap.mp hx
      obtain ⟨call, c, delivery, rfl⟩ := asOffer_of_slow he
      rw [← Option.some.inj hoffer, mem_asRemoval]
      exact (removed_by_iff (removes_eq_one hstrikes hrun hidle he) call).mpr
        (hothers call c delivery he)

end Runs

theorem ofNat_add_eq_left {m n : ℕ} :
    UInt64.ofNat (m + n) = UInt64.ofNat m ↔ 2 ^ 64 ∣ n := by
  rw [UInt64.ofNat_add, add_eq_left, UInt64.ofNat_eq_iff_mod_eq_toNat, Nat.dvd_iff_mod_eq_zero]
  rfl

/-- The slow-consumer counter, which wraps, counts slow consumers exactly if the offers that met a
closed receiver and the slow strike-outs that another call carried out are a multiple of 2^64.
Unless there are as many as that, this means that no offer has met a closed receiver and no
connection that a dispatch has struck out as slow was removed by another call. -/
theorem slow_counter_iff (config : RouterConfig)
    (hstrikes : config.slowConsumerStrikes ≤ 4294967295)
    (moves : List (Move (HashOrder × Request) ConnectionId)) (P : Calls)
    (hrun : Calls.start.run (thread config) moves = some P) (hidle : Idle moves P) :
    (P.shared.counters.slowConsumerDisconnects =
        .ofNat (slowEvictions config P.shared.history).length ↔
      2 ^ 64 ∣ miscounted config P.shared.history) ∧
    (miscounted config P.shared.history < 2 ^ 64 →
      (P.shared.counters.slowConsumerDisconnects =
          .ofNat (slowEvictions config P.shared.history).length ↔
        (∀ call c delivery, .offered call c delivery .closed ∉ P.shared.history) ∧
        ∀ call c delivery, .offered call c delivery .full ∈ select (slow config) P.shared.history →
          ∀ call', call' ≠ call → .removalReturned call' c none ∉ P.shared.history)) := by
  have hiff : P.shared.counters.slowConsumerDisconnects =
      .ofNat (slowEvictions config P.shared.history).length ↔
        2 ^ 64 ∣ miscounted config P.shared.history := by
    rw [counter_eq_strikeOuts hstrikes hrun hidle, length_struckOut_eq hrun hidle]
    exact ofNat_add_eq_left
  refine ⟨hiff, fun hfew => ?_⟩
  rw [hiff, ← miscounted_eq_zero hstrikes hrun hidle]
  constructor
  · exact fun hdvd => Nat.eq_zero_of_dvd_of_lt hdvd hfew
  · intro hzero
    rw [hzero]
    exact Nat.dvd_zero _

/-- A client disconnects before the next message for it. -/
def disconnectedRun : List (Move (HashOrder × Request) ConnectionId) :=
  sequentially ⟨7⟩ 0 [(.register "acme" .sse none, 8), (.subscribe ⟨7⟩ ⟨"s"⟩ acmeFilter, 10),
    (.close ⟨7⟩, 3), (.dispatch acmeMessage, 13)]

/-- No queue was ever full, but the counter says that there was a slow consumer. -/
theorem closed_receiver_counted_slow : ∃ P,
    Calls.start.run (thread {}) disconnectedRun = some P ∧ Idle disconnectedRun P ∧
    P.shared.counters.closedConnections = 1 ∧
    P.shared.counters.slowConsumerDisconnects = 1 ∧ slowEvictions {} P.shared.history = [] := by
  have hrun : (Calls.start.run (thread {}) disconnectedRun).map (fun P =>
      (P.threads.all Prog.isRet, P.shared.counters.closedConnections,
        P.shared.counters.slowConsumerDisconnects, (slowEvictions {} P.shared.history).length)) =
      some (true, 1, 1, 0) := by rfl
  obtain ⟨P, hP, heq⟩ := Option.map_eq_some_iff.mp hrun
  obtain ⟨hret, hclosed, hslow, hevictions⟩ := by simpa only [Prod.mk.injEq] using heq
  exact ⟨P, hP, idle_of_returned hP hret, hclosed, hslow, List.length_eq_zero_iff.mp hevictions⟩

/-- The queue holds one message, and the second one strikes the connection out. -/
def saturatedRun : List (Move (HashOrder × Request) ConnectionId) :=
  sequentially ⟨7⟩ 0 [(.register "acme" .sse none, 8), (.subscribe ⟨7⟩ ⟨"s"⟩ acmeFilter, 10),
    (.dispatch acmeMessage, 6), (.dispatch acmeMessage, 13)]

theorem slow_counter_iff_saturated : ∃ P,
    Calls.start.run (thread tightConfig) saturatedRun = some P ∧
    P.shared.counters.slowConsumerDisconnects = 1 ∧
    ∀ call c delivery, .offered call c delivery .closed ∉ P.shared.history := by
  have hrun : (Calls.start.run (thread tightConfig) saturatedRun).map (fun P =>
      (P.threads.all Prog.isRet, P.shared.counters.slowConsumerDisconnects,
        (slowEvictions tightConfig P.shared.history).length,
        miscounted tightConfig P.shared.history)) = some (true, 1, 1, 0) := by rfl
  obtain ⟨P, hP, heq⟩ := Option.map_eq_some_iff.mp hrun
  obtain ⟨hret, hslow, hevictions, hmiscounted⟩ := by simpa only [Prod.mk.injEq] using heq
  refine ⟨P, hP, hslow, ?_⟩
  have hiff := (slow_counter_iff tightConfig (by decide) saturatedRun P hP
    (idle_of_returned hP hret)).2 (by omega)
  have hcounts : P.shared.counters.slowConsumerDisconnects =
      .ofNat (slowEvictions tightConfig P.shared.history).length := by
    rw [hslow, hevictions]
    rfl
  exact (hiff.mp hcounts).1

end Router
end KafkaEdgeRouter
