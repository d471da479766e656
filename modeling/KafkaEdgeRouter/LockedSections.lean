import KafkaEdgeRouter.RouterOperations
import KafkaEdgeRouter.RouterProtocol

/-!
# Sections under the mutation lock

Rules for proving a locked section against the protocol of concurrent calls. Inside the lock every
access takes the registry from one known value to the next; when the lock is given back the registry
has to be one that operations build. A call keeps the connections it is not about as they were.
-/

namespace KafkaEdgeRouter.Router

open History InvertedIndex

section Steps

variable {s : Shared}

theorem Base.of_eq {s' : Shared} (hB : Base s) (hconn : s'.connections = s.connections)
    (hch : s'.channels = s.channels) (hr : s'.routes = s.routes) (hh : s'.history = s.history) :
    Base s' := by
  constructor
  · rw [hconn, hch]
    exact hB.channel_of_connection
  · rw [hh, hch]
    exact hB.channel_of_registered
  · rw [hconn, hh]
    exact hB.registered
  · rw [hr]
    exact hB.filled
  · rw [hr, hh]
    exact hB.live
  · rw [hh]
    exact hB.justified
  · rw [hch, hh]
    exact hB.log

theorem Base.routes (hB : Base s) {r : Routes} (hr : Filled r)
    (hsub : ∀ k c sid, sid ∈ items r k c → sid ∈ items s.routes k c) :
    Base { s with routes := r } :=
  ⟨hB.channel_of_connection, hB.channel_of_registered, hB.registered, hr,
    fun k c sid hmem => hB.live k c sid (hsub k c sid hmem), hB.justified, hB.log⟩

theorem Base.connections (hB : Base s) {cs : AList (fun _ : ConnectionId => ConnectionState)}
    (hsub : ∀ c connection', cs.lookup c = some connection' → ∃ connection,
      s.connections.lookup c = some connection ∧ connection'.tenantId = connection.tenantId) :
    Base { s with connections := cs } := by
  refine ⟨fun c hc => ?_, hB.channel_of_registered, fun c connection' hl => ?_, hB.filled,
    hB.live, hB.justified, hB.log⟩
  · obtain ⟨connection', hl⟩ := AList.exists_lookup hc
    obtain ⟨connection, hl', _⟩ := hsub c connection' hl
    exact hB.channel_of_connection c (AList.mem_of_lookup hl')
  · obtain ⟨connection, hl', ht⟩ := hsub c connection' hl
    rw [ht]
    exact hB.registered c connection hl'

theorem Base.record (hB : Base s) {e : Event} (he : Account s.history e)
    (hends : ∀ k c sid, sid ∈ items s.routes k c → ¬ e.ends c sid)
    (hregistered : ∀ call c tenantId, e = .registered call c tenantId → c ∈ s.channels)
    (haccepted : ∀ c, e.acceptedBy c = none) : Base (s.log [e]) := by
  refine ⟨hB.channel_of_connection, fun call c tenantId hmem => ?_, fun c connection hl => ?_,
    hB.filled, fun k c sid hmem => ?_, justified_concat.mpr ⟨hB.justified, he⟩,
    fun c channel hl => ?_⟩
  · rcases List.mem_append.mp hmem with hmem | hmem
    · exact hB.channel_of_registered call c tenantId hmem
    · exact hregistered call c tenantId (List.mem_singleton.mp hmem).symm
  · obtain ⟨call, hmem⟩ := hB.registered c connection hl
    exact ⟨call, List.mem_append_left _ hmem⟩
  · obtain ⟨call, filter, hk, hvalid, hst⟩ := hB.live k c sid hmem
    refine ⟨call, filter, hk, hvalid, hst.append ?_⟩
    intro e' he'
    rw [List.mem_singleton.mp he']
    exact hends k c sid hmem
  · rw [hB.log c channel hl]
    simp [Shared.log, haccepted c]

theorem Base.recordRemovals {call : CallId} {events : List Event} (hB : Base s)
    (h : ∀ e ∈ events, ∃ c selection, e = .removalReturned call c selection ∧
      ∀ sid, selection = none ∨ selection = some sid → ∀ k, sid ∉ items s.routes k c) :
    Base (s.log events) := by
  induction events generalizing s with
  | nil => exact hB.of_eq rfl rfl rfl (List.append_nil _)
  | cons e events ih =>
    obtain ⟨c, selection, rfl, hgone⟩ := h e (List.mem_cons_self ..)
    have hB' : Base (s.log [.removalReturned call c selection]) := by
      refine hB.record trivial ?_ (by simp) (fun _ => rfl)
      rintro k c' sid hmem ⟨rfl, hsel⟩
      exact hgone sid hsel k hmem
    refine (ih hB' (fun e he => h e (List.mem_cons_of_mem _ he))).of_eq rfl rfl rfl ?_
    simp [Shared.log]

end Steps

/-- One access under the lock on behalf of a call about the connections `T`: it leaves the events
and the registry named, and no other connection changes. -/
structure LockedStep (call : CallId) (T : ConnectionId → Prop) (events : List Event)
    (R : Registry) (s s' : Shared) : Prop where
  base : Base s'
  lock : s'.mutationLock = s.mutationLock
  registry : s'.registry = R
  history : s'.history = s.history ++ events
  calls : ∀ e ∈ events, e.call = call
  channels : ∀ c ∈ s.channels, c ∈ s'.channels
  same : ∀ c, ¬ T c → Same c s s'

theorem ownEvents_append {call : CallId} {events : List Event} {s s' : Shared}
    (hh : s'.history = s.history ++ events) (hcalls : ∀ e ∈ events, e.call = call) :
    ownEvents call s' = ownEvents call s ++ events := by
  rw [ownEvents, hh, List.filter_append, ownEvents]
  congr 1
  exact List.filter_eq_self.mpr (fun e he => decide_eq_true (hcalls e he))

theorem Kept.step {D T : ConnectionId → Prop} {s₀ s s' : Shared} (hk : Kept D s₀ s)
    (hD : ∀ c, D c → ¬ T c) (hsame : ∀ c, ¬ T c → Same c s s') : Kept D s₀ s' :=
  fun c hc => (hk c hc).trans (hsame c (hD c hc))

/-- The thread of the call may touch `T`, which is outside `D`; no other thread touches `D`. -/
structure Rights (touches : ℕ → ConnectionId → Prop) (call : CallId)
    (D T : ConnectionId → Prop) : Prop where
  others : ∀ u c, u ≠ call.thread → D c → ¬ touches u c
  touch : ∀ c, T c → touches call.thread c
  apart : ∀ c, D c → ¬ T c

/-- A locked section may end when its registry is one that operations build and the removals it is
about to report are done. -/
structure Complete (config : RouterConfig) (call : CallId) (R : Registry) (events : List Event) :
    Prop where
  reachable : Registry.Reachable config R
  removed : ∀ e ∈ events, ∃ c selection, e = .removalReturned call c selection ∧
    ∀ sid, selection = none ∨ selection = some sid → ∀ k, sid ∉ items R.routes k c

def Returns {α : Type} (call : CallId) (D : ConnectionId → Prop) (s₀ : Shared)
    (Post : α → List Event → Prop) (a : α) (s : Shared) : Prop :=
  ∃ own, Ready call own s ∧ Kept D s₀ s ∧ Post a own

/-- The locked section is over but for giving the lock back. -/
def Closes {α : Type} (config : RouterConfig) (call : CallId) (D : ConnectionId → Prop)
    (s₀ : Shared) (events : α → List Event) (Post : α → List Event → Prop) (a : α)
    (s : Shared) : Prop :=
  ∃ own R, Holding call own R s ∧ Kept D s₀ s ∧ Complete config call R (events a) ∧
    Post a (own ++ events a)

section Rules

variable {config : RouterConfig} {touches : ℕ → ConnectionId → Prop} {call : CallId}
  {reserved D T : ConnectionId → Prop} {s₀ s : Shared} {α β : Type}
  {Q : α → Shared → Prop} {own : List Event} {R : Registry}

theorem sat_locked_await (hothers : ∀ u c, u ≠ call.thread → D c → ¬ touches u c)
    {enabled : ConnectionId → Shared → Bool} {f : ConnectionId → Shared → β × Shared}
    {k : β → RouterProg α} (hs : Holding call own R s) (hk : Kept D s₀ s)
    (h : ∀ i s', Inv config reserved s' → Holding call own R s' → enabled i s' = true →
      ∃ T events R', Rights touches call D T ∧ LockedStep call T events R' s' (f i s').2 ∧
      ∀ s'', Inv config reserved s'' → Holding call (own ++ events) R' s'' → Kept D s₀ s'' →
        (k (f i s').1).Sat (contract config touches reserved call) Q s'') :
    (Prog.await enabled f >>= k).Sat
      (contract config touches reserved call) Q s := by
  refine Prog.sat_await ((stable_holding own R).and (stable_kept s₀ hothers)) ⟨hs, hk⟩ ?_
  rintro i s' hinv ⟨hs', hk'⟩ hen
  obtain ⟨T, events, R', hr, hstep, hnext⟩ := h i s' hinv hs' hen
  have hlock : (f i s').2.mutationLock = some call.thread := hstep.lock.trans hs'.lock
  have hinv' : Inv config reserved (f i s').2 :=
    ⟨hstep.base, fun hnone => absurd (hlock.symm.trans hnone) (by simp),
      fun c hc => hstep.channels c (hinv.reserved c hc)⟩
  refine ⟨hinv', ⟨Or.inl hstep.lock, fun hne => absurd hs'.lock hne, ?_, hstep.channels, ?_⟩, ?_⟩
  · exact ⟨events, hstep.history, fun e he => by rw [hstep.calls e he],
      fun hne => absurd hs'.lock hne⟩
  · exact fun c hnt => hstep.same c (fun hT => hnt (hr.touch c hT))
  · exact hnext _ hinv' ⟨hlock, by rw [ownEvents_append hstep.history hstep.calls, hs'.own],
      hstep.registry⟩ (hk'.step hr.apart hstep.same)

theorem sat_locked (hr : Rights touches call D T)
    {f : Shared → β × Shared} {k : β → RouterProg α} (hs : Holding call own R s)
    (hk : Kept D s₀ s)
    (h : ∀ s', Base s' → Holding call own R s' → ∃ events R',
      LockedStep call T events R' s' (f s').2 ∧
      ∀ s'', Inv config reserved s'' → Holding call (own ++ events) R' s'' → Kept D s₀ s'' →
        (k (f s').1).Sat (contract config touches reserved call) Q s'') :
    (Prog.access f >>= k).Sat (contract config touches reserved call) Q s :=
  sat_locked_await hr.others hs hk (fun _ s' hinv hs' _ =>
    let ⟨events, R', hstep, hnext⟩ := h s' hinv.base hs'
    ⟨T, events, R', hr, hstep, hnext⟩)

theorem sat_locked_read (hr : Rights touches call D T) {f : Shared → β} {k : β → RouterProg α}
    (hs : Holding call own R s) (hk : Kept D s₀ s)
    (h : ∀ s', s'.registry = R → ∀ s'', Inv config reserved s'' → Holding call own R s'' →
      Kept D s₀ s'' → (k (f s')).Sat (contract config touches reserved call) Q s'') :
    (Prog.read f >>= k).Sat (contract config touches reserved call) Q s := by
  refine sat_locked hr hs hk (fun s' hB hs' => ⟨[], R, ?_, ?_⟩)
  · exact ⟨hB, rfl, hs'.registry, by simp, by simp, fun _ h => h, fun c _ => Same.refl c s'⟩
  · rw [List.append_nil]
    exact h s' hs'.registry

theorem sat_locked_count (hr : Rights touches call D T) {f : Counters → Counters}
    {k : Unit → RouterProg α} (hs : Holding call own R s) (hk : Kept D s₀ s)
    (h : ∀ s'', Inv config reserved s'' → Holding call own R s'' → Kept D s₀ s'' →
      (k ()).Sat (contract config touches reserved call) Q s'') :
    (Prog.modify (Shared.count f) >>= k).Sat
      (contract config touches reserved call) Q s := by
  refine sat_locked hr hs hk (fun s' hB hs' => ⟨[], R, ?_, ?_⟩)
  · exact ⟨hB.of_eq rfl rfl rfl rfl, rfl, hs'.registry, by simp [Shared.count], by simp,
      fun _ h => h, fun c _ => ⟨rfl, rfl, fun _ => rfl⟩⟩
  · rw [List.append_nil]
    exact h

theorem sat_unlock (hr : Rights touches call D T) {events : List Event} {k : Unit → RouterProg α}
    (hs : Holding call own R s) (hk : Kept D s₀ s) (hc : Complete config call R events)
    (h : ∀ s'', Inv config reserved s'' → Ready call (own ++ events) s'' → Kept D s₀ s'' →
      (k ()).Sat (contract config touches reserved call) Q s'') :
    (unlock events >>= k).Sat (contract config touches reserved call) Q s := by
  refine Prog.sat_access ((stable_holding own R).and (stable_kept s₀ hr.others)) ⟨hs, hk⟩ ?_
  rintro s' hinv ⟨hs', hk'⟩
  have hcalls : ∀ e ∈ events, e.call = call := by
    intro e he
    obtain ⟨c, selection, rfl, _⟩ := hc.removed e he
    rfl
  have hgone : ∀ e ∈ events, ∃ c selection, e = .removalReturned call c selection ∧
      ∀ sid, selection = none ∨ selection = some sid → ∀ k, sid ∉ items s'.routes k c := by
    rw [show s'.routes = R.routes by rw [← hs'.registry]; rfl]
    exact hc.removed
  have hinv' : Inv config reserved (({ s' with mutationLock := none } : Shared).log events) :=
    ⟨(hinv.base.recordRemovals hgone).of_eq rfl rfl rfl rfl, fun _ => by
      have hR := hc.reachable
      rw [← hs'.registry] at hR
      exact hR, hinv.reserved⟩
  have hsame : ∀ c, ¬ T c →
      Same c s' (({ s' with mutationLock := none } : Shared).log events) :=
    fun c _ => ⟨rfl, rfl, fun _ => rfl⟩
  refine ⟨hinv', ⟨Or.inr (Or.inr ⟨hs'.lock, rfl⟩), fun hne => absurd hs'.lock hne, ?_,
    fun _ h => h, fun c _ => ⟨rfl, rfl, fun _ => rfl⟩⟩, ?_⟩
  · exact ⟨events, rfl, fun e he => by rw [hcalls e he], fun hne => absurd hs'.lock hne⟩
  · have hown : ownEvents call (({ s' with mutationLock := none } : Shared).log events) =
        own ++ events := by
      rw [← hs'.own]
      exact ownEvents_append rfl hcalls
    exact h _ hinv' ⟨by simp [Shared.log], hown⟩ (hk'.step hr.apart hsame)

theorem sat_ready_ret (hr : Rights touches call D T) {Post : α → List Event → Prop} {a : α}
    (hs : Ready call own s) (hk : Kept D s₀ s) (hpost : Post a own) :
    (Prog.ret a : RouterProg α).Sat (contract config touches reserved call)
      (Returns call D s₀ Post) s := by
  refine Prog.sat_ret ?_ ⟨own, hs, hk, hpost⟩
  rintro s₁ s₂ hi hi' hd ⟨own', hs₁, hk₁, hp⟩
  exact ⟨own', stable_ready _ _ _ hi hi' hd hs₁, stable_kept s₀ hr.others _ _ hi hi' hd hk₁, hp⟩

theorem sat_holding_ret (hr : Rights touches call D T) {Post : α → List Event → Prop}
    {events : α → List Event} {a : α} (hs : Holding call own R s) (hk : Kept D s₀ s)
    (hc : Complete config call R (events a)) (hpost : Post a (own ++ events a)) :
    (Prog.ret a : RouterProg α).Sat (contract config touches reserved call)
      (Closes config call D s₀ events Post) s := by
  refine Prog.sat_ret ?_ ⟨own, R, hs, hk, hc, hpost⟩
  rintro s₁ s₂ hi hi' hd ⟨own', R', hs₁, hk₁, hc', hp⟩
  exact ⟨own', R', stable_holding _ _ _ _ hi hi' hd hs₁,
    stable_kept s₀ hr.others _ _ hi hi' hd hk₁, hc', hp⟩

/-- A locked section is proved from its body: it meets a registry that operations have built and
leaves one. -/
theorem sat_withMutationLock (hr : Rights touches call D T) {body : RouterProg α}
    {events : α → List Event} {Post : α → List Event → Prop} (hs : Ready call own s)
    (hk : Kept D s₀ s)
    (hbody : ∀ R s', Registry.Reachable config R → Inv config reserved s' → Holding call own R s' →
      Kept D s₀ s' → body.Sat (contract config touches reserved call)
        (Closes config call D s₀ events Post) s') :
    (withMutationLock call body events).Sat (contract config touches reserved call)
      (Returns call D s₀ Post) s := by
  refine Prog.sat_await ((stable_ready own).and (stable_kept s₀ hr.others)) ⟨hs, hk⟩ ?_
  rintro _ s' hinv ⟨hs', hk'⟩ hfree
  have hnone : s'.mutationLock = none := Option.isNone_iff_eq_none.mp hfree
  have hinv' : Inv config reserved ({ s' with mutationLock := some call.thread } : Shared) :=
    ⟨hinv.base.of_eq rfl rfl rfl rfl, fun h => absurd h (by simp), hinv.reserved⟩
  refine ⟨hinv', ⟨Or.inr (Or.inl ⟨hnone, rfl⟩), fun _ => rfl,
    ⟨[], by simp, by simp, by simp⟩, fun _ h => h, fun c _ => ⟨rfl, rfl, fun _ => rfl⟩⟩, ?_⟩
  refine Prog.sat_bind hinv' (Prog.sat_mono (hbody s'.registry _ (hinv.reachable hnone) hinv'
    ⟨rfl, hs'.own, rfl⟩ (hk'.step hr.apart fun c _ => ⟨rfl, rfl, fun _ => rfl⟩))
    ?_)
  rintro a s₁ hinv₁ ⟨own', R', hs₁, hk₁, hc, hpost⟩
  exact sat_unlock hr hs₁ hk₁ hc (fun s₂ _ hs₂ hk₂ => sat_ready_ret hr hs₂ hk₂ hpost)

end Rules
end KafkaEdgeRouter.Router
