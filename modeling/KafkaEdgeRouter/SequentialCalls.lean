import KafkaEdgeRouter.ReceiverSchedules
import KafkaEdgeRouter.RouterCalls

/-!
# Calls one after the other

Any calls of the router, each beginning when the one before has returned, while the receivers take
deliveries and close at any moment. Between two calls the mutation lock is free and the registry is
consistent, whatever the receivers did.
-/

namespace KafkaEdgeRouter.Router

structure Made where
  request : Request
  order : HashOrder
  trace : List (Entry (ConnectionId × ReceiverOp) Shared)
  response : Response
  after : Shared

/-- The calls were made one after the other, from `s` on and to `s'`, and numbered from `n` on. -/
def Makes (config : RouterConfig) : ℕ → Shared → List Made → Shared → Prop
  | _, s, [], s' => s' = s
  | n, s, m :: made, s' =>
    (serve config ⟨n, 0⟩ m.order m.request).Exec poll s m.trace m.response m.after ∧
      Makes config (n + 1) m.after made s'

structure Quiet (config : RouterConfig) (n : ℕ) (s : Shared) : Prop where
  inv : Inv config (fun _ => False) s
  free : s.mutationLock = none
  numbers : ∀ e ∈ s.history, e.call.thread < n

section Calls

variable {config : RouterConfig} {order : HashOrder} {request : Request} {response : Response}
  {n : ℕ} {s s' : Shared} {l : List (Entry (ConnectionId × ReceiverOp) Shared)}

theorem quiet_new (config : RouterConfig) : Quiet config 0 Shared.new :=
  ⟨inv_new config, rfl, by simp [Shared.new]⟩

theorem Quiet.consistent (h : Quiet config n s) : s.registry.Consistent :=
  (h.inv.reachable h.free).consistent

theorem Quiet.ready (h : Quiet config n s) : Ready ⟨n, 0⟩ [] s := by
  refine ⟨by simp [h.free], ?_⟩
  rw [ownEvents, List.filter_eq_nil_iff]
  intro e he heq
  have hlt := h.numbers e he
  rw [of_decide_eq_true heq] at hlt
  exact Nat.lt_irrefl n hlt

theorem channel_disturbs (hinv : Inv config (fun _ => False) s) (call : CallId)
    (c : ConnectionId) (f : Channel Delivery → Channel Delivery)
    (hlog : ∀ channel, s.channels.lookup c = some channel → (f channel).log = channel.log) :
    (contract config (fun _ _ => True) (fun _ => False) call).disturbs s
      { s with channels := s.channels.modify c f } := by
  have hother : call.thread + 1 ≠ call.thread := by omega
  obtain ⟨hinv', hguar⟩ :=
    @channel_step config (fun _ _ => True) ⟨call.thread + 1, 0⟩ _ s hinv c trivial f hlog
  exact ⟨hinv, hinv', call.thread + 1, hother, hguar⟩

theorem poll_disturbs (o : ConnectionId × ReceiverOp) (hinv : Inv config (fun _ => False) s)
    (call : CallId) :
    (contract config (fun _ _ => True) (fun _ => False) call).disturbs s (poll o s) := by
  obtain ⟨c, op⟩ := o
  cases op with
  | close => exact channel_disturbs hinv call c _ (fun channel _ => Channel.log_close channel)
  | receive =>
    rw [poll_receive]
    cases hrecv : (s.channels.lookup c).bind Channel.recv with
    | none => exact ⟨hinv, hinv, call.thread + 1, by omega, guarantee_refl _ s⟩
    | some result =>
      obtain ⟨channel, hl, hch⟩ := Option.bind_eq_some_iff.mp hrecv
      refine channel_disturbs hinv call c _ (fun channel' hl' => ?_)
      rw [hl] at hl'
      rw [← Option.some.inj hl']
      exact Channel.log_recv hch

/-- Only the call itself takes the lock or leaves events. -/
def Exclusive (n : ℕ) (s : Shared) : Prop :=
  (s.mutationLock = none ∨ s.mutationLock = some n) ∧ ∀ e ∈ s.history, e.call.thread < n + 1

theorem exclusive_of_guarantee {touches : ℕ → ConnectionId → Prop}
    (h : Guarantee touches n s s') (hs : Exclusive n s) : Exclusive n s' := by
  refine ⟨?_, fun e he => ?_⟩
  · rcases h.lock with heq | ⟨_, hsome⟩ | ⟨_, hnone⟩
    · rw [heq]
      exact hs.1
    · exact Or.inr hsome
    · exact Or.inl hnone
  · obtain ⟨events, heq, hthread, _⟩ := h.history
    rw [heq] at he
    rcases List.mem_append.mp he with he | he
    · exact hs.2 e he
    · rw [hthread e he]
      exact Nat.lt_succ_self n

theorem Quiet.serve (hs : Quiet config n s)
    (h : (serve config ⟨n, 0⟩ order request).Exec poll s l response s') :
    Quiet config (n + 1) s' := by
  have hpermitted : Permitted (fun _ _ => True) (fun _ => False) n request := by
    cases request <;> simp [Permitted]
  have hexclusive : Exclusive n s :=
    ⟨Or.inl hs.free, fun e he => Nat.lt_succ_of_lt (hs.numbers e he)⟩
  obtain ⟨hinv, ⟨own, hready⟩, hlock, hnumbers⟩ := h.sat (P := Exclusive n) (fun o s hinv hs => by
      refine ⟨poll_disturbs o hinv ⟨n, 0⟩, ?_⟩
      obtain ⟨channels, heq, _⟩ := poll_frame o s
      rw [heq]
      exact hs) (fun _ _ hguar => exclusive_of_guarantee hguar)
    (sat_serve_ready hpermitted hs.ready) hs.inv hexclusive
  exact ⟨hinv, hlock.resolve_right hready.lock, hnumbers⟩

/-- However many calls were made, the router is between two calls. -/
theorem quiet_of_makes {made : List Made} (hs : Quiet config n s)
    (h : Makes config n s made s') : Quiet config (n + made.length) s' := by
  induction made generalizing n s with
  | nil =>
    rw [show s' = s from h]
    exact hs
  | cons m made ih =>
    have hrest := ih (hs.serve h.1) h.2
    rwa [List.length_cons, Nat.add_comm made.length 1, ← Nat.add_assoc]

theorem Makes.keeps {P : Shared → Prop} (hs : Quiet config n s)
    (hstep : ∀ n s (m : Made), Quiet config n s → P s →
      (serve config ⟨n, 0⟩ m.order m.request).Exec poll s m.trace m.response m.after → P m.after)
    {made : List Made} (h : Makes config n s made s') (hP : P s) : P s' := by
  induction made generalizing n s with
  | nil =>
    rw [show s' = s from h]
    exact hP
  | cons m made ih => exact ih (hs.serve h.1) h.2 (hstep n s m hs hP h.1)

/-- The state after some requests that nobody polls, with one identifier for all connections. -/
def stateAfterCalls (config : RouterConfig) (id : ConnectionId) :
    ℕ → Shared → List Request → Option Shared
  | _, s, [] => some s
  | n, s, request :: requests =>
    ((serve config ⟨n, 0⟩ .listed request).run (fun _ => id) s).bind
      (fun result => stateAfterCalls config id (n + 1) result.2 requests)

theorem makes_of_stateAfterCalls {id : ConnectionId} {requests : List Request}
    (h : stateAfterCalls config id n s requests = some s') :
    ∃ made : List Made, made.length = requests.length ∧ Makes config n s made s' := by
  induction requests generalizing n s with
  | nil => exact ⟨[], rfl, (Option.some.inj h).symm⟩
  | cons request requests ih =>
    obtain ⟨⟨response, s₁⟩, hrun, hrest⟩ := Option.bind_eq_some_iff.mp h
    obtain ⟨made, hlength, hmade⟩ := ih hrest
    obtain ⟨l, hexec, _⟩ := Prog.exec_of_run hrun
    exact ⟨⟨request, .listed, l, response, s₁⟩ :: made, by simp [hlength], hexec, hmade⟩

end Calls
end KafkaEdgeRouter.Router
