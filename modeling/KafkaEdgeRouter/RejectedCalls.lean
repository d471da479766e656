import KafkaEdgeRouter.CapacityLimits
import KafkaEdgeRouter.ConcurrentSafety

/-!
# Limits and rejected calls in every run

In every run of any number of calls the limits of the configuration hold at every moment, and a call
that has returned an error has not touched connections or routes. The second half needs no lock: all
checks of a call come before its first change, and nothing can fail after it.
-/

namespace KafkaEdgeRouter.Router

def Unchanged (s s' : Shared) : Prop := s'.connections = s.connections ∧ s'.routes = s.routes

/-- A registration, a subscription or the end of one was refused. -/
def Rejected : Response → Prop
  | .registered (.error _) => True
  | .settled (.error _) => True
  | _ => False

section Rejections

variable {config : RouterConfig} {call : CallId}

def Failed {α : Type} (result : Except CoreError α) : Prop := ∃ e, result = .error e

theorem not_failed_ok {α : Type} (a : α) : ¬ Failed (.ok a : Except CoreError α) := by
  rintro ⟨e, he⟩
  cases he

theorem unchanged_refl (s : Shared) : Unchanged s s := ⟨rfl, rfl⟩

theorem spares_read {α β : Type} {B : α → Prop} {f : Shared → β} {k : β → RouterProg α}
    (h : ∀ b, (k b).Spares Unchanged B) : (Prog.read f >>= k).Spares Unchanged B :=
  Prog.spares_access (fun s => Or.inl ⟨unchanged_refl s, h _⟩)

theorem spares_withMutationLock {α : Type} {B : α → Prop} {body : RouterProg α}
    {events : α → List Event} (h : body.Spares Unchanged B) :
    (withMutationLock call body events).Spares Unchanged B := by
  refine Prog.spares_await (fun _ s _ => Or.inl ⟨unchanged_refl _, ?_⟩)
  refine Prog.spares_bind h (fun a => ?_) (fun a ha => ?_)
  · exact Prog.spares_access (fun s => Or.inl ⟨unchanged_refl _, trivial⟩)
  · exact Prog.yields_tail _ (fun _ => ha)

theorem spares_registerConnection (tenantId : String) (protocol : DeliveryProtocol)
    (queueCapacity : Option ℕ) :
    (registerConnection config call tenantId protocol queueCapacity).Spares Unchanged Failed := by
  unfold registerConnection
  split
  · trivial
  dsimp only
  split_ifs
  · trivial
  refine spares_withMutationLock (spares_read fun _ => spares_read fun _ => ?_)
  split_ifs
  · exact Prog.spares_access (fun s => Or.inl ⟨unchanged_refl _, trivial⟩)
  · exact Prog.spares_await (fun id s _ => Or.inr (Prog.yields_tail _ fun _ => not_failed_ok id))

theorem spares_subscribe (c : ConnectionId) (sid : SubscriptionId) (filter : RouteFilter) :
    (subscribe config call c sid filter).Spares Unchanged Failed := by
  unfold subscribe
  split
  · trivial
  refine spares_withMutationLock (spares_read fun tenantId => ?_)
  cases tenantId with
  | none => trivial
  | some tenantId =>
    refine spares_read fun _ => spares_read fun _ => ?_
    split_ifs
    · exact Prog.spares_access (fun s => Or.inl ⟨unchanged_refl _, trivial⟩)
    refine Prog.spares_access (fun s => ?_)
    cases hinsert : (insertSubscription config c sid filter s).1 with
    | error e =>
      refine Or.inl ⟨?_, trivial⟩
      unfold insertSubscription at hinsert ⊢
      split
      · exact unchanged_refl s
      · rename_i connection hl
        simp only [hl] at hinsert
        split_ifs at hinsert ⊢
        · exact unchanged_refl s
        · exact unchanged_refl s
        · exact unchanged_refl s
    | ok protocol =>
      exact Or.inr (Prog.yields_tail _ fun _ => Prog.yields_tail _ fun _ => not_failed_ok ())

theorem spares_unsubscribe (c : ConnectionId) (sid : SubscriptionId) :
    (unsubscribe call c sid).Spares Unchanged Failed := by
  refine spares_withMutationLock (Prog.spares_access fun s => ?_)
  rcases takeSubscription_cases c sid s with ⟨e, heq⟩ | ⟨r, filter, _, _, heq⟩
  · rw [heq]
    exact Or.inl ⟨unchanged_refl s, trivial⟩
  · rw [heq]
    exact Or.inr (Prog.yields_tail _ fun _ => Prog.yields_tail _ fun _ => not_failed_ok ())

theorem spares_thread (config : RouterConfig) (t : ℕ) (task : HashOrder × Request) :
    (thread config t task).Spares Unchanged Rejected := by
  have hlogged : ∀ response, (Prog.modify (Shared.log [.returned ⟨t, 0⟩ response]) >>= fun _ =>
      (pure response : RouterProg Response)).Spares Unchanged Rejected :=
    fun response => Prog.spares_access (fun s => Or.inl ⟨unchanged_refl _, trivial⟩)
  have hreply : ∀ {α : Type} {B : α → Prop} {p : RouterProg α} {reply : α → Response},
      p.Spares Unchanged B → (∀ a, ¬ B a → ¬ Rejected (reply a)) →
      (p >>= fun a => (pure (reply a) : RouterProg Response)).Spares Unchanged Rejected :=
    fun hp hB => Prog.spares_bind hp (fun _ => trivial) hB
  have hother : ∀ {α : Type} (p : RouterProg α) {reply : α → Response},
      (∀ a, ¬ Rejected (reply a)) →
      (p >>= fun a => (pure (reply a) : RouterProg Response)).Spares Unchanged Rejected :=
    fun p _ h => Prog.Yields.spares (Prog.yields_tail p h)
  have hfailed : ∀ {α : Type} {reply : Except CoreError α → Response},
      (∀ a, ¬ Rejected (reply (.ok a))) →
      ∀ result, ¬ Failed result → ¬ Rejected (reply result) := by
    intro α reply hok result hresult
    cases result with
    | error e => exact absurd ⟨e, rfl⟩ hresult
    | ok a => exact hok a
  refine Prog.spares_access (fun s => Or.inl ⟨unchanged_refl _, ?_⟩)
  suffices hperform : (perform config ⟨t, 0⟩ task.1 task.2).Spares Unchanged Rejected from
    Prog.spares_bind hperform hlogged (fun response hr => Prog.yields_tail _ fun _ => hr)
  obtain ⟨order, request⟩ := task
  cases request with
  | register tenantId protocol queueCapacity =>
    exact hreply (spares_registerConnection tenantId protocol queueCapacity)
      (hfailed fun _ h => h)
  | subscribe c sid filter => exact hreply (spares_subscribe c sid filter) (hfailed fun _ h => h)
  | unsubscribe c sid => exact hreply (spares_unsubscribe c sid) (hfailed fun _ h => h)
  | unregister c => exact hother _ fun _ h => h
  | dispatch message => exact hother _ fun _ h => h
  | receive c => exact hother _ fun _ h => h
  | close c => exact hother _ fun _ h => h

end Rejections

/-- In every run the limits of the configuration hold, every subscription is of the tenant of its
connection, and a call that was refused has not touched connections or routes. -/
theorem limits_hold_in_every_run (config : RouterConfig)
    (moves : List (Move (HashOrder × Request) ConnectionId)) (P : Calls)
    (hrun : Calls.start.run (thread config) moves = some P) :
    P.shared.connections.size ≤ config.maxConnections ∧
    (∀ tenantId, P.shared.registry.tenantConnections tenantId ≤ config.maxConnectionsPerTenant) ∧
    P.shared.registry.totalSubscriptions ≤ config.maxSubscriptions ∧
    (∀ tenantId,
      P.shared.registry.tenantSubscriptions tenantId ≤ config.maxSubscriptionsPerTenant) ∧
    (∀ c connection, P.shared.connections.lookup c = some connection →
      connection.subscriptions.size ≤ config.maxSubscriptionsPerConnection ∧
      (∀ sid filter, connection.subscriptions.lookup sid = some filter →
        filter.tenantId = connection.tenantId) ∧
      ∃ channel, P.shared.channels.lookup c = some channel) ∧
    (∀ c channel, P.shared.channels.lookup c = some channel →
      1 ≤ channel.capacity ∧ channel.capacity ≤ config.maxQueueCapacity) ∧
    ∀ t response, P.threads[t]? = some (.ret response) → Rejected response →
      Pool.Kept (thread config) Unchanged t Calls.start moves := by
  have hstart : (mutations.protocol (Bounded config)).Holds id
      (fun t (_ : Response) => mutations.Outside t) Calls.start :=
    ⟨bounded_new config, by simp [Calls.start], fun t _ => by
      simp [Monitor.protocol, mutations, Calls.start, Shared.new]⟩
  have hcode : ∀ t (task : HashOrder × Request) s, Bounded config s → mutations.Outside t s →
      (thread config t task).Sat (mutations.contract (Bounded config) t)
        (fun _ => mutations.Outside t) s := by
    intro t task s hinv hs
    have hs' : mutations.Outside (⟨t, 0⟩ : CallId).thread s := hs
    exact sat_serve_bounded task.2 hinv hs'
  have hbounded : Bounded config P.shared := (Protocol.holds_run Function.injective_id
    Monitor.stable_outside hcode hstart ⟨moves, hrun⟩).inv
  have hwithin := hbounded.registry
  refine ⟨?_, hwithin.tenantConnections, hwithin.subscriptions, hwithin.tenantSubscriptions,
    fun c connection hl => ?_, hbounded.capacity, fun t response hret hrejected => ?_⟩
  · rw [← registry_size]
    exact hwithin.connections
  · have hr : P.shared.registry.connections.lookup c = some connection.toRegistration := by
      rw [registry_lookup, hl]
      rfl
    exact ⟨hwithin.perConnection c _ hr, fun sid filter hf => hwithin.tenant c _ sid filter hr hf,
      AList.exists_lookup (hbounded.queue c (AList.mem_of_lookup hr))⟩
  · exact Pool.kept_of_code (spares_thread config) hrun (Nat.zero_le _) hret hrejected

/-- A registration, then one that the limit of one connection refuses. -/
def secondRefused : List (Move (HashOrder × Request) ConnectionId) :=
  sequentially ⟨7⟩ 0 [(.register "acme" .sse none, 8), (.register "acme" .sse none, 7)]

theorem limits_hold_secondRefused :
    ∃ P : Calls, Calls.start.run (thread { maxConnections := 1 }) secondRefused = some P ∧
      P.threads[1]? = some (.ret (.registered (.error .connectionLimitReached))) ∧
      P.shared.connections.size ≤ 1 ∧
      Pool.Kept (thread { maxConnections := 1 }) Unchanged 1 Calls.start secondRefused := by
  obtain ⟨P, hrun, hthread⟩ : ∃ P : Calls,
      Calls.start.run (thread { maxConnections := 1 }) secondRefused = some P ∧
      P.threads[1]? = some (.ret (.registered (.error .connectionLimitReached))) := ⟨_, rfl, rfl⟩
  obtain ⟨hsize, _, _, _, _, _, hkept⟩ :=
    limits_hold_in_every_run { maxConnections := 1 } secondRefused P hrun
  exact ⟨P, hrun, hthread, hsize, hkept 1 _ hthread trivial⟩

end KafkaEdgeRouter.Router
