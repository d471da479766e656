import KafkaEdgeRouter.StrikePolicy
import KafkaEdgeRouter.ThreadAccounts

/-!
# Every connection leaves once

A connection that was issued is registered, or a call has removed it and recorded so. Between
taking the connection out and recording it, the removal is outstanding; each call settles the
removals that it began, so when no call that removes connections is under way, every issued
connection is either registered or has been removed exactly once.
-/

namespace KafkaEdgeRouter

def Event.removes (c : ConnectionId) : Event → Bool
  | .removalReturned _ connection none => connection = c
  | _ => false

namespace Router

def Removing : Request → Prop
  | .unregister _ => True
  | .dispatch _ => True
  | _ => False

/-- Removals of the connection that have begun and are not recorded yet. -/
def outstanding (c : ConnectionId) (s : Shared) : ℤ :=
  (if c ∈ s.channels then 1 else 0) - (if c ∈ s.connections then 1 else 0) -
    s.history.countP (Event.removes c)

def AllStruck (s : Shared) : Prop := ∀ c, Struck c s

section Accesses

variable {config : RouterConfig} {call : CallId} {request : Request} {order : HashOrder}
  {c x : ConnectionId} {s s' : Shared}

theorem outstanding_of_keys (hchannel : c ∈ s'.channels ↔ c ∈ s.channels)
    (hconnection : c ∈ s'.connections ↔ c ∈ s.connections) (hh : s'.history = s.history) :
    outstanding c s' = outstanding c s := by
  simp only [outstanding, hchannel, hconnection, hh]

theorem outstanding_record {e : Event} (he : e.removes c = false)
    (hchannel : c ∈ s'.channels ↔ c ∈ s.channels)
    (hconnection : c ∈ s'.connections ↔ c ∈ s.connections) (hh : s'.history = s.history ++ [e]) :
    outstanding c s' = outstanding c s := by
  have hcount : s'.history.countP (Event.removes c) = s.history.countP (Event.removes c) := by
    rw [hh, List.countP_append, List.countP_singleton, he, if_neg Bool.false_ne_true, Nat.add_zero]
  simp only [outstanding, hchannel, hconnection, hcount]

theorem outstanding_insertConnection {tenantId : String} {protocol : DeliveryProtocol}
    {capacity : ℕ} {id : ConnectionId} (hs : AllStruck s) (hid : id ∉ s.channels) :
    outstanding c (insertConnection call tenantId protocol capacity id s) = outstanding c s := by
  have hcount : (insertConnection call tenantId protocol capacity id s).history.countP
      (Event.removes c) = s.history.countP (Event.removes c) := by
    simp [insertConnection, Shared.log, Event.removes]
  have hid' : id ∉ s.connections := fun hmem => hid ((hs id).channel hmem)
  have hchannel : c ∈ (insertConnection call tenantId protocol capacity id s).channels ↔
      c = id ∨ c ∈ s.channels := AList.mem_insert _
  have hconnection : c ∈ (insertConnection call tenantId protocol capacity id s).connections ↔
      c = id ∨ c ∈ s.connections := AList.mem_insert _
  simp only [outstanding, hcount, hchannel, hconnection]
  by_cases hc : c = id
  · subst c
    simp [hid, hid']
  · simp [hc]

theorem outstanding_insertSubscription (sid : SubscriptionId) (filter : RouteFilter) :
    outstanding c (insertSubscription config x sid filter s).2 = outstanding c s := by
  unfold insertSubscription
  split
  · rfl
  split_ifs
  · rfl
  · rfl
  · rfl
  · exact outstanding_of_keys Iff.rfl (AList.mem_modify ..) rfl

theorem outstanding_takeSubscription (sid : SubscriptionId) :
    outstanding c (takeSubscription x sid s).2 = outstanding c s := by
  unfold takeSubscription
  split
  · rfl
  split
  · rfl
  · exact outstanding_of_keys Iff.rfl (AList.mem_modify ..) rfl

theorem outstanding_offer (last : Bool) (message : Option RoutedMessage)
    (ids : List SubscriptionId) :
    outstanding c (offer config call last message x ids s).2 = outstanding c s := by
  cases hl : s.connections.lookup x with
  | none => rw [offer_none last message hl]
  | some connection =>
    cases message with
    | none =>
      simp only [offer, hl]
      exact outstanding_record rfl Iff.rfl Iff.rfl rfl
    | some message =>
      rw [offer_some last hl]
      exact outstanding_record rfl (AList.mem_modify ..) (AList.mem_modify ..) rfl

theorem outstanding_of_access (hne : ¬ Removing request) (h : Access config call request s s')
    (hs : AllStruck s) : outstanding c s' = outstanding c s := by
  have hkeeps : ∀ {x}, ¬ Removes x request := by
    intro x
    cases request <;> simp_all [Removing, Removes]
  cases h with
  | read => rfl
  | meter => rfl
  | lock => rfl
  | unlock => exact outstanding_of_keys Iff.rfl Iff.rfl (List.append_nil _)
  | insertConnection hid => exact outstanding_insertConnection hs hid
  | insertSubscription x sid filter => exact outstanding_insertSubscription sid filter
  | pushRoute => exact outstanding_record rfl Iff.rfl Iff.rfl rfl
  | takeSubscription x sid => exact outstanding_takeSubscription sid
  | unsubscribed => exact outstanding_record rfl Iff.rfl Iff.rfl rfl
  | takeConnection _ hx => exact absurd hx hkeeps
  | unregistered _ hx => exact absurd hx hkeeps
  | discard => rfl
  | prune => rfl
  | offer => exact absurd trivial hne
  | receive => exact outstanding_of_keys (AList.mem_modify ..) Iff.rfl rfl
  | close => exact outstanding_of_keys (AList.mem_modify ..) Iff.rfl rfl

end Accesses

section Books

variable {config : RouterConfig} {call : CallId} {order : HashOrder} {c : ConnectionId}

theorem outstanding_erase {s : Shared} {x : ConnectionId} (hx : x ∈ s.connections) :
    outstanding c { s with connections := s.connections.erase x } =
      outstanding c s + if x = c then 1 else 0 := by
  simp only [outstanding, AList.mem_erase]
  by_cases hc : c = x
  · subst c
    simp only [ne_eq, not_true_eq_false, false_and, if_false, hx, if_true]
    omega
  · simp [hc, Ne.symm hc]

theorem outstanding_recorded {s : Shared} {x : ConnectionId} :
    outstanding c (({ s with mutationLock := none } : Shared).log
      [.removalReturned call x none]) = outstanding c s - if x = c then 1 else 0 := by
  change (if c ∈ s.channels then 1 else 0) - (if c ∈ s.connections then 1 else 0) -
    ((s.history ++ [Event.removalReturned call x none]).countP (Event.removes c) : ℤ) = _
  rw [List.countP_append, List.countP_singleton, outstanding]
  by_cases hc : x = c
  · simp only [Event.removes, hc, decide_true, if_true]
    push_cast
    omega
  · simp [Event.removes, hc]

/-- An unregistration settles the removal that it began. -/
theorem books_unregisterConnection (x : ConnectionId) (b : ℤ) :
    (unregisterConnection call order x).Books AllStruck (outstanding c) (fun _ b' => b' = b) b := by
  refine Prog.books_await_same (fun _ _ _ _ => rfl) (fun _ _ _ _ => ?_)
  rw [unregisterLocked, Prog.bind_assoc]
  refine Prog.books_access (fun s _ => ?_)
  rcases takeConnection_cases x s with ⟨_, heq⟩ | ⟨r, hl, heq⟩
  · rw [heq, sub_self, add_zero]
    refine Prog.books_access_same (fun _ _ => ?_) (fun _ _ => rfl)
    exact outstanding_of_keys Iff.rfl Iff.rfl (List.append_nil _)
  · have hx : x ∈ s.connections := by
      rw [registry_lookup] at hl
      obtain ⟨connection, hlookup, _⟩ := Option.map_eq_some_iff.mp hl
      exact AList.mem_of_lookup hlookup
    rw [heq, outstanding_erase hx, add_sub_cancel_left, Prog.bind_assoc]
    refine Prog.books_skip (always_removeAllFromRoutes (fun _ _ _ => rfl) x _) (fun _ => ?_)
    rw [Prog.bind_assoc]
    refine Prog.books_access_same (fun _ _ => rfl) (fun _ _ => ?_)
    refine Prog.books_access (fun s _ => ?_)
    change b + (if x = c then 1 else 0) + (outstanding c (({ s with mutationLock := none } :
      Shared).log [.removalReturned call x none]) - outstanding c s) = b
    rw [outstanding_recorded]
    omega

theorem books_disconnectAll (l : List ConnectionId) (b : ℤ) :
    (disconnectAll call order l).Books AllStruck (outstanding c) (fun _ b' => b' = b) b := by
  induction l with
  | nil => rfl
  | cons x l ih =>
    refine Prog.books_skip (Prog.always_access fun _ _ => rfl) (fun _ => ?_)
    refine Prog.books_bind (Prog.books_mono (books_unregisterConnection x b) ?_)
    rintro _ _ rfl
    exact ih

theorem books_dispatch (message : RoutedMessage) (b : ℤ) :
    (dispatch config call order message).Books AllStruck (outstanding c)
      (fun _ b' => b' = b) b := by
  refine Prog.books_skip (Prog.always_access fun _ _ => rfl) (fun _ => ?_)
  refine Prog.books_skip (always_collectCandidates (fun _ _ => rfl) _ _) (fun found => ?_)
  refine Prog.books_skip (always_offerAll (fun last message x ids _ _ =>
    outstanding_offer last message ids) _ _ _ _ _ _) (fun result => ?_)
  cases result with
  | error text => rfl
  | ok result =>
    refine Prog.books_bind (Prog.books_mono (books_disconnectAll result.2 b) ?_)
    rintro _ _ rfl
    exact Prog.books_of_always (Prog.always_bind (Prog.always_access fun _ _ => rfl)
      fun _ => Prog.always_ret _)

theorem struck_always (request : Request) :
    (serve config call order request).Always (fun s s' => AllStruck s → AllStruck s') :=
  always_serve order (fun _ hs c => (hs c).calm (calm_of_record rfl rfl rfl rfl))
    (fun _ _ haccess hs c => (hs c).access haccess)
    (fun _ _ hs c => (hs c).calm (calm_of_record rfl rfl rfl rfl))

theorem balanced_serve (t : ℕ) (task : HashOrder × Request) :
    Pool.Balanced AllStruck (outstanding c) (fun _ task => ¬ Removing task.2) t task
      (thread config t task) 0 := by
  obtain ⟨order, request⟩ := task
  refine ⟨fun hcalm => ⟨rfl, ?_⟩, fun hremoving => ?_⟩
  · exact always_serve order (fun _ _ => outstanding_record rfl Iff.rfl Iff.rfl rfl)
      (fun _ _ haccess hs => outstanding_of_access hcalm haccess hs)
      (fun _ _ _ => outstanding_record rfl Iff.rfl Iff.rfl rfl)
  · refine Prog.books_skip (Prog.always_access fun _ _ =>
      outstanding_record rfl Iff.rfl Iff.rfl rfl) (fun _ => ?_)
    have hend : ∀ response, (Prog.modify (Shared.log [.returned ⟨t, 0⟩ response]) >>= fun _ =>
        (pure response : RouterProg Response)).Books AllStruck (outstanding c)
          (fun _ b => b = 0) 0 :=
      fun response => Prog.books_of_always (Prog.always_bind (Prog.always_access fun _ _ =>
        outstanding_record rfl Iff.rfl Iff.rfl rfl) fun _ => Prog.always_ret _)
    refine Prog.books_bind ?_
    cases request with
    | unregister x =>
      refine Prog.books_bind (Prog.books_mono (books_unregisterConnection x 0) ?_)
      rintro _ _ rfl
      exact hend _
    | dispatch message =>
      refine Prog.books_bind (Prog.books_mono (books_dispatch message 0) ?_)
      rintro result _ rfl
      exact hend _
    | register => exact absurd id hremoving
    | subscribe => exact absurd id hremoving
    | unsubscribe => exact absurd id hremoving
    | receive => exact absurd id hremoving
    | close => exact absurd id hremoving

end Books

/-- No call that removes connections is under way. -/
def Idle (moves : List (Move (HashOrder × Request) ConnectionId)) (P : Calls) : Prop :=
  ∀ (t : ℕ) (task : HashOrder × Request), (Pool.spawned moves)[t]? = some task →
    Removing task.2 → ∃ response, P.threads[t]? = some (Prog.ret response)

theorem idle_of_returned {config : RouterConfig}
    {moves : List (Move (HashOrder × Request) ConnectionId)} {P : Calls}
    (hrun : Calls.start.run (thread config) moves = some P)
    (hret : P.threads.all Prog.isRet = true) : Idle moves P := by
  intro t task ht _
  obtain ⟨_, hthreads⟩ := Pool.thread_of_task (R := fun _ _ _ => True) (fun _ _ => trivial)
    (fun _ _ _ _ _ _ _ _ _ => trivial) rfl hrun
  obtain ⟨p, hp, _⟩ := hthreads t task ht
  have hp' := List.all_eq_true.mp hret p (List.mem_of_getElem? hp)
  cases p with
  | ret response => exact ⟨response, hp⟩
  | act => cases hp'

/-- Whenever no removal is under way, an issued connection is registered, or it has been removed
exactly once. -/
theorem removed_once {config : RouterConfig}
    {moves : List (Move (HashOrder × Request) ConnectionId)} {P : Calls}
    (hrun : Calls.start.run (thread config) moves = some P) (hidle : Idle moves P)
    (c : ConnectionId) : outstanding c P.shared = 0 := by
  have hstart : AllStruck Calls.start.shared := struck_new
  have hkeeps : ∀ t task, (thread config t task).Always (fun s s' => AllStruck s → AllStruck s') :=
    fun _ task => struck_always task.2
  refine Pool.value_settled hkeeps balanced_serve rfl hstart hrun (fun t task ht hremoving => ?_)
  exact hidle t task ht (not_not.mp hremoving)

end Router
end KafkaEdgeRouter
