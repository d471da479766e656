import KafkaEdgeRouter.ServerProgress

/-!
# Replies and what they stand for

A client knows of its subscriptions from the replies of its session. Here they are compared with
what the router holds for its connection, along every interleaving of the sessions, and a command of
a gRPC stream is followed to the end of the stream when it fails.
-/

namespace KafkaEdgeRouter.Stream

open Api Router InvertedIndex

variable {S : Service} {P P' : Sessions} {t : ℕ} {c : ConnectionId} {principal : Principal}

theorem Service.Reachable.discreet (h : S.Reachable P) {draw : Draw}
    (hm : P.move S.thread (.act t draw) = some P') : Discreet t P.shared P'.shared := by
  rcases Pool.move_cases S.thread hm with ⟨task, heq, _⟩ | ⟨u, i, e, f, k, heq, hthread, he, rfl⟩
  · cases heq
  · cases heq
    obtain ⟨hguar, _⟩ := h.holds.act Function.injective_id stable_unborn hthread he
    exact hguar.discreet

theorem Service.Reachable.owns_run (h : S.Reachable P) (howns : Owns t c P.shared.router)
    {moves : List (Move (HashOrder × Task) Draw)} (hrun : P.run S.thread moves = some P') :
    S.Reachable P' ∧ Owns t c P'.shared.router := by
  induction moves generalizing P with
  | nil =>
    cases hrun
    exact ⟨h, howns⟩
  | cons m moves ih =>
    obtain ⟨P₁, hm, hrest⟩ := Pool.run_cons_eq_some hrun
    refine ih (h.move hm) ?_ hrest
    rcases Pool.move_cases S.thread hm with ⟨task, _, rfl⟩ | ⟨u, i, e, f, k, rfl, hthread, he, rfl⟩
    · exact howns
    · obtain ⟨hguar, _⟩ := h.holds.act Function.injective_id stable_unborn hthread he
      obtain ⟨events, hh, _⟩ := hguar.router.history
      exact howns.mono hh

theorem yields_commandTurn {order : HashOrder} {n : ℕ} (command : ClientCommand) :
    (S.connectTurn t order principal c n (.command command)).Yields (fun next =>
      next = .again (n + 1) ∨ ∃ status, next = .done (n + 1, .error status)) := by
  refine Prog.yields_tail _ fun _ => Prog.yields_tail _ fun result => ?_
  cases result with
  | error status => exact Or.inr ⟨status, rfl⟩
  | ok event => exact Prog.yields_tail _ fun _ => Or.inl rfl

/-- What a client was told is what the router holds. While it waits for no answer, its connection,
as long as it is registered, has the subscriptions that its replies add up to. No step of its
session changes the entry of another connection, and while a command is handled the session says
nothing but its answer. When the session has come to its end, the connection and its routes are
gone; if a gRPC command was left without an answer, the stream has ended with an error. A gRPC
command is answered or ends the stream with an error, and a stream that ends is not kept from coming
to its end, with the connection and its routes gone. -/
theorem replies_add_up (h : S.Reachable P)
    (hopened : (P.ledger t).opened = some (c, principal)) :
    ((P.ledger t).handling = none →
      ∀ connection, P.shared.router.connections.lookup c = some connection →
        connection.tenantId = principal.tenantId ∧
        connection.subscriptions = (P.ledger t).held) ∧
    (∀ draw P', P.move S.thread (.act t draw) = some P' →
      (∀ c', c' ≠ c → P'.shared.router.connections.lookup c' =
        P.shared.router.connections.lookup c') ∧
      ((P.ledger t).handling ≠ none →
        P'.shared.transcripts t = P.shared.transcripts t ∨
        ∃ line, Line.Answers line ∧
          P'.shared.transcripts t = P.shared.transcripts t ++ [line])) ∧
    (∀ ending, P.threads[t]? = some (.ret ending) →
      c ∉ P.shared.router.connections ∧
      (P.shared.router.mutationLock = none → ∀ k, items P.shared.router.routes k c = []) ∧
      ∀ command, (P.ledger t).handling = some (.grpc command) →
        ∃ status, ending = .grpc (.error status)) ∧
    (∀ order n command, (S.connectTurn t order principal c n (.command command)).Yields
      (fun next => next = .again (n + 1) ∨ ∃ status, next = .done (n + 1, .error status))) ∧
    ∀ order n result,
      P.threads[t]? = some (S.leaveStream t order n c >>= fun _ => pure (.grpc result)) →
      ∃ moves P', P.run S.thread moves = some P' ∧
        P'.threads[t]? = some (.ret (.grpc result)) ∧
        c ∉ P'.shared.router.connections ∧ ∀ k, items P'.shared.router.routes k c = [] := by
  refine ⟨fun hidle connection hl => ?_, fun draw P' hm => ?_, fun ending hret => ?_,
    fun order n command => yields_commandTurn command, fun order n result hthread => ?_⟩
  · obtain ⟨call, hmem⟩ := h.inv.base.registered c connection hl
    exact ⟨h.tenant_of_registered hopened hmem, (h.agrees hopened).held hidle connection hl⟩
  · have hdiscreet := h.discreet hm
    exact ⟨hdiscreet.elsewhere c principal hopened, hdiscreet.prompt⟩
  · obtain ⟨⟨_, hretired⟩, hexcused⟩ := h.parted hret
    have hgone := hretired c (h.agrees hopened).owns
    exact ⟨hgone, fun hfree => h.no_routes hfree hgone, hexcused⟩
  · obtain ⟨moves, P', hrun, hret, hfree⟩ := h.leaves hthread
    obtain ⟨h', howns⟩ := h.owns_run (h.agrees hopened).owns hrun
    obtain ⟨⟨_, hretired⟩, _⟩ := h'.parted hret
    have hgone := hretired c howns
    exact ⟨moves, P', hrun, hret, hgone, h'.no_routes hfree hgone⟩

/-- Beside the WebSocket client, a gRPC client subscribes to everything and then wants to end a
subscription that it does not have. So many of its accesses are made. -/
def acmeRefusal (accesses : ℕ) : List (Move (HashOrder × Task) Draw) :=
  acmeOpening ++ .spawn (.listed, .connect 0 acmeCredentials
    [.command (.subscribe "all" (some {})), .command (.unsubscribe "other")]) ::
      acting 1 8 accesses

def acmeRefused (accesses : ℕ) : Sessions := sessionsAfter acmeService (acmeRefusal accesses)

theorem replies_add_up_acme :
    (∃ connection, (acmeRefused 23).shared.router.connections.lookup ⟨8⟩ = some connection ∧
      connection.subscriptions.lookup ⟨"all"⟩ = some acmeFilter) ∧
    (acmeRefused 23).shared.router.connections.lookup ⟨7⟩ =
      (acmeRefused 22).shared.router.connections.lookup ⟨7⟩ ∧
    (acmeRefused 41).shared.transcripts 1 = (acmeRefused 24).shared.transcripts 1 ∧
    ⟨8⟩ ∉ (acmeRefused 41).shared.router.connections ∧
    (∃ status, (acmeRefused 41).threads[1]? = some (.ret (.grpc (.error status)))) ∧
    ∃ moves P', (acmeRefused 30).run acmeService.thread moves = some P' ∧
      P'.threads[1]? = some (.ret (.grpc (.error (.ofCore .subscriptionNotFound)))) ∧
      ⟨8⟩ ∉ P'.shared.router.connections ∧ ∀ k, items P'.shared.router.routes k ⟨8⟩ = [] := by
  have hreachable : ∀ accesses, ((Sessions.start ⟨0, 0, 0, ∅⟩).run acmeService.thread
      (acmeRefusal accesses)).isSome = true → acmeService.Reachable (acmeRefused accesses) :=
    fun _ h => reachable_sessionsAfter h
  obtain ⟨hheld, _⟩ := replies_add_up (hreachable 23 rfl)
    (show ((acmeRefused 23).ledger 1).opened = some (⟨8⟩, acmePrincipal) from rfl)
  obtain ⟨_, hstep, _⟩ := replies_add_up (hreachable 22 rfl)
    (show ((acmeRefused 22).ledger 1).opened = some (⟨8⟩, acmePrincipal) from rfl)
  obtain ⟨_, _, _, _, hleaves⟩ := replies_add_up (hreachable 30 rfl)
    (show ((acmeRefused 30).ledger 1).opened = some (⟨8⟩, acmePrincipal) from rfl)
  obtain ⟨_, _, hended, _⟩ := replies_add_up (hreachable 41 rfl)
    (show ((acmeRefused 41).ledger 1).opened = some (⟨8⟩, acmePrincipal) from rfl)
  have hmove : (acmeRefused 22).move acmeService.thread (.act 1 ⟨⟨8⟩, ⟨0, 0, 0⟩, ⟨0, 0, 0⟩⟩) =
      some (acmeRefused 23) := rfl
  obtain ⟨ending, hret⟩ : ∃ ending, (acmeRefused 41).threads[1]? = some (.ret ending) := ⟨_, rfl⟩
  obtain ⟨hgone, _, hunanswered⟩ := hended ending hret
  obtain ⟨status, rfl⟩ := hunanswered (.unsubscribe "other") rfl
  obtain ⟨connection, hl⟩ : ∃ connection,
      (acmeRefused 23).shared.router.connections.lookup ⟨8⟩ = some connection := ⟨_, rfl⟩
  have hleaving : (acmeRefused 30).threads[1]? =
      some ((acmeService.leaveStream 1 .listed 3 ⟨8⟩ >>=
        fun _ => pure (.error (.ofCore .subscriptionNotFound))) >>=
        fun result => pure (.grpc result)) := rfl
  rw [Prog.bind_assoc] at hleaving
  refine ⟨⟨connection, hl, ?_⟩, (hstep _ _ hmove).1 ⟨7⟩ (by decide), rfl, hgone, ⟨status, hret⟩,
    hleaves _ _ _ hleaving⟩
  rw [(hheld rfl connection hl).2]
  rfl

end KafkaEdgeRouter.Stream
