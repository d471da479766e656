import KafkaEdgeRouter.WebhookDelivery

/-!
# What a durable worker remembers of its own lifetime

The worker keeps the identifiers that came to an end since it was started. They decide whether a
replayed dead letter is attempted at all, and their number is held against the recovery limit, so
both what a replay does and how long a worker runs depend on what happened since the last start.
-/

namespace KafkaEdgeRouter.Webhook

namespace DurableWorker

variable {W : DurableWorker} {n : Node World Input Control (Except String Unit)}

/-! ### Replayed dead letters -/

/-- A dead letter is replayed while the worker that wrote it still runs. -/
def replayWithoutRestart : Moves :=
  Moves.persist "d-1" ++ Moves.recover ++ Moves.take ++ Moves.attempt 404 ++
    [.act {}, .act {}, .again, .environment (.replay 0 7)] ++ Moves.take ++ [.act {}, .again]

theorem traces_replayWithoutRestart : (ordersWorker 1024 8).Traces replayWithoutRestart
    [.command "d-1" 0 true, .started, .subscribed [.retry], .subscribed [.delivery, .retry],
      .received ⟨.delivery, 0, 0⟩ (ordersCommand "d-1").payload,
      .attempted ⟨.delivery, 0, 0⟩ "d-1" ⟨[123, 125], "m-1", 1⟩,
      .answered "d-1" (.failed .permanentHttp), .acknowledged .deadLetter "d-1",
      .committed ⟨.delivery, 0, 0⟩, .replayed "d-1" 1,
      .received ⟨.delivery, 0, 1⟩
        (((ordersCommand "d-1").deadLettered .permanentHttp).replayed 7).payload,
      .committed ⟨.delivery, 0, 1⟩] := by
  decide +kernel

theorem replay_skipped :
    ∃ n, (ordersWorker 1024 8).Reachable n ∧
      .acknowledged .deadLetter "d-1" ∈ n.durable.history ∧
      .replayed "d-1" 1 ∈ n.durable.history ∧
      .committed ⟨.delivery, 0, 1⟩ ∈ n.durable.history ∧
      ∀ id request, .attempted ⟨.delivery, 0, 1⟩ id request ∉ n.durable.history := by
  obtain ⟨hreachable, hhistory⟩ := traces_replayWithoutRestart.reachable
  refine ⟨_, hreachable, ?_⟩
  rw [hhistory]
  refine ⟨by decide +kernel, by decide +kernel, by decide +kernel, ?_⟩
  intro id request
  simp

/-- The replayed record that a commit passes was received before in the same process, and an
attempt was made for it in between exactly when its identifier had not come to an end in that
process before. -/
theorem replay_attempted_iff (h : W.Reachable n) {before after : List Event} {id : String}
    {offset : ℕ}
    (hcommitted : n.durable.history =
      before ++ .committed ⟨.delivery, W.partition, offset⟩ :: after)
    (hreplayed : .replayed id offset ∈ before) :
    ∃ earlier payload later,
      before = earlier ++ .received ⟨.delivery, W.partition, offset⟩ payload :: later ∧
      (∀ e ∈ later, e ≠ .started) ∧
      ((∃ request, .attempted ⟨.delivery, W.partition, offset⟩ id request ∈ later) ↔
        id ∉ terminalIds (lifetime earlier)) := by
  have hinv := h.inv
  obtain ⟨earlier, payload, later, record, hbefore, hlater, hmessage, hattempted⟩ :=
    hinv.accounted before _ after hcommitted
  have hmem : .received ⟨.delivery, W.partition, offset⟩ payload ∈ n.durable.history := by
    rw [hcommitted, hbefore]
    simp
  have hreplay : .replayed id offset ∈ n.durable.history := by
    rw [hcommitted]
    exact List.mem_append_left _ hreplayed
  obtain ⟨replayed, hat, hid, hdestination⟩ := hinv.replays hreplay
  have hpayload : payload = replayed.payload := (hinv.receipts hmem).unique hat
  have hrecord : record = replayed := by
    apply fromMessage_payload_eq
    rwa [← hpayload]
  rw [hrecord, hid] at hattempted
  refine ⟨earlier, payload, later, hbefore, hlater, ?_⟩
  rw [mem_terminalIds]
  exact hattempted hdestination

def replayAfterRestart : Moves :=
  Moves.persist "d-1" ++ Moves.recover ++ Moves.take ++ Moves.attempt 404 ++
    [.act {}, .act {}, .crash, .environment (.replay 0 7)] ++ Moves.recover ++ Moves.take ++
    [.again, .act { now := 7 }, .act {}, .act {}, .act {}]

theorem traces_replayAfterRestart : (ordersWorker 1024 8).Traces replayAfterRestart
    ([.command "d-1" 0 true, .started, .subscribed [.retry], .subscribed [.delivery, .retry],
      .received ⟨.delivery, 0, 0⟩ (ordersCommand "d-1").payload,
      .attempted ⟨.delivery, 0, 0⟩ "d-1" ⟨[123, 125], "m-1", 1⟩,
      .answered "d-1" (.failed .permanentHttp), .acknowledged .deadLetter "d-1",
      .committed ⟨.delivery, 0, 0⟩, .replayed "d-1" 1, .started, .subscribed [.retry],
      .subscribed [.delivery, .retry],
      .received ⟨.delivery, 0, 1⟩
        (((ordersCommand "d-1").deadLettered .permanentHttp).replayed 7).payload,
      .attempted ⟨.delivery, 0, 1⟩ "d-1" ⟨[123, 125], "m-1", 1⟩,
      .answered "d-1" (.delivered 200)] ++ .committed ⟨.delivery, 0, 1⟩ :: []) := by
  decide +kernel

theorem replay_attempted_iff_after_restart :
    ∃ before after, ((ordersWorker 1024 8).final replayAfterRestart).durable.history =
        before ++ .committed ⟨.delivery, 0, 1⟩ :: after ∧
      .replayed "d-1" 1 ∈ before ∧
      ∃ earlier payload later, before = earlier ++ .received ⟨.delivery, 0, 1⟩ payload :: later ∧
        (∀ e ∈ later, e ≠ .started) ∧
        ((∃ request, .attempted ⟨.delivery, 0, 1⟩ "d-1" request ∈ later) ↔
          "d-1" ∉ terminalIds (lifetime earlier)) := by
  obtain ⟨hreachable, hhistory⟩ := traces_replayAfterRestart.reachable
  refine ⟨_, _, hhistory, by decide +kernel, ?_⟩
  apply replay_attempted_iff hreachable hhistory
  decide +kernel

/-! ### The end of a worker -/

def trouble (W : DurableWorker) : Event → Bool
  | .received _ payload => W.malformed payload
  | .failed _ => true
  | _ => false

theorem not_documented {h : List Event}
    (hrecovery : ((recovery h).filter W.ownReceipt).length ≤ W.maxRecoveryRecords)
    (htrouble : ∀ e ∈ lifetime h, W.trouble e = false) : ¬ W.Documented h := by
  intro hdocumented
  cases hdocumented with
  | recovery hlt => omega
  | malformed cursor payload hmem hbad =>
    have hgood : W.malformed payload = false := htrouble _ hmem
    rw [hbad] at hgood
    cases hgood
  | kafka call hmem _ => cases htrouble _ hmem
  | receive hmem =>
    have hlifetime : Event.failed .receive ∈ lifetime h :=
      (List.takeWhile_sublist _).subset hmem
    cases htrouble _ hlifetime

/-- Two deliveries succeed under a recovery limit of one. -/
def secondDelivery : Moves :=
  Moves.persist "d-1" ++ Moves.persist "d-2" ++ Moves.recover ++ Moves.take ++ Moves.attempt 200 ++
    [.act {}, .again] ++ Moves.take ++ Moves.attempt 200 ++ [.act {}]

theorem traces_secondDelivery : (ordersWorker 1024 1).Traces secondDelivery
    [.command "d-1" 0 true, .command "d-2" 1 true, .started, .subscribed [.retry],
      .subscribed [.delivery, .retry],
      .received ⟨.delivery, 0, 0⟩ (ordersCommand "d-1").payload,
      .attempted ⟨.delivery, 0, 0⟩ "d-1" ⟨[123, 125], "m-1", 1⟩,
      .answered "d-1" (.delivered 200), .committed ⟨.delivery, 0, 0⟩,
      .received ⟨.delivery, 0, 1⟩ (ordersCommand "d-2").payload,
      .attempted ⟨.delivery, 0, 1⟩ "d-2" ⟨[123, 125], "m-1", 1⟩,
      .answered "d-2" (.delivered 200), .committed ⟨.delivery, 0, 1⟩] := by
  decide +kernel

theorem worker_stops_undocumented :
    ∃ n, (ordersWorker 1024 1).Reachable n ∧ ¬ Signalled n.durable.history ∧
      n.returned = some (.error "completed retry set exceeded configured limit 1") ∧
      ¬ (ordersWorker 1024 1).Documented n.durable.history := by
  obtain ⟨hreachable, hhistory⟩ := traces_secondDelivery.reachable
  refine ⟨_, hreachable, ?_, by decide +kernel, ?_⟩
  · rw [hhistory]
    unfold Signalled
    decide +kernel
  · rw [hhistory]
    exact not_documented (by decide +kernel) (by decide +kernel)

/-- Without a signal, a worker that has returned had a documented reason as long as no more
identifiers came to an end since its start than the recovery limit; and it never gets back to its
receive loop with more. -/
theorem worker_exit_documented (h : W.Reachable n) (hquiet : ¬ Signalled n.durable.history) :
    (∀ result, n.returned = some result →
      (terminalIds (lifetime n.durable.history)).card ≤ W.maxRecoveryRecords →
      (∃ reason, result = .error reason) ∧ W.Documented n.durable.history) ∧
    ∀ c, n.process = some (.ret (.again c)) → c.job = none →
      (terminalIds (lifetime n.durable.history)).card ≤ W.maxRecoveryRecords := by
  constructor
  · intro result hreturned hlimit
    have hverdict := h.verdict hreturned
    cases result with
    | ok u => exact absurd hverdict hquiet
    | error reason =>
      refine ⟨⟨reason, rfl⟩, ?_⟩
      rcases hverdict with hsignalled | hdocumented | hoverflowed
      · exact absurd hsignalled hquiet
      · exact hdocumented
      · exact absurd hoverflowed (Nat.not_lt.mpr hlimit)
  · intro c hagain hjob
    have hpoint := h.point hagain
    unfold Point at hpoint
    rw [hjob] at hpoint
    refine Nat.le_trans (Finset.card_le_card ?_) hpoint.few
    intro id hid
    rcases hpoint.recalls.complete id (mem_terminalIds.mp hid) with hmem | hnone
    · exact hmem
    · cases hnone

def brokenRecord : Moves :=
  .environment (.foreign .delivery 0 .missing) :: Moves.recover ++ Moves.take

theorem worker_exit_documented_broken_record :
    let W := ordersWorker 1024 8
    let n := W.final brokenRecord
    n.returned = some (.error "durable webhook record has no payload") ∧
      W.Documented n.durable.history := by
  have htraces : (ordersWorker 1024 8).Traces brokenRecord
      [.foreign .delivery 0, .started, .subscribed [.retry], .subscribed [.delivery, .retry],
        .received ⟨.delivery, 0, 0⟩ .missing] := by
    decide +kernel
  obtain ⟨hreachable, hhistory⟩ := htraces.reachable
  have hreturned : ((ordersWorker 1024 8).final brokenRecord).returned =
      some (.error "durable webhook record has no payload") := by
    decide +kernel
  have hquiet : ¬ Signalled ((ordersWorker 1024 8).final brokenRecord).durable.history := by
    rw [hhistory]
    unfold Signalled
    decide +kernel
  refine ⟨hreturned, ((worker_exit_documented hreachable hquiet).1 _ hreturned ?_).2⟩
  rw [hhistory]
  decide +kernel

end DurableWorker
end KafkaEdgeRouter.Webhook
