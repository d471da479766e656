import KafkaEdgeRouter.DurableLoops

/-!
# No webhook command is lost, and none overtakes another

What the invariant of the durable worker says to an operator, over every run with any crashes and
restarts, any answers of the destination and any failures of Kafka.
-/

namespace KafkaEdgeRouter.Webhook

/-! ### Runs of a small deployment -/

def ordersCommand (deliveryId : String) : DurableRecord where
  schemaVersion := 1
  deliveryId := deliveryId
  destinationId := "orders"
  originalMessageId := "m-1"
  bodyBase64 := "e30="
  attempt := 1
  nextAttemptAtMs := 0
  lastErrorClass := none
  sourceTopic := none
  sourcePartition := none
  sourceOffset := none
  traceContext := none
  state := .delivery

def ordersWorker (maxRecordBytes maxRecoveryRecords : ℕ) : DurableWorker where
  endpoint := ⟨"orders", 3, 100, 1000⟩
  deliveryTopic := "router.webhook.delivery"
  retryTopic := "router.webhook.retry"
  deadLetterTopic := "router.webhook.dead-letter"
  maxRecordBytes := maxRecordBytes
  maxRecoveryRecords := maxRecoveryRecords
  cluster := ⟨1, fun _ => 0, fun _ => Nat.one_pos⟩
  decodeError _ := "Invalid padding"

abbrev Moves : Type := List (NodeMove Outside Input)

namespace Moves

def persist (deliveryId : String) : Moves :=
  [.environment (.persist (ordersCommand deliveryId) .done)]

def recover : Moves :=
  [.start, .act {}, .again, .act {}, .act { wake := .partitionEof 0 }, .act { assigned := 1 },
    .act {}, .again]

def take : Moves := [.act {}, .act { wake := .message .delivery 0 }]

def attempt (status : ℕ) : Moves :=
  [.again, .act {}, .act {}, .act { transport := .response status }]

end Moves

namespace DurableWorker

def final (W : DurableWorker) (moves : Moves) : Node World Input Control (Except String Unit) :=
  W.system.final ⟨World.new, none⟩ moves

/-- The moves can be made one after the other, and this is what happens then. -/
def Traces (W : DurableWorker) (moves : Moves) (history : List Event) : Prop :=
  (W.system.run ⟨World.new, none⟩ moves).map (fun n => n.durable.history) = some history

instance (W : DurableWorker) (moves : Moves) (history : List Event) :
    Decidable (W.Traces moves history) :=
  inferInstanceAs (Decidable (_ = _))

theorem Traces.reachable {W : DurableWorker} {moves : Moves} {history : List Event}
    (h : W.Traces moves history) :
    W.Reachable (W.final moves) ∧ (W.final moves).durable.history = history := by
  obtain ⟨n, hrun, hhistory⟩ := Option.map_eq_some_iff.mp h
  have hfinal : W.final moves = n := by
    rw [final, System.final, hrun, Option.getD_some]
  rw [hfinal]
  exact ⟨⟨moves, hrun⟩, hhistory⟩

variable {W : DurableWorker} {n : Node World Input Control (Except String Unit)}

/-! ### Loss -/

/-- An acknowledged command was delivered, is in the dead-letter topic, or is still ahead of the
committed offset of its partition in the delivery or the retry topic. -/
theorem no_command_lost (h : W.Reachable n) {id : String} {offset : ℕ}
    (hcommand : .command id offset true ∈ n.durable.history) :
    (∃ status, .answered id (.delivered status) ∈ n.durable.history) ∨
      (∃ partition offset', W.Holds n.durable (.deadLetter, partition) offset' id) ∨
      ∃ topic offset', (topic = .delivery ∨ topic = .retry) ∧
        n.durable.broker.committed (topic, W.partition) ≤ offset' ∧
        W.Holds n.durable (topic, W.partition) offset' id := by
  have hinv := h.inv
  have hcommanded : Commanded n.durable.history id offset := ⟨true, hcommand⟩
  by_cases hpassed : offset < n.durable.broker.committed (.delivery, W.partition)
  · rcases hinv.settled hcommanded hpassed with hterminal | ⟨offset', hle, hholds⟩
    · rcases terminal_iff.mp hterminal with hdelivered | hdead
      · exact Or.inl hdelivered
      · exact Or.inr (Or.inl (hinv.dead hdead))
    · exact Or.inr (Or.inr ⟨.retry, offset', Or.inr rfl, hle, hholds⟩)
  · exact Or.inr (Or.inr ⟨.delivery, offset, Or.inl rfl, Nat.not_lt.mp hpassed,
      hinv.commands hcommanded⟩)

/-- The first attempt fails, the retry is published, the input is committed, and the worker
crashes. -/
def crashAfterRetry : Moves :=
  Moves.persist "d-1" ++ Moves.recover ++ Moves.take ++ Moves.attempt 503 ++
    [.act {}, .act {}, .act {}, .crash]

theorem traces_crashAfterRetry : (ordersWorker 1024 8).Traces crashAfterRetry
    [.command "d-1" 0 true, .started, .subscribed [.retry], .subscribed [.delivery, .retry],
      .received ⟨.delivery, 0, 0⟩ (ordersCommand "d-1").payload,
      .attempted ⟨.delivery, 0, 0⟩ "d-1" ⟨[123, 125], "m-1", 1⟩,
      .answered "d-1" (.failed .http5xx), .acknowledged .retry "d-1",
      .committed ⟨.delivery, 0, 0⟩] := by
  decide +kernel

theorem no_command_lost_after_crash :
    let W := ordersWorker 1024 8
    let w := (W.final crashAfterRetry).durable
    .command "d-1" 0 true ∈ w.history ∧
      ((∃ status, .answered "d-1" (.delivered status) ∈ w.history) ∨
        (∃ partition offset, W.Holds w (.deadLetter, partition) offset "d-1") ∨
        ∃ topic offset, (topic = .delivery ∨ topic = .retry) ∧
          w.broker.committed (topic, W.partition) ≤ offset ∧
          W.Holds w (topic, W.partition) offset "d-1") := by
  obtain ⟨hreachable, hhistory⟩ := traces_crashAfterRetry.reachable
  have hcommand : .command "d-1" 0 true ∈
      ((ordersWorker 1024 8).final crashAfterRetry).durable.history := by
    rw [hhistory]
    exact List.mem_cons_self
  exact ⟨hcommand, no_command_lost hreachable hcommand⟩

/-! ### Order -/

theorem Inv.commanded_before {w : World} (hw : W.Inv w) {before after : List Event} {e : Event}
    (hhistory : w.history = before ++ e :: after) {id₁ id₂ : String} {offset₁ offset₂ : ℕ}
    (h₁ : Commanded w.history id₁ offset₁) (h₂ : Commanded before id₂ offset₂)
    (hlt : offset₁ < offset₂) (he : ∀ id offset acknowledged, e ≠ .command id offset acknowledged) :
    Commanded before id₁ offset₁ := by
  obtain ⟨acknowledged, hmem⟩ := h₁
  rw [hhistory] at hmem
  rcases List.mem_append.mp hmem with hmem | hmem
  · exact ⟨acknowledged, hmem⟩
  · rcases List.mem_cons.mp hmem with heq | hmem
    · exact absurd heq.symm (he _ _ _)
    · obtain ⟨middle, rest, rfl⟩ := List.append_of_mem hmem
      have hlater := hw.increasing (before ++ e :: middle) (.command id₁ offset₁ acknowledged) rest
        (by rw [hhistory, List.append_assoc, List.cons_append])
      have hgt := hlater id₂ offset₂ (h₂.append _)
      omega

/-- A command is attempted only after every command before it in the delivery topic was delivered
or has an acknowledged dead letter, as long as shutdown is only signalled by the value true. -/
theorem order_survives_crashes (h : W.Reachable n) (hclean : Clean n.durable.history)
    {before after : List Event} {cursor : Cursor} {request : HttpRequest} {id₁ id₂ : String}
    {offset₁ offset₂ : ℕ}
    (hattempt : n.durable.history = before ++ .attempted cursor id₂ request :: after)
    (h₁ : Commanded n.durable.history id₁ offset₁) (h₂ : Commanded n.durable.history id₂ offset₂)
    (hlt : offset₁ < offset₂) :
    (∃ status, .answered id₁ (.delivered status) ∈ before) ∨
      .acknowledged .deadLetter id₁ ∈ before := by
  have hinv := h.inv
  obtain ⟨offset, hcommanded, hcleared⟩ := hinv.ordered hclean before _ after hattempt
  have hoffset : offset = offset₂ := by
    apply hinv.unique _ h₂
    rw [hattempt]
    exact hcommanded.append _
  subst hoffset
  have hbefore := hinv.commanded_before hattempt h₁ hcommanded hlt nofun
  exact terminal_iff.mp (hcleared id₁ offset₁ hbefore hlt)

/-- The first attempt for the first command fails, its retry is published, and the worker crashes.
After the restart it recovers the retry, delivers it, and attempts the second command. -/
def deliveredAfterCrash : Moves :=
  Moves.persist "d-1" ++ Moves.persist "d-2" ++ Moves.recover ++ Moves.take ++ Moves.attempt 503 ++
    [.act {}, .act {}, .act {}, .crash, .start, .act {}, .again, .act {},
      .act { wake := .message .retry 0 }, .again, .act { now := 60000 }, .act {}, .act {}, .act {},
      .again, .act {}, .act { wake := .partitionEof 0 }, .act { assigned := 1 }, .act {}, .again] ++
    Moves.take ++ Moves.attempt 200

theorem traces_deliveredAfterCrash : (ordersWorker 1024 8).Traces deliveredAfterCrash
    ([.command "d-1" 0 true, .command "d-2" 1 true, .started, .subscribed [.retry],
      .subscribed [.delivery, .retry],
      .received ⟨.delivery, 0, 0⟩ (ordersCommand "d-1").payload,
      .attempted ⟨.delivery, 0, 0⟩ "d-1" ⟨[123, 125], "m-1", 1⟩,
      .answered "d-1" (.failed .http5xx), .acknowledged .retry "d-1",
      .committed ⟨.delivery, 0, 0⟩, .started, .subscribed [.retry],
      .received ⟨.retry, 0, 0⟩
        ((ordersWorker 1024 8).endpoint.retried (ordersCommand "d-1") .http5xx 0).payload,
      .attempted ⟨.retry, 0, 0⟩ "d-1" ⟨[123, 125], "m-1", 2⟩,
      .answered "d-1" (.delivered 200), .committed ⟨.retry, 0, 0⟩,
      .subscribed [.delivery, .retry],
      .received ⟨.delivery, 0, 1⟩ (ordersCommand "d-2").payload] ++
      .attempted ⟨.delivery, 0, 1⟩ "d-2" ⟨[123, 125], "m-1", 1⟩ ::
      [.answered "d-2" (.delivered 200)]) := by
  decide +kernel

theorem order_survives_crashes_deliveries :
    ∃ before after, ((ordersWorker 1024 8).final deliveredAfterCrash).durable.history =
        before ++ .attempted ⟨.delivery, 0, 1⟩ "d-2" ⟨[123, 125], "m-1", 1⟩ :: after ∧
      before.count .started = 2 ∧
      ((∃ status, .answered "d-1" (.delivered status) ∈ before) ∨
        .acknowledged .deadLetter "d-1" ∈ before) := by
  obtain ⟨hreachable, hhistory⟩ := traces_deliveredAfterCrash.reachable
  refine ⟨_, _, hhistory, by decide +kernel,
    order_survives_crashes hreachable ?_ hhistory ⟨true, ?_⟩ ⟨true, ?_⟩ Nat.one_pos⟩
  · rw [hhistory]
    unfold Clean
    decide +kernel
  · rw [hhistory]
    exact List.mem_cons_self
  · rw [hhistory]
    exact List.mem_cons_of_mem _ List.mem_cons_self

end DurableWorker
end KafkaEdgeRouter.Webhook
