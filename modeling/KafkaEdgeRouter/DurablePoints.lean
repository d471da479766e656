import KafkaEdgeRouter.DurableInvariant

/-!
# Where the durable worker stands

The assertions at the heads of the worker's loops. While a record is in the hands of `process`, its
identifier is exempt: it alone may be without an end. All of them survive an extension, a step that
adds records and one event and leaves the consumer alone; every step around the worker is one.
-/

namespace KafkaEdgeRouter.Webhook

def Settling (h : List Event) (exempt : Option String) (id : String) : Prop :=
  Terminal h id ∨ exempt = some id

theorem Settling.terminal {h : List Event} {id id' : String} (hs : Settling h (some id) id')
    (ht : Terminal h id) : Settling h none id' := by
  rcases hs with hs | hs
  · exact Or.inl hs
  · cases hs
    exact Or.inl ht

theorem Settling.append {h : List Event} {exempt : Option String} {id : String}
    (hs : Settling h exempt id) (l : List Event) : Settling (h ++ l) exempt id :=
  hs.imp_left (fun ht => ht.append l)

/-- The worker subscribes to both topics when the recovery is over. -/
def bothTopics : Event := .subscribed [.delivery, .retry]

def recovery (h : List Event) : List Event := History.prior (fun e => e == bothTopics) (lifetime h)

def Event.isAttempted : Event → Bool
  | .attempted _ _ _ => true
  | _ => false

/-- The event belongs to the middle of a process and moves no cursor. -/
def Event.quiet : Event → Bool
  | .started | .subscribed _ | .received _ _ | .committed _ => false
  | _ => true

def terminalIds (h : List Event) : Finset String := (h.filterMap Event.terminalId).toFinset

theorem mem_terminalIds {h : List Event} {id : String} : id ∈ terminalIds h ↔ Terminal h id := by
  simp [terminalIds, Terminal]

/-- The worker remembers the identifiers that came to an end since it was started. -/
structure Recalls (completed : Finset String) (exempt : Option String) (h : List Event) :
    Prop where
  ended : ∀ id ∈ completed, Terminal (lifetime h) id
  complete : ∀ id, Terminal (lifetime h) id → id ∈ completed ∨ exempt = some id

namespace DurableWorker

variable (W : DurableWorker)

def ownReceipt : Event → Bool
  | .received _ payload => (W.own payload).isSome
  | _ => false

/-- The destination's records that were added to the retry topic since the start. -/
def LateRetries (exempt : Option String) (w : World) : Prop :=
  ∀ offset id, w.present (.retry, W.partition) ≤ offset →
    W.Holds w (.retry, W.partition) offset id → Settling w.history exempt id

/-- Every command that the committed offset has passed has come to an end. -/
def Caught (exempt : Option String) (w : World) : Prop :=
  ∀ id offset, Commanded w.history id offset →
    offset < w.broker.committed (.delivery, W.partition) → Settling w.history exempt id

structure Recovering (exempt : Option String) (eofPartitions : Finset ℕ) (recovered : ℕ)
    (w : World) : Prop where
  subscribed : w.subscribed = [.retry]
  late : W.LateRetries exempt w
  ended : ∀ q ∈ eofPartitions, q < W.cluster.partitions ∧
    w.present (.retry, q) ≤ w.broker.position (.retry, q)
  early : bothTopics ∉ lifetime w.history
  counted : recovered ≤ ((lifetime w.history).filter W.ownReceipt).length

def InPhase (exempt : Option String) (w : World) : Phase → Prop
  | .starting => W.LateRetries exempt w ∧ bothTopics ∉ lifetime w.history
  | .recovering eofPartitions recovered => W.Recovering exempt eofPartitions recovered w
  | .delivering =>
    Clean w.history → w.shutdown.value = true ∧ exempt = none ∨ W.Caught exempt w

/-- The record at the cursor was the last one received, and it is not committed. -/
structure Taken (w : World) (cursor : Cursor) (record : DurableRecord)
    (earlier later : List Event) : Prop where
  history : ∃ payload, w.history = earlier ++ .received cursor payload :: later ∧
    fromMessage W.maxRecordBytes payload = .ok record
  running : ∀ e ∈ later, e ≠ .started
  inHand : w.broker.InHand cursor.key
  offset : cursor.offset = w.broker.committed cursor.key

/-- The input of the job is in hand and was not brought to an end before in this process. -/
def HasInput (job : Job) (attempted : Prop) (w : World) : Prop :=
  ∃ record earlier later, W.Taken w job.cursor record earlier later ∧
    record.deliveryId = job.record.deliveryId ∧ record.destinationId = W.endpoint.id ∧
    ¬ Terminal (lifetime earlier) record.deliveryId ∧
    (attempted → ∃ request, .attempted job.cursor record.deliveryId request ∈ later)

structure Working (completed : Finset String) (job : Job) (attempted : Prop) (w : World) :
    Prop where
  destination : job.record.destinationId = W.endpoint.id
  version : job.record.schemaVersion = schemaVersion
  fresh : job.record.deliveryId ∉ completed
  known : ∃ offset, Commanded w.history job.record.deliveryId offset
  cleared : Clean w.history → Cleared w.history job.record.deliveryId
  input : if job.inputCommitted then w.broker.Aligned else W.HasInput job attempted w

structure Busy (c : Control) (job : Job) (attempted : Prop) (w : World) : Prop where
  phase : W.InPhase (some job.record.deliveryId) w c.phase
  recalls : Recalls c.completed (some job.record.deliveryId) w.history
  few : c.completed.card ≤ W.maxRecoveryRecords
  working : W.Working c.completed job attempted w

structure Idle (c : Control) (w : World) : Prop where
  phase : W.InPhase none w c.phase
  recalls : Recalls c.completed none w.history
  few : c.completed.card ≤ W.maxRecoveryRecords
  aligned : w.broker.Aligned

def Point (c : Control) : World → Prop :=
  match c.job with
  | none => W.Idle c
  | some job => W.Busy c job False

def malformed (payload : Payload) : Bool :=
  match fromMessage W.maxRecordBytes payload with
  | .error _ => true
  | .ok record => record.destinationId = W.endpoint.id &&
      (Base64.decode record.bodyBase64.toList).isNone

/-- The reasons for which the operations guide lets a worker exit. -/
inductive Documented (h : List Event) : Prop
  | recovery : W.maxRecoveryRecords < ((recovery h).filter W.ownReceipt).length → Documented h
  | malformed (cursor payload) : .received cursor payload ∈ lifetime h →
      W.malformed payload = true → Documented h
  | kafka (call) : .failed call ∈ lifetime h → call ≠ .receive → Documented h
  | receive : .failed .receive ∈ recovery h → Documented h

/-- More identifiers came to an end in this process than the recovery limit allows. -/
def Overflowed (h : List Event) : Prop := W.maxRecoveryRecords < (terminalIds (lifetime h)).card

/-- The reasons for which the worker can fail. -/
def Reason (w : World) : Prop :=
  Signalled w.history ∨ W.Documented w.history ∨ W.Overflowed w.history

def Verdict : Except String Unit → World → Prop
  | .ok _ => fun w => Signalled w.history
  | .error _ => W.Reason

/-! ### Extensions -/

/-- A step that adds records and one event and does not touch the consumer; only the exempt
identifier may come to an end or appear in the retry topic. -/
structure Extension (exempt : Option String) (e : Event) (w w' : World) : Prop
    extends Growth W e w w' where
  position : w'.broker.position = w.broker.position
  present : w'.present = w.present
  subscribed : w'.subscribed = w.subscribed
  value : Clean w'.history → w.shutdown.value = true → w'.shutdown.value = true
  quiet : e.quiet = true
  ended : ∀ id, e.terminalId = some id → exempt = some id
  retries : ∀ offset id, W.Holds w' (.retry, W.partition) offset id →
    W.Holds w (.retry, W.partition) offset id ∨ exempt = some id

variable {W} {exempt : Option String} {e : Event} {w w' : World}

theorem Extension.ne_started (hx : W.Extension exempt e w w') : e ≠ .started := by
  rintro rfl
  cases hx.quiet

theorem Extension.lifetime (hx : W.Extension exempt e w w') :
    lifetime w'.history = lifetime w.history ++ [e] := by
  rw [hx.history, lifetime_concat hx.ne_started]

theorem Extension.recovery (hx : W.Extension exempt e w w') :
    recovery w.history <+: recovery w'.history := by
  rw [Webhook.recovery, Webhook.recovery, hx.lifetime]
  exact History.prior_isPrefix _ _ _

theorem Extension.settling (hx : W.Extension exempt e w w') {id : String}
    {exempt' : Option String} (h : Settling w.history exempt' id) :
    Settling w'.history exempt' id :=
  h.imp_left hx.terminal

theorem Extension.late (hx : W.Extension exempt e w w') (h : W.LateRetries exempt w) :
    W.LateRetries exempt w' := by
  intro offset id hle hh
  rw [hx.present] at hle
  rcases hx.retries offset id hh with hh | hexempt
  · exact hx.settling (h offset id hle hh)
  · exact Or.inr hexempt

theorem Extension.caught (hx : W.Extension exempt e w w') (hw : W.Inv w)
    (h : W.Caught exempt w) : W.Caught exempt w' := by
  intro id offset hc hlt
  rw [hx.committed] at hlt
  rcases hx.commanded hc with hc | ⟨hle, _⟩
  · exact hx.settling (h id offset hc hlt)
  · have hbound := hw.bounded (.delivery, W.partition)
    omega

theorem Extension.early (hx : W.Extension exempt e w w')
    (h : bothTopics ∉ Webhook.lifetime w.history) : bothTopics ∉ Webhook.lifetime w'.history := by
  rw [hx.lifetime]
  intro hmem
  rcases List.mem_append.mp hmem with hmem | hmem
  · exact h hmem
  · have hquiet := hx.quiet
    rw [← List.mem_singleton.mp hmem] at hquiet
    cases hquiet

theorem Extension.inPhase (hx : W.Extension exempt e w w') (hw : W.Inv w) {phase : Phase}
    (h : W.InPhase exempt w phase) : W.InPhase exempt w' phase := by
  cases phase with
  | starting => exact ⟨hx.late h.1, hx.early h.2⟩
  | recovering eofPartitions recovered =>
    constructor
    · rw [hx.subscribed]
      exact h.subscribed
    · exact hx.late h.late
    · rw [hx.present, hx.position]
      exact h.ended
    · exact hx.early h.early
    · apply Nat.le_trans h.counted
      rw [hx.lifetime, List.filter_append, List.length_append]
      exact Nat.le_add_right _ _
  | delivering =>
    intro hclean
    rcases h (hx.clean hclean) with ⟨hvalue, hexempt⟩ | hcaught
    · exact Or.inl ⟨hx.value hclean hvalue, hexempt⟩
    · exact Or.inr (hx.caught hw hcaught)

theorem Extension.recalls (hx : W.Extension exempt e w w') {completed : Finset String}
    (h : Recalls completed exempt w.history) : Recalls completed exempt w'.history := by
  constructor
  · intro id hid
    rw [hx.lifetime]
    exact (h.ended id hid).append _
  · intro id hid
    rw [hx.lifetime] at hid
    obtain ⟨e', hmem, hterminal⟩ := hid
    rcases List.mem_append.mp hmem with hmem | hmem
    · exact h.complete id ⟨e', hmem, hterminal⟩
    · rw [List.mem_singleton.mp hmem] at hterminal
      exact Or.inr (hx.ended id hterminal)

theorem Extension.aligned (hx : W.Extension exempt e w w') (h : w.broker.Aligned) :
    w'.broker.Aligned := by
  rw [Broker.Aligned, hx.position, hx.committed]
  exact h

theorem Extension.taken (hx : W.Extension exempt e w w') {cursor : Cursor}
    {record : DurableRecord} {earlier later : List Event}
    (h : W.Taken w cursor record earlier later) :
    W.Taken w' cursor record earlier (later ++ [e]) := by
  obtain ⟨payload, hhistory, hmessage⟩ := h.history
  constructor
  · refine ⟨payload, ?_, hmessage⟩
    rw [hx.history, hhistory, List.append_assoc, List.cons_append]
  · intro e' he'
    rcases List.mem_append.mp he' with he' | he'
    · exact h.running e' he'
    · rw [List.mem_singleton.mp he']
      exact hx.ne_started
  · rw [Broker.InHand, hx.position, hx.committed]
    exact h.inHand
  · rw [hx.committed]
    exact h.offset

theorem Extension.hasInput (hx : W.Extension exempt e w w') {job : Job} {attempted : Prop}
    (h : W.HasInput job attempted w) : W.HasInput job attempted w' := by
  obtain ⟨record, earlier, later, htaken, hid, hdestination, hfirst, hattempted⟩ := h
  refine ⟨record, earlier, later ++ [e], hx.taken htaken, hid, hdestination, hfirst, ?_⟩
  intro ha
  obtain ⟨request, hmem⟩ := hattempted ha
  exact ⟨request, List.mem_append_left _ hmem⟩

theorem Extension.working (hx : W.Extension exempt e w w') (hw : W.Inv w)
    {completed : Finset String} {job : Job} {attempted : Prop}
    (h : W.Working completed job attempted w) : W.Working completed job attempted w' where
  destination := h.destination
  version := h.version
  fresh := h.fresh
  known := by
    obtain ⟨offset, hc⟩ := h.known
    rw [hx.history]
    exact ⟨offset, hc.append _⟩
  cleared hclean := hx.cleared hw (h.cleared (hx.clean hclean))
  input := by
    have hinput := h.input
    split_ifs at hinput ⊢ with hcommitted
    · exact hx.aligned hinput
    · exact hx.hasInput hinput

theorem Extension.busy {c : Control} {job : Job} {attempted : Prop}
    (hx : W.Extension (some job.record.deliveryId) e w w') (hw : W.Inv w)
    (h : W.Busy c job attempted w) : W.Busy c job attempted w' :=
  ⟨hx.inPhase hw h.phase, hx.recalls h.recalls, h.few, hx.working hw h.working⟩

theorem Extension.idle {c : Control} (hx : W.Extension none e w w') (hw : W.Inv w)
    (h : W.Idle c w) : W.Idle c w' :=
  ⟨hx.inPhase hw h.phase, hx.recalls h.recalls, h.few, hx.aligned h.aligned⟩

theorem Extension.weaken (hx : W.Extension none e w w') (exempt : Option String) :
    W.Extension exempt e w w' where
  toGrowth := hx.toGrowth
  position := hx.position
  present := hx.present
  subscribed := hx.subscribed
  value := hx.value
  quiet := hx.quiet
  ended id hid := by cases hx.ended id hid
  retries offset id hh := by
    rcases hx.retries offset id hh with hh | hnone
    · exact Or.inl hh
    · cases hnone

theorem Extension.documented (hx : W.Extension exempt e w w') (h : W.Documented w.history) :
    W.Documented w'.history := by
  have hrecovery := hx.recovery
  cases h with
  | recovery hlt =>
    exact .recovery (Nat.lt_of_lt_of_le hlt (hrecovery.filter _).length_le)
  | malformed cursor payload hmem hbad =>
    apply Documented.malformed cursor payload _ hbad
    rw [hx.lifetime]
    exact List.mem_append_left _ hmem
  | kafka call hmem hne =>
    apply Documented.kafka call _ hne
    rw [hx.lifetime]
    exact List.mem_append_left _ hmem
  | receive hmem => exact .receive (hrecovery.subset hmem)

theorem Extension.signalled (hx : W.Extension exempt e w w') (h : Signalled w.history) :
    Signalled w'.history := by
  rw [hx.history]
  exact h.concat hx.ne_started

theorem Extension.reason (hx : W.Extension exempt e w w') (h : W.Reason w) : W.Reason w' := by
  rcases h with h | h | h
  · exact Or.inl (hx.signalled h)
  · exact Or.inr (Or.inl (hx.documented h))
  · refine Or.inr (Or.inr (Nat.lt_of_lt_of_le h (Finset.card_le_card ?_)))
    intro id hid
    rw [mem_terminalIds] at hid ⊢
    rw [hx.lifetime]
    exact hid.append _

end DurableWorker
end KafkaEdgeRouter.Webhook
