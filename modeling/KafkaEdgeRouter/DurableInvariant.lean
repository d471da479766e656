import KafkaEdgeRouter.DurableWorker
import KafkaEdgeRouter.EventHistory

/-!
# What a durable destination never loses track of

The invariant ties the three topics to the history. Every command stays readable at its offset; a
command that the committed offset has passed has come to an end or has a record in the retry topic
that is not passed; and as long as shutdown is only signalled by the value true, a record that has
left the delivery topic belongs to a command all of whose predecessors have come to an end. A step
that only adds records and one event keeps the invariant by `Inv.growth`, a commit by `Inv.commit`.
-/

namespace KafkaEdgeRouter.Webhook

/-! ### Histories -/

def Event.terminalId : Event → Option String
  | .answered deliveryId (.delivered _) => some deliveryId
  | .acknowledged .deadLetter deliveryId => some deliveryId
  | _ => none

def Event.isShutdown : Event → Bool
  | .signalled _ | .senderDropped => true
  | _ => false

def Terminal (h : List Event) (id : String) : Prop := ∃ e ∈ h, e.terminalId = some id

/-- What has happened since the worker was last started. -/
def lifetime (h : List Event) : List Event := History.current (fun e => e == .started) h

def Signalled (h : List Event) : Prop := ∃ e ∈ lifetime h, e.isShutdown = true

/-- Shutdown is only signalled by the value true. -/
def Clean (h : List Event) : Prop := ∀ e ∈ h, e ≠ .senderDropped ∧ e ≠ .signalled false

def Commanded (h : List Event) (id : String) (offset : ℕ) : Prop :=
  ∃ acknowledged, Event.command id offset acknowledged ∈ h

/-- Every command before this one has come to an end. -/
def Cleared (h : List Event) (id : String) : Prop :=
  ∃ offset, Commanded h id offset ∧
    ∀ id' offset', Commanded h id' offset' → offset' < offset → Terminal h id'

theorem Terminal.append {h : List Event} {id : String} (ht : Terminal h id) (l : List Event) :
    Terminal (h ++ l) id := by
  obtain ⟨e, he, hid⟩ := ht
  exact ⟨e, List.mem_append_left l he, hid⟩

theorem terminal_iff {h : List Event} {id : String} : Terminal h id ↔
    (∃ status, .answered id (.delivered status) ∈ h) ∨ .acknowledged .deadLetter id ∈ h := by
  constructor
  · rintro ⟨e, hmem, hid⟩
    cases e with
    | answered id' outcome =>
      cases outcome with
      | delivered status =>
        obtain rfl := Option.some.inj hid
        exact Or.inl ⟨status, hmem⟩
      | failed failure => cases hid
    | acknowledged topic id' =>
      cases topic with
      | deadLetter =>
        obtain rfl := Option.some.inj hid
        exact Or.inr hmem
      | _ => cases hid
    | _ => cases hid
  · rintro (⟨status, hmem⟩ | hmem)
    · exact ⟨_, hmem, rfl⟩
    · exact ⟨_, hmem, rfl⟩

theorem Commanded.append {h : List Event} {id : String} {offset : ℕ}
    (hc : Commanded h id offset) (l : List Event) : Commanded (h ++ l) id offset := by
  obtain ⟨acknowledged, hmem⟩ := hc
  exact ⟨acknowledged, List.mem_append_left l hmem⟩

theorem Clean.of_append {h l : List Event} (hc : Clean (h ++ l)) : Clean h :=
  fun e he => hc e (List.mem_append_left l he)

theorem lifetime_started (h : List Event) : lifetime (h ++ [.started]) = [] := by
  rw [lifetime, History.current_concat]
  rfl

theorem lifetime_concat {h : List Event} {e : Event} (he : e ≠ .started) :
    lifetime (h ++ [e]) = lifetime h ++ [e] := by
  rw [lifetime, History.current_concat, if_neg (by simpa using he)]
  rfl

theorem Terminal.of_lifetime {h : List Event} {id : String} (ht : Terminal (lifetime h) id) :
    Terminal h id := by
  obtain ⟨e, he, hid⟩ := ht
  exact ⟨e, History.mem_current he, hid⟩

theorem Signalled.concat {h : List Event} {e : Event} (hs : Signalled h) (he : e ≠ .started) :
    Signalled (h ++ [e]) := by
  obtain ⟨e', hmem, hshut⟩ := hs
  refine ⟨e', ?_, hshut⟩
  rw [lifetime_concat he]
  exact List.mem_append_left _ hmem

theorem signalled_new {h : List Event} {e : Event} (he : e.isShutdown = true) :
    Signalled (h ++ [e]) := by
  have hne : e ≠ .started := by
    rintro rfl
    cases he
  refine ⟨e, ?_, he⟩
  rw [lifetime_concat hne]
  exact List.mem_append_right _ (List.mem_singleton_self e)

theorem Cleared.concat {h : List Event} {e : Event} {id : String} {bound : ℕ} (hc : Cleared h id)
    (hbound : ∀ id offset, Commanded h id offset → offset < bound)
    (hnew : ∀ id offset acknowledged, e = .command id offset acknowledged → bound ≤ offset) :
    Cleared (h ++ [e]) id := by
  obtain ⟨offset, hcommand, hbefore⟩ := hc
  refine ⟨offset, hcommand.append _, ?_⟩
  rintro id' offset' ⟨acknowledged, hmem⟩ hlt
  rcases List.mem_append.mp hmem with hmem | hmem
  · exact (hbefore id' offset' ⟨acknowledged, hmem⟩ hlt).append _
  · have hle := hnew id' offset' acknowledged (List.mem_singleton.mp hmem).symm
    have hlt' := hbound id offset hcommand
    omega

/-! ### The invariant -/

namespace DurableWorker

variable (W : DurableWorker)

def Holds (w : World) (key : Topic × ℕ) (offset : ℕ) (id : String) : Prop :=
  ∃ payload record, w.broker.At key offset payload ∧ W.own payload = some record ∧
    record.deliveryId = id

def RetryPending (w : World) (id : String) : Prop :=
  ∃ offset, w.broker.committed (.retry, W.partition) ≤ offset ∧
    W.Holds w (.retry, W.partition) offset id

def DeadLettered (w : World) (id : String) : Prop :=
  ∃ partition offset, W.Holds w (.deadLetter, partition) offset id

/-- The record at the cursor was received before, and an attempt was made for it since exactly when
its identifier had not come to an end before in the same process. -/
def Served (before : List Event) (cursor : Cursor) : Prop :=
  ∃ earlier payload later record, before = earlier ++ .received cursor payload :: later ∧
    (∀ e ∈ later, e ≠ .started) ∧ fromMessage W.maxRecordBytes payload = .ok record ∧
    (record.destinationId = W.endpoint.id →
      ((∃ request, .attempted cursor record.deliveryId request ∈ later) ↔
        ¬ Terminal (lifetime earlier) record.deliveryId))

def Ordered (before : List Event) : Event → Prop
  | .attempted _ id _ => Cleared before id
  | _ => True

def Increasing (before : List Event) : Event → Prop
  | .command _ offset _ => ∀ id' offset', Commanded before id' offset' → offset' < offset
  | _ => True

/-- A commit waits for the service of its record. -/
def Accounted (before : List Event) : Event → Prop
  | .committed cursor => W.Served before cursor
  | _ => True

def live (w : World) : Bool := w.shutdown.value || w.shutdown.unseen || w.shutdown.dropped

structure Inv (w : World) : Prop where
  bounded : w.broker.Bounded
  commands : ∀ {id offset}, Commanded w.history id offset →
    W.Holds w (.delivery, W.partition) offset id
  unique : ∀ {id offset offset'}, Commanded w.history id offset →
    Commanded w.history id offset' → offset = offset'
  increasing : History.Justified Increasing w.history
  known : ∀ {key offset id}, W.Holds w key offset id → ∃ offset', Commanded w.history id offset'
  delivered : ∀ {partition offset id}, W.Holds w (.delivery, partition) offset id →
    partition = W.partition ∧ (Commanded w.history id offset ∨ W.DeadLettered w id)
  dead : ∀ {id}, .acknowledged .deadLetter id ∈ w.history → W.DeadLettered w id
  receipts : ∀ {cursor payload}, .received cursor payload ∈ w.history →
    w.broker.At cursor.key cursor.offset payload
  replays : ∀ {id offset}, .replayed id offset ∈ w.history →
    ∃ record : DurableRecord, w.broker.At (.delivery, W.partition) offset record.payload ∧
      record.deliveryId = id ∧ record.destinationId = W.endpoint.id
  settled : ∀ {id offset}, Commanded w.history id offset →
    offset < w.broker.committed (.delivery, W.partition) →
    Terminal w.history id ∨ W.RetryPending w id
  cleared : Clean w.history → ∀ {topic partition offset id}, topic ≠ .delivery →
    W.Holds w (topic, partition) offset id → Cleared w.history id
  ordered : Clean w.history → History.Justified Ordered w.history
  accounted : History.Justified W.Accounted w.history
  signals : live w = true → Signalled w.history
  dropped : w.shutdown.dropped = true → .senderDropped ∈ w.history

variable {W} {w w' : World} {id : String}

/-- What the step has to have done with the topics for the event. -/
def Adds (W : DurableWorker) (w w' : World) : Event → Prop
  | .command id offset _ => (w.broker.log (.delivery, W.partition)).length ≤ offset ∧
      W.Holds w' (.delivery, W.partition) offset id ∧ ∀ offset', ¬ Commanded w.history id offset'
  | .replayed id offset => ∃ record : DurableRecord,
      w'.broker.At (.delivery, W.partition) offset record.payload ∧
      record.deliveryId = id ∧ record.destinationId = W.endpoint.id
  | .received cursor payload => w'.broker.At cursor.key cursor.offset payload
  | .attempted _ id _ => Clean w.history → Cleared w.history id
  | .acknowledged .deadLetter id => W.DeadLettered w' id
  | .committed _ => False
  | _ => True

/-- What a step may add to the topics while it adds one event to the history. -/
structure Growth (W : DurableWorker) (e : Event) (w w' : World) : Prop where
  history : w'.history = w.history ++ [e]
  committed : w'.broker.committed = w.broker.committed
  kept : ∀ {key offset payload}, w.broker.At key offset payload → w'.broker.At key offset payload
  records : ∀ {topic partition offset id}, W.Holds w' (topic, partition) offset id →
    W.Holds w (topic, partition) offset id ∨
    (topic ≠ .delivery ∧ (∃ offset', Commanded w.history id offset') ∧
      (Clean w.history → Cleared w.history id)) ∨
    (topic = .delivery ∧ partition = W.partition ∧
      ((∃ acknowledged, e = .command id offset acknowledged) ∨ W.DeadLettered w id))
  event : W.Adds w w' e
  signals : live w' = true → live w = true ∧ e ≠ .started ∨ e.isShutdown = true
  dropped : w'.shutdown.dropped = true → w.shutdown.dropped = true ∨ e = .senderDropped

theorem Holds.growth {e : Event} (hg : Growth W e w w') {key : Topic × ℕ} {offset : ℕ}
    (h : W.Holds w key offset id) : W.Holds w' key offset id := by
  obtain ⟨payload, record, hat, hown⟩ := h
  exact ⟨payload, record, hg.kept hat, hown⟩

theorem Inv.offset_lt (hw : W.Inv w) {offset : ℕ} (h : Commanded w.history id offset) :
    offset < (w.broker.log (.delivery, W.partition)).length := by
  obtain ⟨payload, record, hat, _⟩ := hw.commands h
  exact hat.lt

theorem Growth.commanded {e : Event} (hg : Growth W e w w') {offset : ℕ}
    (h : Commanded w'.history id offset) :
    Commanded w.history id offset ∨
      (w.broker.log (.delivery, W.partition)).length ≤ offset ∧
      W.Holds w' (.delivery, W.partition) offset id ∧
      (∀ offset', ¬ Commanded w.history id offset') ∧
      ∃ acknowledged, e = .command id offset acknowledged := by
  obtain ⟨acknowledged, hmem⟩ := h
  rw [hg.history] at hmem
  rcases List.mem_append.mp hmem with hmem | hmem
  · exact Or.inl ⟨acknowledged, hmem⟩
  · have heq : e = .command id offset acknowledged := (List.mem_singleton.mp hmem).symm
    have hevent := hg.event
    rw [heq] at hevent
    exact Or.inr ⟨hevent.1, hevent.2.1, hevent.2.2, acknowledged, heq⟩

theorem Growth.cleared {e : Event} (hg : Growth W e w w') (hw : W.Inv w)
    (h : Cleared w.history id) : Cleared w'.history id := by
  rw [hg.history]
  apply h.concat (fun id offset => hw.offset_lt)
  intro id offset acknowledged heq
  have hevent := hg.event
  rw [heq] at hevent
  exact hevent.1

theorem Growth.mem {e e' : Event} (hg : Growth W e w w') (h : e' ∈ w'.history) :
    e' ∈ w.history ∨ e' = e := by
  rw [hg.history] at h
  simpa using h

theorem Growth.clean {e : Event} (hg : Growth W e w w') (h : Clean w'.history) :
    Clean w.history := by
  rw [hg.history] at h
  exact h.of_append

theorem Growth.terminal {e : Event} (hg : Growth W e w w') (h : Terminal w.history id) :
    Terminal w'.history id := by
  rw [hg.history]
  exact h.append _

theorem Growth.bounded {e : Event} (hg : Growth W e w w') (hw : w.broker.Bounded) :
    w'.broker.Bounded := by
  intro key
  rw [hg.committed]
  apply Nat.le_trans (hw key)
  by_contra hlt
  obtain ⟨v, hv⟩ : ∃ v, w.broker.At key (w'.broker.log key).length v :=
    ⟨_, List.getElem?_eq_getElem (Nat.not_le.mp hlt)⟩
  exact Nat.lt_irrefl _ (hg.kept hv).lt

theorem DeadLettered.growth {e : Event} (hg : Growth W e w w') (h : W.DeadLettered w id) :
    W.DeadLettered w' id := by
  obtain ⟨partition, offset, hh⟩ := h
  exact ⟨partition, offset, hh.growth hg⟩

theorem RetryPending.growth {e : Event} (hg : Growth W e w w') (h : W.RetryPending w id) :
    W.RetryPending w' id := by
  obtain ⟨offset, hle, hh⟩ := h
  exact ⟨offset, by rwa [hg.committed], hh.growth hg⟩

/-- A step that adds records and one event keeps the invariant. -/
theorem Inv.growth {e : Event} (hw : W.Inv w) (hg : Growth W e w w') : W.Inv w' where
  bounded := hg.bounded hw.bounded
  commands h := by
    rcases hg.commanded h with h | ⟨_, h, _⟩
    · exact (hw.commands h).growth hg
    · exact h
  unique h h' := by
    rcases hg.commanded h with h | ⟨_, _, hfresh, _, rfl⟩
    · rcases hg.commanded h' with h' | ⟨_, _, hfresh', _⟩
      · exact hw.unique h h'
      · exact absurd h (hfresh' _)
    · rcases hg.commanded h' with h' | ⟨_, _, _, _, heq⟩
      · exact absurd h' (hfresh _)
      · cases heq
        rfl
  increasing := by
    rw [hg.history, History.justified_concat]
    refine ⟨hw.increasing, ?_⟩
    have hevent := hg.event
    cases e with
    | command id offset acknowledged =>
      exact fun id' offset' hc => Nat.lt_of_lt_of_le (hw.offset_lt hc) hevent.1
    | _ => trivial
  known {key offset id} h := by
    obtain ⟨topic, partition⟩ := key
    have hlift : (∃ offset', Commanded w.history id offset') →
        ∃ offset', Commanded w'.history id offset' := by
      rintro ⟨offset', hc⟩
      rw [hg.history]
      exact ⟨offset', hc.append _⟩
    rcases hg.records h with h | ⟨_, h, _⟩ | ⟨_, _, ⟨acknowledged, rfl⟩ | ⟨_, _, h⟩⟩
    · exact hlift (hw.known h)
    · exact hlift h
    · rw [hg.history]
      exact ⟨offset, acknowledged, by simp⟩
    · exact hlift (hw.known h)
  delivered {partition offset id} h := by
    rcases hg.records h with h | ⟨hne, _⟩ | ⟨_, hpartition, ⟨acknowledged, rfl⟩ | hdead⟩
    · obtain ⟨hpartition, hc | hdead⟩ := hw.delivered h
      · rw [hg.history]
        exact ⟨hpartition, Or.inl (hc.append _)⟩
      · exact ⟨hpartition, Or.inr (hdead.growth hg)⟩
    · exact absurd rfl hne
    · rw [hg.history]
      exact ⟨hpartition, Or.inl ⟨acknowledged, by simp⟩⟩
    · exact ⟨hpartition, Or.inr (hdead.growth hg)⟩
  dead h := by
    rcases hg.mem h with h | rfl
    · exact (hw.dead h).growth hg
    · exact hg.event
  receipts h := by
    rcases hg.mem h with h | rfl
    · exact hg.kept (hw.receipts h)
    · exact hg.event
  replays h := by
    rcases hg.mem h with h | rfl
    · obtain ⟨record, hat, hrecord⟩ := hw.replays h
      exact ⟨record, hg.kept hat, hrecord⟩
    · exact hg.event
  settled {id offset} h hlt := by
    rw [hg.committed] at hlt
    rcases hg.commanded h with h | ⟨hle, _⟩
    · rcases hw.settled h hlt with ht | hr
      · exact Or.inl (hg.terminal ht)
      · exact Or.inr (hr.growth hg)
    · have hbound := hw.bounded (.delivery, W.partition)
      omega
  cleared hclean {topic partition offset id} htopic h := by
    have hclean' := hg.clean hclean
    rcases hg.records h with h | ⟨_, _, h⟩ | ⟨rfl, _⟩
    · exact hg.cleared hw (hw.cleared hclean' htopic h)
    · exact hg.cleared hw (h hclean')
    · exact absurd rfl htopic
  ordered hclean := by
    have hclean' := hg.clean hclean
    rw [hg.history, History.justified_concat]
    refine ⟨hw.ordered hclean', ?_⟩
    have hevent := hg.event
    cases e with
    | attempted cursor id request => exact hevent hclean'
    | _ => trivial
  accounted := by
    rw [hg.history, History.justified_concat]
    refine ⟨hw.accounted, ?_⟩
    have hevent := hg.event
    cases e with
    | committed cursor => exact hevent.elim
    | _ => trivial
  signals h := by
    rw [hg.history]
    rcases hg.signals h with ⟨hlive, hne⟩ | hshut
    · exact (hw.signals hlive).concat hne
    · exact signalled_new hshut
  dropped h := by
    rw [hg.history]
    rcases hg.dropped h with h | rfl
    · exact List.mem_append_left _ (hw.dropped h)
    · simp

/-- What has to be true of an identifier whose record at the cursor is passed. -/
def Passed (W : DurableWorker) (w : World) (cursor : Cursor) (id : String) : Prop :=
  Terminal w.history id ∨ ∃ offset, w.broker.committed (.retry, W.partition) ≤ offset ∧
    (cursor.key = (.retry, W.partition) → cursor.offset < offset) ∧
    W.Holds w (.retry, W.partition) offset id

theorem Holds.unique {key : Topic × ℕ} {offset : ℕ} {id' : String} (h : W.Holds w key offset id)
    (h' : W.Holds w key offset id') : id = id' := by
  obtain ⟨payload, record, hat, hown, rfl⟩ := h
  obtain ⟨payload', record', hat', hown', rfl⟩ := h'
  cases hat.unique hat'
  rw [hown] at hown'
  cases hown'
  rfl

/-- Committing the record in hand keeps the invariant when its identifier may be passed. -/
theorem Inv.commit (hw : W.Inv w) {cursor : Cursor}
    (hoffset : cursor.offset = w.broker.committed cursor.key)
    (hlt : cursor.offset < (w.broker.log cursor.key).length)
    (hpassed : ∀ id, W.Holds w cursor.key cursor.offset id → W.Passed w cursor id)
    (hserved : W.Served w.history cursor) :
    W.Inv ((w.commit cursor).log (.committed cursor)) := by
  have hcommanded : ∀ {id offset}, Commanded (w.history ++ [.committed cursor]) id offset →
      Commanded w.history id offset := by
    rintro id offset ⟨acknowledged, hmem⟩
    exact ⟨acknowledged, by simpa using hmem⟩
  have hcleared : ∀ {id}, Cleared w.history id → Cleared (w.history ++ [.committed cursor]) id :=
    fun h => h.concat (fun id offset => hw.offset_lt) nofun
  have hpending : ∀ {id}, W.RetryPending w id → Terminal w.history id ∨
      W.RetryPending ((w.commit cursor).log (.committed cursor)) id := by
    rintro id ⟨offset, hle, hh⟩
    by_cases hkey : cursor.key = (.retry, W.partition)
    · rcases Nat.eq_or_lt_of_le hle with heq | hgt
      · rw [← hkey] at heq
        rw [← heq, ← hkey, ← hoffset] at hh
        rcases hpassed id hh with ht | ⟨offset', _, hbeyond, hh'⟩
        · exact Or.inl ht
        · refine Or.inr ⟨offset', ?_, hh'⟩
          simp only [World.commit, World.log, Broker.commit, hkey, Function.update_self]
          exact hbeyond hkey
      · refine Or.inr ⟨offset, ?_, hh⟩
        simp only [World.commit, World.log, Broker.commit, hkey, Function.update_self]
        rw [hkey] at hoffset
        omega
    · refine Or.inr ⟨offset, ?_, hh⟩
      simpa only [World.commit, World.log, Broker.commit,
        Function.update_of_ne (Ne.symm hkey)] using hle
  constructor
  case bounded => exact hw.bounded.commit hlt
  case commands => exact fun h => hw.commands (hcommanded h)
  case unique => exact fun h h' => hw.unique (hcommanded h) (hcommanded h')
  case increasing => exact History.justified_concat.mpr ⟨hw.increasing, trivial⟩
  case known =>
    intro key offset id h
    obtain ⟨offset', hc⟩ := hw.known h
    exact ⟨offset', hc.append _⟩
  case delivered =>
    intro partition offset id h
    obtain ⟨hpartition, hc | hdead⟩ := hw.delivered h
    · exact ⟨hpartition, Or.inl (hc.append _)⟩
    · exact ⟨hpartition, Or.inr hdead⟩
  case dead => exact fun h => hw.dead (by simpa [World.log, World.commit] using h)
  case receipts => exact fun h => hw.receipts (by simpa [World.log, World.commit] using h)
  case replays => exact fun h => hw.replays (by simpa [World.log, World.commit] using h)
  case settled =>
    intro id offset h hlt'
    have hc := hcommanded h
    have hold : offset < w.broker.committed (.delivery, W.partition) →
        Terminal (w.history ++ [.committed cursor]) id ∨
          W.RetryPending ((w.commit cursor).log (.committed cursor)) id := by
      intro hlt''
      rcases hw.settled hc hlt'' with ht | hr
      · exact Or.inl (ht.append _)
      · exact (hpending hr).imp_left (fun ht => ht.append _)
    by_cases hkey : cursor.key = (.delivery, W.partition)
    · simp only [World.commit, World.log, Broker.commit, hkey, Function.update_self] at hlt'
      rcases Nat.eq_or_lt_of_le (Nat.le_of_lt_succ hlt') with heq | hlt''
      · have hh := hw.commands hc
        rw [heq, ← hkey] at hh
        rcases hpassed id hh with ht | ⟨offset', hle, _, hh'⟩
        · exact Or.inl (ht.append _)
        · refine Or.inr ⟨offset', ?_, hh'⟩
          simpa [World.commit, World.log, Broker.commit, hkey] using hle
      · rw [hkey] at hoffset
        exact hold (by omega)
    · apply hold
      simpa only [World.commit, World.log, Broker.commit,
        Function.update_of_ne (Ne.symm hkey)] using hlt'
  case cleared =>
    intro hclean topic partition offset id htopic h
    exact hcleared (hw.cleared hclean.of_append htopic h)
  case ordered =>
    intro hclean
    exact History.justified_concat.mpr ⟨hw.ordered hclean.of_append, trivial⟩
  case accounted => exact History.justified_concat.mpr ⟨hw.accounted, hserved⟩
  case signals => exact fun h => (hw.signals h).concat (by simp)
  case dropped => exact fun h => List.mem_append_left _ (hw.dropped h)

end DurableWorker
end KafkaEdgeRouter.Webhook
