import KafkaEdgeRouter.AttemptNumbers
import KafkaEdgeRouter.ProgramTraces

/-!
# The ledger of a durable destination

Copies of a command lie in three topics at once and are received in different phases. The ledger
says that they all have the content of the record that was persisted, that every attempt has sent
it, and that attempts are numbered as they should. Most of what happens around a record is silent:
it leaves the ledger and what the worker knows of it as they are.
-/

namespace KafkaEdgeRouter.Webhook.DurableWorker

variable {W : DurableWorker} {id : String} {e : Event}

/-! ### The ledger -/

/-- The record with which the command was persisted. -/
def Persisted (W : DurableWorker) (w : World) (id : String) (command : DurableRecord) : Prop :=
  ∃ offset, Commanded w.history id offset ∧
    w.broker.At (.delivery, W.partition) offset command.payload ∧ W.IsCommand command ∧
    command.deliveryId = id

/-- The record has the content of a persisted command. -/
def Genuine (W : DurableWorker) (record : DurableRecord) (w : World) : Prop :=
  ∃ command, W.Persisted w record.deliveryId command ∧ record.SameContent command

/-- The request sends the body of a persisted command under its key. -/
def Carries (W : DurableWorker) (id : String) (request : HttpRequest) (w : World) : Prop :=
  ∃ command, W.Persisted w id command ∧ request.messageId = command.originalMessageId ∧
    Base64.decode command.bodyBase64.toList = some request.body

structure Ledger (W : DurableWorker) (w : World) : Prop where
  content : ∀ {key offset payload record}, w.broker.At key offset payload →
    W.own payload = some record → W.Genuine record w
  carried : ∀ {cursor id request}, .attempted cursor id request ∈ w.history →
    W.Carries id request w
  lively : History.Justified W.Lively w.history

/-- Nothing that was written is gone. -/
structure Keeping (w w' : World) : Prop where
  history : w.history <+: w'.history
  kept : ∀ {key offset payload}, w.broker.At key offset payload → w'.broker.At key offset payload

variable {w w' s : World} {record : DurableRecord}

theorem Persisted.keep {command : DurableRecord} (h : W.Persisted w id command)
    (hk : Keeping w w') : W.Persisted w' id command := by
  obtain ⟨offset, ⟨acknowledged, hmem⟩, hat, hcommand⟩ := h
  exact ⟨offset, ⟨acknowledged, hk.history.subset hmem⟩, hk.kept hat, hcommand⟩

theorem Genuine.keep (h : W.Genuine record w) (hk : Keeping w w') : W.Genuine record w' := by
  obtain ⟨command, hpersisted, hsame⟩ := h
  exact ⟨command, hpersisted.keep hk, hsame⟩

theorem Genuine.same {record' : DurableRecord} (h : W.Genuine record w)
    (hsame : record'.SameContent record) : W.Genuine record' w := by
  obtain ⟨command, hpersisted, hcontent⟩ := h
  refine ⟨command, ?_, hsame.trans hcontent⟩
  rwa [hsame.deliveryId]

theorem Carries.keep {request : HttpRequest} (h : W.Carries id request w) (hk : Keeping w w') :
    W.Carries id request w' := by
  obtain ⟨command, hpersisted, hrest⟩ := h
  exact ⟨command, hpersisted.keep hk, hrest⟩

/-- A step that adds one event, and records of persisted commands only. -/
structure Entry (W : DurableWorker) (e : Event) (w w' : World) : Prop where
  history : w'.history = w.history ++ [e]
  kept : ∀ {key offset payload}, w.broker.At key offset payload → w'.broker.At key offset payload
  added : ∀ {key offset payload record}, w'.broker.At key offset payload →
    W.own payload = some record → w.broker.At key offset payload ∨ W.Genuine record w'

theorem Entry.keeping (h : W.Entry e w w') : Keeping w w' where
  history := by
    rw [h.history]
    exact List.prefix_append _ _
  kept := h.kept

theorem Entry.lifetime (h : W.Entry e w w') (he : e ≠ .started) :
    lifetime w'.history = lifetime w.history ++ [e] := by
  rw [h.history, lifetime_concat he]

theorem Ledger.entry (hw : W.Ledger w) (h : W.Entry e w w') (hlively : W.Lively w.history e)
    (hcarried : ∀ cursor id request, e = .attempted cursor id request → W.Carries id request w) :
    W.Ledger w' where
  content hat hown := by
    rcases h.added hat hown with hat | hgenuine
    · exact (hw.content hat hown).keep h.keeping
    · exact hgenuine
  carried {cursor id request} hmem := by
    rw [h.history] at hmem
    rcases List.mem_append.mp hmem with hmem | hmem
    · exact (hw.carried hmem).keep h.keeping
    · exact (hcarried cursor id request (List.mem_singleton.mp hmem).symm).keep h.keeping
  lively := by
    rw [h.history, History.justified_concat]
    exact ⟨hw.lively, hlively⟩

theorem Ledger.silent (hw : W.Ledger w) (h : W.Entry e w w') (he : e.silent = true) :
    W.Ledger w' := by
  apply hw.entry h (lively_of_silent he _)
  rintro cursor id request rfl
  cases he

theorem entry_log (hlog : w'.broker.log = w.broker.log) (hhistory : w'.history = w.history ++ [e]) :
    W.Entry e w w' where
  history := hhistory
  kept hat := by
    rwa [Broker.At, hlog]
  added hat _ := by
    left
    rwa [Broker.At, hlog] at hat

theorem entry_append {key : Topic × ℕ} {payload : Payload}
    (hgenuine : ∀ record, W.own payload = some record →
      W.Genuine record ((w.append key payload).log e)) :
    W.Entry e w ((w.append key payload).log e) where
  history := rfl
  kept hat := hat.append _ _
  added {key' offset payload' record} hat hown := by
    rcases Broker.at_append_cases hat with hat | ⟨_, _, rfl⟩
    · exact Or.inl hat
    · exact Or.inr (hgenuine record hown)

/-- A written record has the content of one that is there. -/
theorem entry_publish {key : Topic × ℕ} (h : W.Genuine record w) :
    W.Entry e w ((w.append key record.payload).log e) := by
  apply entry_append
  intro record' hown
  rw [fromMessage_payload_eq (own_eq_some hown).1]
  refine h.keep ⟨List.prefix_append _ _, fun hat => hat.append _ _⟩

/-! ### Around the worker -/

theorem entry_command (hcommand : W.IsCommand record) (acknowledged : Bool) :
    W.Entry (.command record.deliveryId (w.broker.log (.delivery, W.partition)).length acknowledged)
      w (W.addCommand w record acknowledged) := by
  apply entry_append
  intro record' hown
  rw [fromMessage_payload_eq (own_eq_some hown).1]
  refine ⟨record, ⟨_, ⟨acknowledged, ?_⟩, Broker.at_append_new _ _ _, hcommand, rfl⟩, rfl⟩
  exact List.mem_append_right _ (List.mem_singleton_self _)

/-- Whatever happens around the worker is silent. -/
theorem outside_entry {o : Outside} (hw : W.Ledger w) (h : W.outside o w = some w') :
    w' = w ∨ ∃ e, W.Entry e w w' ∧ e.silent = true := by
  cases o with
  | persist record reply =>
    simp only [outside] at h
    split_ifs at h with hcommand
    cases reply with
    | done =>
      cases h
      exact Or.inr ⟨_, entry_command hcommand.1 true, rfl⟩
    | failed error applied =>
      cases applied with
      | false =>
        cases h
        exact Or.inl rfl
      | true =>
        cases h
        exact Or.inr ⟨_, entry_command hcommand.1 false, rfl⟩
  | foreign topic partition payload =>
    simp only [outside] at h
    split_ifs at h with hforeign
    cases h
    refine Or.inr ⟨_, entry_append ?_, rfl⟩
    intro record hown
    rw [hforeign] at hown
    cases hown
  | replay offset now =>
    simp only [outside] at h
    split at h
    · rename_i record hsource
      cases h
      obtain ⟨payload, hat, hown⟩ := Option.bind_eq_some_iff.mp hsource
      have hgenuine := (hw.content hat hown).same (record.sameContent_replayed now)
      exact Or.inr ⟨_, entry_publish hgenuine, rfl⟩
    · cases h
  | signal value =>
    cases h
    exact Or.inr ⟨.signalled value, entry_log rfl rfl, rfl⟩
  | dropSender =>
    cases h
    exact Or.inr ⟨.senderDropped, entry_log rfl rfl, rfl⟩

theorem ledger_outside {o : Outside} (hw : W.Ledger w) (h : W.outside o w = some w') :
    W.Ledger w' := by
  rcases outside_entry hw h with rfl | ⟨e, hentry, he⟩
  · exact hw
  · exact hw.silent hentry he

theorem ledger_new (W : DurableWorker) : W.Ledger World.new where
  content hat _ := by cases hat
  carried hmem := by cases hmem
  lively := History.justified_nil _

theorem ledger_boot (hw : W.Ledger w) : W.Ledger (boot w) := by
  have hentry : W.Entry .started w (boot w) := entry_log rfl rfl
  apply hw.entry hentry
  · exact ends_nothing rfl
  · nofun

/-! ### Assertions between accesses -/

variable (W) in
def ledgerContract : Contract World := W.system.contract W.Ledger

variable (W) in
/-- The assertion survives everything that is silent. -/
def Lasting (P : World → Prop) : Prop :=
  ∀ e w w', W.Entry e w w' → e.silent = true → P w → P w'

theorem Lasting.stable {P : World → Prop} (hP : W.Lasting P) : W.ledgerContract.Stable P := by
  rintro w w' hw _ ⟨o, ho⟩ h
  rcases outside_entry hw ho with rfl | ⟨e, hentry, he⟩
  · exact h
  · exact hP e w w' hentry he h

variable (W) in
/-- What the worker knows while it has a record in hand. -/
structure Employed (completed : Finset String) (job : Job) (w : World) : Prop where
  others : W.Spared completed (some job.record.deliveryId) (lifetime w.history)
  genuine : W.Genuine job.record w
  body : Base64.decode job.record.bodyBase64.toList = some job.body

variable {completed : Finset String} {inWork : Option String} {job : Job} {c : Control}

theorem lasting_spared : W.Lasting (fun w => W.Spared completed inWork (lifetime w.history)) := by
  intro e w w' hentry he h
  rw [hentry.lifetime (ne_started_of_silent he)]
  exact h.concat (fun id _ _ => passes_of_silent he id)

theorem lasting_due (id : String) (number : ℕ) :
    W.Lasting (fun w => W.Due id number (lifetime w.history)) := by
  intro e w w' hentry he h
  rw [hentry.lifetime (ne_started_of_silent he)]
  exact h.concat (passes_of_silent he id)

theorem lasting_tried (id : String) (number : ℕ) :
    W.Lasting (fun w => W.Tried id number (lifetime w.history)) := by
  intro e w w' hentry he h
  rw [hentry.lifetime (ne_started_of_silent he)]
  exact h.concat (passes_of_silent he id)

theorem Lasting.and {P P' : World → Prop} (h : W.Lasting P) (h' : W.Lasting P') :
    W.Lasting (fun w => P w ∧ P' w) :=
  fun e w w' hentry he hP => ⟨h e w w' hentry he hP.1, h' e w w' hentry he hP.2⟩

theorem lasting_employed : W.Lasting (W.Employed completed job) := by
  intro e w w' hentry he h
  constructor
  · exact lasting_spared e w w' hentry he h.others
  · exact h.genuine.keep hentry.keeping
  · exact h.body

variable (W) in
/-- Where the worker stands at the head of a loop. -/
def Station (c : Control) (w : World) : Prop :=
  match c.job with
  | none => W.Spared c.completed none (lifetime w.history)
  | some job => W.Employed c.completed job w ∧
      W.Due job.record.deliveryId job.record.attempt (lifetime w.history)

theorem lasting_station : W.Lasting (W.Station c) := by
  obtain ⟨phase, completed, job⟩ := c
  cases job with
  | none => exact lasting_spared
  | some job => exact lasting_employed.and (lasting_due _ _)

variable (W) in
def Upkeep (p : Pass) (w : World) : Prop :=
  p.Sat W.ledgerContract (System.Leaves W.Station (fun _ _ => True)) w

theorem upkeep_again (h : W.Station c s) : W.Upkeep (Prog.ret (.again c)) s :=
  Prog.sat_ret lasting_station.stable h

theorem upkeep_done (result : Except String Unit) (s : World) :
    W.Upkeep (Prog.ret (.done result)) s :=
  fun _ _ _ => trivial

/-- A call that may fail, whatever it leaves then. -/
theorem upkeep_try {β : Type} {p : WorkerProg (Except String β)} {next : β → Pass}
    {Q : Except String β → World → Prop} (hs : W.Ledger s)
    (hp : p.Sat W.ledgerContract Q s)
    (hnext : ∀ b w, W.Ledger w → Q (.ok b) w → W.Upkeep (next b) w) :
    W.Upkeep (p.tryThen next) s := by
  apply Prog.sat_tryThen hs
  · exact fun _ _ _ _ _ _ _ => trivial
  · apply Prog.sat_mono hp
    intro r w hw hr
    cases r with
    | ok b => exact hnext b w hw hr
    | error e => trivial

/-! ### Calls that are silent -/

/-- Nothing is written to a topic, and what happens is silent. -/
inductive Mute (w : World) : World → Prop
  | same : Mute w w
  | log {e : Event} {w' w'' : World} : Mute w w' → e.silent = true →
      w''.broker.log = w'.broker.log → w''.history = w'.history ++ [e] → Mute w w''

theorem Mute.one (he : e.silent = true) (hlog : w'.broker.log = w.broker.log)
    (hhistory : w'.history = w.history ++ [e]) : Mute w w' :=
  .log .same he hlog hhistory

theorem Mute.keeps {P : World → Prop} (h : Mute w w') (hP : W.Lasting P) (hw : W.Ledger w)
    (hs : P w) : W.Ledger w' ∧ P w' := by
  induction h with
  | same => exact ⟨hw, hs⟩
  | log _ he hlog hhistory ih =>
    have hentry := entry_log (W := W) hlog hhistory
    exact ⟨ih.1.silent hentry he, hP _ _ _ hentry he ih.2⟩

theorem sat_mute {β : Type} {P : World → Prop} {p : WorkerProg β} (hp : p.Always Mute)
    (hP : W.Lasting P) (hs : P s) : p.Sat W.ledgerContract (fun _ => P) s := by
  apply Prog.sat_of_always hP.stable _ hs
  apply Prog.always_mono hp
  intro w w' hmute hw h
  obtain ⟨hw', h'⟩ := hmute.keeps hP hw h
  exact ⟨hw', trivial, h'⟩

theorem always_clock : clock.Always Mute := Prog.always_await (fun _ _ _ => .same)

theorem always_borrow : borrow.Always Mute := Prog.always_access (fun _ => .same)

theorem mute_changed (w : World) : Mute w w.changed.2 := Mute.one (e := .noticed) rfl rfl rfl

theorem always_interrupted : interrupted.Always Mute := by
  apply Prog.always_await
  intro i w _
  cases i.wake with
  | changed => exact mute_changed w
  | _ => exact .same

theorem always_sleepUntil (nextAttemptAtMs : ℕ) : (sleepUntil nextAttemptAtMs).Always Mute := by
  apply Prog.always_bind always_clock
  intro now
  split_ifs
  · exact Prog.always_ret _
  · apply Prog.always_bind always_interrupted
    intro r
    match r with
    | some true => exact Prog.always_ret _
    | none => exact Prog.always_ret _
    | some false =>
      apply Prog.always_bind always_borrow
      intro value
      cases value <;> exact Prog.always_ret _

theorem mute_failed (w : World) (call : KafkaCall) : Mute w (w.log (.failed call)) :=
  Mute.one (e := .failed call) rfl rfl rfl

theorem always_subscribe (topics : List Topic) (what : String) :
    (subscribe topics what).Always Mute := by
  apply Prog.always_await
  intro i w _
  cases i.reply with
  | done => exact Mute.one (e := .subscribed topics) rfl rfl rfl
  | failed error applied => exact mute_failed w _

theorem always_assignment : W.assignment.Always Mute := by
  apply Prog.always_await
  intro i w _
  cases i.reply with
  | done => exact .same
  | failed error applied => exact mute_failed w _

theorem mute_commit (w : World) (cursor : Cursor) :
    Mute w ((w.commit cursor).log (.committed cursor)) :=
  Mute.one (e := .committed cursor) rfl rfl rfl

theorem always_commitCursor (cursor : Cursor) : (commitCursor cursor).Always Mute := by
  apply Prog.always_await
  intro i w _
  cases i.reply with
  | done => exact mute_commit w cursor
  | failed error applied =>
    cases applied with
    | false => exact mute_failed w _
    | true => exact .log (mute_commit w cursor) (e := .failed .commit) rfl rfl rfl

theorem always_commitInput (job : Job) : (commitInput job).Always Mute := by
  unfold commitInput
  split_ifs
  · exact Prog.always_ret _
  · exact always_commitCursor _

end KafkaEdgeRouter.Webhook.DurableWorker
