import KafkaEdgeRouter.DurableSteps
import KafkaEdgeRouter.PromptPrograms

/-!
# How a durable worker ends

A worker that is attended sees records come in and, at some moment, the shutdown signal; nobody
takes the signal back or drops the sender. The journal sums up what the worker has met since it was
started. A worker ends well only after the signal, and ends badly only when Kafka has failed, a
record was malformed, a bound was exceeded or the signal has interrupted the wait for a retry. After
the signal it always ends, within a number of steps that its configuration bounds.
-/

namespace KafkaEdgeRouter.Webhook

/-- What happens around a worker whose daemon runs on or shuts down. -/
def Outside.attends : Outside → Bool
  | .signal value => value
  | .dropSender => false
  | _ => true

/-- What a worker has met since it was started. -/
structure Journal where
  recovering : Bool := true
  recovered : ℕ := 0
  completed : Finset String := ∅
  inHand : Bool := false
  interrupted : Bool := false
  failed : Bool := false
  malformed : Bool := false

def Journal.finish (j : Journal) (deliveryId : String) : Journal :=
  { j with completed := insert deliveryId j.completed, inHand := false }

namespace DurableWorker

variable (W : DurableWorker)

def attended : System World Input Outside Control (Except String Unit) :=
  { W.system with environment := fun e w => if e.attends then W.outside e w else none }

def wellFormed (payload : Payload) : Bool :=
  match fromMessage W.maxRecordBytes payload with
  | .ok record => (Base64.decode record.bodyBase64.toList).isSome
  | .error _ => false

/-- The worker has a record in hand from its receipt to its delivery or its dead letter. To notice
the signal in between is to interrupt the wait for the next attempt. -/
def note (j : Journal) : Event → Journal
  | .started => {}
  | .subscribed topics => { j with recovering := j.recovering && topics ≠ [.delivery, .retry] }
  | .received _ payload =>
    { j with
      recovered := if j.recovering && (W.own payload).isSome then j.recovered + 1 else j.recovered
      inHand := (W.own payload).any (fun record => record.deliveryId ∉ j.completed)
      malformed := j.malformed || !W.wellFormed payload }
  | .answered deliveryId (.delivered _) => j.finish deliveryId
  | .acknowledged .deadLetter deliveryId => j.finish deliveryId
  | .noticed => { j with interrupted := j.interrupted || j.inHand }
  | .failed _ => { j with failed := true }
  | _ => j

def journal (w : World) : Journal := w.history.foldl W.note {}

/-- All Kafka operations have succeeded, all consumed records were well formed, and no bound has
been exceeded. -/
structure Untroubled (j : Journal) : Prop where
  failed : j.failed = false
  malformed : j.malformed = false
  recovered : j.recovered ≤ W.maxRecoveryRecords
  completed : j.completed.card ≤ W.maxRecoveryRecords

instance (j : Journal) : Decidable (W.Untroubled j) :=
  decidable_of_iff (j.failed = false ∧ j.malformed = false ∧
      j.recovered ≤ W.maxRecoveryRecords ∧ j.completed.card ≤ W.maxRecoveryRecords)
    ⟨fun h => ⟨h.1, h.2.1, h.2.2.1, h.2.2.2⟩,
      fun h => ⟨h.failed, h.malformed, h.recovered, h.completed⟩⟩

/-! ### The environment -/

/-- Nobody is gone, and there is nothing to notice before the signal. -/
structure Attended (w : World) : Prop where
  dropped : w.shutdown.dropped = false
  unseen : w.shutdown.value = false → w.shutdown.unseen = false

/-- The daemon has been told to shut down; operations of Kafka can succeed. -/
def stopDemand : Demand World Input where
  raised w := w.shutdown.value = true
  offered i := i.reply = .done ∧ ∀ e, i.wake ≠ .receiveError e

abbrev attendedContract : Contract World := W.attended.contract Attended

variable {W} {w w' : World} {j : Journal} {e : Event}

theorem journal_log (w : World) (e : Event) : W.journal (w.log e) = W.note (W.journal w) e := by
  simp [journal, World.log]

theorem attended_cases {o : Outside} (h : W.attended.environment o w = some w') :
    W.journal w' = W.journal w ∧
      (w'.shutdown = w.shutdown ∨ o = .signal true ∧ w'.shutdown = w.shutdown.send true) := by
  simp only [attended] at h
  split_ifs at h with hattends
  cases o with
  | persist record reply =>
    simp only [outside] at h
    split_ifs at h
    cases reply with
    | done =>
      cases h
      exact ⟨journal_log _ _, Or.inl rfl⟩
    | failed error applied =>
      cases h
      split_ifs
      · exact ⟨journal_log _ _, Or.inl rfl⟩
      · exact ⟨rfl, Or.inl rfl⟩
  | foreign topic partition payload =>
    simp only [outside] at h
    split_ifs at h
    cases h
    exact ⟨journal_log _ _, Or.inl rfl⟩
  | replay offset now =>
    simp only [outside] at h
    split at h
    · cases h
      exact ⟨journal_log _ _, Or.inl rfl⟩
    · cases h
  | signal value =>
    obtain rfl : value = true := hattends
    cases h
    exact ⟨journal_log _ _, Or.inr ⟨rfl, rfl⟩⟩
  | dropSender => cases hattends

theorem Attended.of_eq (h : Attended w) (hshutdown : w'.shutdown = w.shutdown) : Attended w' := by
  constructor
  · rw [hshutdown]
    exact h.dropped
  · rw [hshutdown]
    exact h.unseen

theorem Attended.environment {o : Outside} (hw : Attended w)
    (h : W.attended.environment o w = some w') :
    Attended w' ∧ (stopDemand.raised w → stopDemand.raised w') := by
  change Attended w' ∧ (w.shutdown.value = true → w'.shutdown.value = true)
  rcases (attended_cases h).2 with hshutdown | ⟨_, hshutdown⟩
  · refine ⟨hw.of_eq hshutdown, fun hraised => ?_⟩
    rwa [hshutdown]
  · rw [hshutdown]
    refine ⟨⟨?_, fun hvalue => ?_⟩, fun _ => rfl⟩
    · rw [hshutdown]
      exact hw.dropped
    · rw [hshutdown] at hvalue
      cases hvalue

theorem stable_journal (P : Journal → Prop) :
    W.attendedContract.Stable (fun w => P (W.journal w)) := by
  rintro w w' _ _ ⟨o, ho⟩ h
  rwa [(attended_cases ho).1]

theorem stable_raised : W.attendedContract.Stable stopDemand.raised := by
  rintro w w' hw _ ⟨o, ho⟩ h
  exact (hw.environment ho).2 h

theorem stable_open :
    W.attendedContract.Stable (fun w => w.shutdown.unseen = w.shutdown.value) := by
  rintro w w' _ _ ⟨o, ho⟩ h
  rcases (attended_cases ho).2 with hshutdown | ⟨_, hshutdown⟩
  · rwa [hshutdown]
  · rw [hshutdown]
    rfl

/-! ### Accesses -/

/-- Something has gone wrong that is not the worker's doing, or the signal has cut a wait short. -/
def Explained (W : DurableWorker) (j : Journal) : Prop :=
  ¬ W.Untroubled j ∨ j.interrupted = true

def Yields (W : DurableWorker) {β : Type} (j : Journal) : Except String β → World → Prop
  | .ok _, w => W.journal w = j
  | .error _, w => W.Explained (W.journal w)

theorem stable_yields {β : Type} (r : Except String β) :
    W.attendedContract.Stable (W.Yields j r) := by
  cases r with
  | ok b => exact stable_journal (fun j' => j' = j)
  | error e => exact stable_journal W.Explained

theorem explained_failed (w : World) (call : KafkaCall) :
    W.Explained (W.journal (w.log (.failed call))) := by
  rw [journal_log]
  exact Or.inl (fun h => by cases h.failed)

theorem prompt_clock {α : Type} {n : ℕ} {Q : α → World → Prop} {k : ℕ → WorkerProg α}
    (hj : W.journal w = j)
    (h : ∀ now w', Attended w' → W.journal w' = j →
      (k now).Prompt W.attendedContract stopDemand Q n w') :
    (clock >>= k).Prompt W.attendedContract stopDemand Q (n + 1) w := by
  refine Prog.prompt_await (stable_journal (fun j' => j' = j)) hj
    (fun _ _ _ _ => ⟨{}, ⟨rfl, by simp⟩, rfl⟩) (fun i w' hw' hj' _ => ?_)
  exact ⟨hw', trivial, Iff.rfl, h _ w' hw' hj'⟩

theorem prompt_call {β : Type} {enabled : Input → World → Bool}
    {call : Input → World → Except String β × World} {j' : Journal} (hj : W.journal w = j)
    (henabled : ∀ w, enabled {} w = true)
    (hshutdown : ∀ i w, (call i w).2.shutdown = w.shutdown)
    (h : ∀ i w, W.journal w = j → W.Yields j' (call i w).1 (call i w).2) :
    (Prog.await enabled call).Prompt W.attendedContract stopDemand (W.Yields j') 1 w := by
  refine Prog.prompt_atomic (stable_journal (fun j' => j' = j)) stable_yields hj
    (fun w _ _ _ => ⟨{}, ⟨rfl, by simp⟩, henabled w⟩) (fun i w hw hj _ => ?_)
  refine ⟨hw.of_eq (hshutdown i w), trivial, ?_, h i w hj⟩
  change (call i w).2.shutdown.value = true ↔ w.shutdown.value = true
  rw [hshutdown]

theorem prompt_subscribe (hj : W.journal w = j) (topics : List Topic) (what : String) :
    (subscribe topics what).Prompt W.attendedContract stopDemand
      (W.Yields (W.note j (.subscribed topics))) 1 w := by
  refine prompt_call hj (fun _ => rfl) (fun i w => ?_) (fun i w hj => ?_)
  · cases i.reply <;> rfl
  · cases i.reply with
    | done =>
      subst hj
      exact journal_log _ _
    | failed error applied => exact explained_failed w .subscribe

theorem prompt_commitCursor (hj : W.journal w = j) (cursor : Cursor) :
    (commitCursor cursor).Prompt W.attendedContract stopDemand (W.Yields j) 1 w := by
  refine prompt_call hj (fun _ => rfl) (fun i w => ?_) (fun i w hj => ?_)
  · rcases i.reply with _ | ⟨error, _ | _⟩ <;> rfl
  · cases i.reply with
    | done =>
      subst hj
      exact journal_log (w.commit cursor) (.committed cursor)
    | failed error applied =>
      exact explained_failed (if applied then (w.commit cursor).log (.committed cursor) else w)
        .commit

theorem prompt_assignment (hj : W.journal w = j) :
    W.assignment.Prompt W.attendedContract stopDemand (W.Yields j) 1 w := by
  refine prompt_call hj (fun _ => rfl) (fun i w => ?_) (fun i w hj => ?_)
  · cases i.reply <;> rfl
  · cases i.reply with
    | done => exact hj
    | failed error applied => exact explained_failed w .assignment

theorem published_cases (topic : Topic) (record : DurableRecord) (i : Input) (w : World) :
    ∃ w₁ : World, w₁.shutdown = w.shutdown ∧ w₁.history = w.history ∧
      (W.published topic record i w =
          (.ok (), w₁.log (.acknowledged topic record.deliveryId)) ∨
        ∃ e, W.published topic record i w = (.error e, w₁.log (.failed .publish))) := by
  by_cases hsize : record.size > W.maxRecordBytes
  · simp only [published, DurableRecord.publication, hsize, if_true]
    exact ⟨w, rfl, rfl, Or.inr ⟨_, rfl⟩⟩
  · simp only [published, DurableRecord.publication, hsize, if_false]
    let appended := w.append (topic, W.cluster.partitionOf record.destinationId) record.payload
    cases i.reply with
    | done => exact ⟨appended, rfl, rfl, Or.inl rfl⟩
    | failed error applied =>
      cases applied with
      | false => exact ⟨w, rfl, rfl, Or.inr ⟨_, rfl⟩⟩
      | true => exact ⟨appended, rfl, rfl, Or.inr ⟨_, rfl⟩⟩

theorem prompt_publishRecord (hj : W.journal w = j) (topic : Topic) (record : DurableRecord) :
    (W.publishRecord topic record).Prompt W.attendedContract stopDemand
      (W.Yields (W.note j (.acknowledged topic record.deliveryId))) 1 w := by
  refine prompt_call hj (fun _ => rfl) (fun i w => ?_) (fun i w hj => ?_)
  · obtain ⟨w₁, hshutdown, _, heq | ⟨e, heq⟩⟩ := published_cases (W := W) topic record i w
    · rw [heq]
      exact hshutdown
    · rw [heq]
      exact hshutdown
  · generalize hresult : W.published topic record i w = result
    obtain ⟨w₁, _, hhistory, heq | ⟨e, heq⟩⟩ := published_cases (W := W) topic record i w
    · have hj₁ : W.journal w₁ = j := by rw [journal, hhistory, ← hj, journal]
      rw [← hresult, heq, ← hj₁]
      exact journal_log w₁ _
    · rw [← hresult, heq]
      exact explained_failed w₁ .publish

theorem prompt_commitInput (hj : W.journal w = j) (job : Job) :
    (commitInput job).Prompt W.attendedContract stopDemand (W.Yields j) 1 w := by
  unfold commitInput
  split_ifs
  · exact Prog.prompt_ret (stable_yields _) hj
  · exact prompt_commitCursor hj job.cursor

theorem prompt_borrow {α : Type} {n : ℕ} {P : World → Prop} {Q : α → World → Prop}
    {k : Bool → WorkerProg α} (hP : W.attendedContract.Stable P) (hs : P w)
    (h : ∀ w', Attended w' → P w' →
      (k w'.shutdown.value).Prompt W.attendedContract stopDemand Q n w') :
    (borrow >>= k).Prompt W.attendedContract stopDemand Q (n + 1) w := by
  refine Prog.prompt_await hP hs (fun _ _ _ _ => ⟨{}, ⟨rfl, by simp⟩, rfl⟩) ?_
  intro i w' hw' hp _
  exact ⟨hw', trivial, Iff.rfl, h w' hw' hp⟩

/-- The signal is noticed once, by a receiver that then finds it. -/
theorem Attended.changed (hw : Attended w) (h : w.shutdown.canChange = true) :
    w.changed.1 = false ∧ Attended w.changed.2 ∧ w.changed.2.shutdown.value = true ∧
      W.journal w.changed.2 = W.note (W.journal w) .noticed := by
  have hunseen : w.shutdown.unseen = true := by
    simpa [Watch.canChange, hw.dropped] using h
  have hvalue : w.shutdown.value = true := by
    by_contra hvalue
    rw [hw.unseen (Bool.eq_false_of_not_eq_true hvalue)] at hunseen
    cases hunseen
  refine ⟨by simp [World.changed, Watch.changed, hunseen], ⟨hw.dropped, fun hfalse => ?_⟩,
    hvalue, journal_log _ _⟩
  rw [show w.changed.2.shutdown.value = w.shutdown.value from rfl, hvalue] at hfalse
  cases hfalse

theorem prompt_receive {α : Type} {n : ℕ} {Q : α → World → Prop} {k : Received → WorkerProg α}
    (hj : W.journal w = j) (hopen : w.shutdown.unseen = w.shutdown.value)
    (hchanged : ∀ w', Attended w' → W.journal w' = W.note j .noticed → stopDemand.raised w' →
      (k (.changed false)).Prompt W.attendedContract stopDemand Q n w')
    (hmessage : ∀ cursor payload w', Attended w' →
      W.journal w' = W.note j (.received cursor payload) →
      (k (.message cursor payload)).Prompt W.attendedContract stopDemand Q n w')
    (heof : ∀ partition w', Attended w' → W.journal w' = j →
      (k (.partitionEof partition)).Prompt W.attendedContract stopDemand Q n w')
    (herror : ∀ error w', Attended w' → W.journal w' = W.note j (.failed .receive) →
      (k (.receiveError error)).Prompt W.attendedContract stopDemand Q n w') :
    (W.receive >>= k).Prompt W.attendedContract stopDemand Q (n + 1) w := by
  refine Prog.prompt_await ((stable_journal (fun j' => j' = j)).and stable_open) ⟨hj, hopen⟩ ?_ ?_
  · rintro w' _ ⟨_, hopen'⟩ hraised
    refine ⟨{ wake := .changed }, ⟨rfl, by simp⟩, ?_⟩
    simp only [receives, Watch.canChange, hopen', show w'.shutdown.value = true from hraised,
      Bool.true_or]
  · rintro ⟨now, reply, assigned, transport, wake⟩ w' hw' ⟨rfl, hopen'⟩ he
    cases wake with
    | changed =>
      obtain ⟨hfalse, hattended, hvalue, hjournal⟩ := hw'.changed (W := W) he
      refine ⟨hattended, trivial, Iff.rfl, ?_⟩
      change (k (.changed w'.changed.1)).Prompt _ _ _ _ _
      rw [hfalse]
      exact hchanged _ hattended hjournal hvalue
    | message topic partition =>
      have hattended : Attended (received ⟨now, reply, assigned, transport,
          .message topic partition⟩ w').2 := hw'.of_eq rfl
      exact ⟨hattended, trivial, Iff.rfl,
        hmessage _ _ _ hattended (journal_log _ _)⟩
    | partitionEof partition =>
      exact ⟨hw', trivial, Iff.rfl, heof _ _ hw' rfl⟩
    | receiveError error =>
      have hattended : Attended (w'.log (.failed .receive)) := hw'.of_eq rfl
      exact ⟨hattended, trivial, Iff.rfl,
        herror _ _ hattended (journal_log _ _)⟩
    | slept => cases he

/-! ### Passes -/

/-- The loop agrees with the journal. -/
structure Suits (W : DurableWorker) (c : Control) (j : Journal) : Prop where
  completed : j.completed = c.completed
  inHand : j.inHand = c.job.isSome
  uninterrupted : j.interrupted = false
  within : c.completed.card ≤ W.maxRecoveryRecords
  starting : c.phase = .starting → j.recovering = true
  recovering : ∀ eofPartitions recovered, c.phase = .recovering eofPartitions recovered →
    j.recovering = true ∧ recovered ≤ j.recovered

def Ended (W : DurableWorker) : Except String Unit → World → Prop
  | .ok _, w => stopDemand.raised w ∧ (W.journal w).interrupted = false
  | .error _, w => W.Explained (W.journal w)

def phaseRank : Phase → ℕ
  | .starting => 2
  | .recovering _ _ => 1
  | .delivering => 0

def jobRank (W : DurableWorker) : Option Job → ℕ
  | none => 0
  | some job => W.endpoint.maxAttempts - job.record.attempt + 1

/-- How far the worker is from its end once it has been told to stop. -/
def rank (W : DurableWorker) (c : Control) : ℕ := phaseRank c.phase + W.jobRank c.job

/-- What a pass from `c` leaves that began with or without the signal. -/
def Onward (W : DurableWorker) (c : Control) (raised : Prop) :
    Next Control (Except String Unit) → World → Prop :=
  System.Leaves (fun c' w => W.Suits c' (W.journal w) ∧ (raised → W.rank c' < W.rank c)) W.Ended

variable {c c' : Control} {raised : Prop} {m n : ℕ}

theorem stable_onward (next : Next Control (Except String Unit)) :
    W.attendedContract.Stable (W.Onward c raised next) := by
  rcases next with c' | (e | _)
  · exact stable_journal (fun j => W.Suits c' j ∧ (raised → W.rank c' < W.rank c))
  · exact stable_journal W.Explained
  · exact stable_raised.and (stable_journal (fun j => j.interrupted = false))

theorem prompt_again (hsuits : W.Suits c' (W.journal w))
    (hrank : raised → W.rank c' < W.rank c) :
    (Prog.ret (.again c') : Pass).Prompt W.attendedContract stopDemand (W.Onward c raised) n w :=
  Prog.prompt_ret (stable_onward _) ⟨hsuits, hrank⟩

theorem prompt_error {e : String} (h : W.Explained (W.journal w)) :
    (Prog.ret (.done (.error e)) : Pass).Prompt W.attendedContract stopDemand
      (W.Onward c raised) n w :=
  Prog.prompt_ret (stable_onward _) h

theorem prompt_try {β : Type} {p : WorkerProg (Except String β)} {next : β → Pass}
    {j' : Journal} (hw : Attended w)
    (hp : p.Prompt W.attendedContract stopDemand (W.Yields j') m w)
    (h : ∀ b w', Attended w' → W.journal w' = j' →
      (next b).Prompt W.attendedContract stopDemand (W.Onward c raised) n w') :
    (p.tryThen next).Prompt W.attendedContract stopDemand (W.Onward c raised) (m + n) w := by
  refine Prog.prompt_tryThen hw (fun e => stable_onward _) (Prog.prompt_mono hp (Nat.le_refl _) ?_)
  intro r w' hw' hr
  cases r with
  | ok b => exact h b w' hw' hr
  | error e => exact hr

theorem prompt_startRecovery (hw : Attended w) (hsuits : W.Suits c (W.journal w))
    (hphase : c.phase = .starting) (hjob : c.job = none) :
    (startRecovery c).Prompt W.attendedContract stopDemand (W.Onward c raised) 1 w := by
  refine prompt_try (n := 0) hw (prompt_subscribe rfl _ _) (fun _ w' _ hj' => ?_)
  refine prompt_again ⟨?_, ?_, ?_, hsuits.within, fun h => (by cases h), ?_⟩ (fun _ => ?_)
  · rw [hj']
    exact hsuits.completed
  · rw [hj']
    exact hsuits.inHand.trans (by rw [hjob])
  · rw [hj']
    exact hsuits.uninterrupted
  · rintro eofPartitions recovered h
    cases h
    rw [hj']
    simp [note, hsuits.starting hphase]
  · simp [rank, phaseRank, jobRank, hphase, hjob]

/-- However the recovery ends, the worker goes on to deliver. -/
theorem prompt_startDelivery (hw : Attended w) (hsuits : W.Suits c' (W.journal w))
    (hjob : c'.job = none) (hrank : 0 < W.rank c) :
    (startDelivery c').Prompt W.attendedContract stopDemand (W.Onward c raised) 1 w := by
  refine prompt_try (n := 0) hw (prompt_subscribe rfl _ _) (fun _ w' _ hj' => ?_)
  refine prompt_again ⟨?_, ?_, ?_, hsuits.within, fun h => (by cases h), fun _ _ h => (by cases h)⟩
    (fun _ => hrank)
  · rw [hj']
    exact hsuits.completed
  · rw [hj']
    exact hsuits.inHand.trans (by rw [hjob])
  · rw [hj']
    exact hsuits.uninterrupted

theorem Suits.received (hsuits : W.Suits c j) (cursor : Cursor) {payload : Payload} (phase : Phase)
    (job : Option Job)
    (hjob : (W.own payload).any (fun record => record.deliveryId ∉ c.completed) = job.isSome)
    (hstarting : phase ≠ .starting)
    (hrecovering : ∀ eofPartitions recovered, phase = .recovering eofPartitions recovered →
      j.recovering = true ∧ recovered ≤ (W.note j (.received cursor payload)).recovered) :
    W.Suits ⟨phase, c.completed, job⟩ (W.note j (.received cursor payload)) where
  completed := hsuits.completed
  inHand := by
    rw [← hjob, ← hsuits.completed]
    rfl
  uninterrupted := hsuits.uninterrupted
  within := hsuits.within
  starting h := absurd h hstarting
  recovering := hrecovering

theorem explained_malformed {cursor : Cursor} {payload : Payload}
    (h : W.wellFormed payload = false) :
    W.Explained (W.note j (.received cursor payload)) := by
  refine Or.inl (fun huntroubled => ?_)
  have hmalformed := huntroubled.malformed
  simp [note, h] at hmalformed

theorem prompt_accept {cursor : Cursor} {payload : Payload} {record : DurableRecord}
    (hmessage : fromMessage W.maxRecordBytes payload = .ok record)
    (hj : W.journal w = W.note j (.received cursor payload))
    (hsuits : ∀ job : Job,
      W.Suits ⟨c'.phase, c'.completed, some job⟩ (W.note j (.received cursor payload)))
    (hraised : ¬ raised) :
    (W.accept c' cursor record).Prompt W.attendedContract stopDemand (W.Onward c raised) n w := by
  unfold accept
  cases hbody : Base64.decode record.bodyBase64.toList with
  | none =>
    apply prompt_error
    rw [hj]
    apply explained_malformed
    simp [wellFormed, hmessage, hbody]
  | some body =>
    refine prompt_again ?_ (fun h => absurd h hraised)
    rw [hj]
    exact hsuits _

theorem prompt_skip (hw : Attended w) (hj : W.journal w = j) (cursor : Cursor)
    (hsuits : W.Suits c' j) (hraised : ¬ raised) (hn : 1 ≤ n) :
    ((commitCursor cursor).tryThen fun _ => pure (.again c') : Pass).Prompt W.attendedContract
      stopDemand (W.Onward c raised) n w := by
  refine Prog.prompt_mono (m := 1 + 0) ?_ hn (fun _ _ _ h => h)
  refine prompt_try hw (prompt_commitCursor hj cursor) (fun _ w' _ hj' => ?_)
  refine prompt_again ?_ (fun h => absurd h hraised)
  rwa [hj']

theorem stable_looking : W.attendedContract.Stable
    (fun w => W.journal w = j ∧ (raised → stopDemand.raised w)) := by
  rintro w w' hw hw' hd ⟨hj, hraised⟩
  exact ⟨stable_journal (fun j' => j' = j) w w' hw hw' hd hj,
    fun h => stable_raised w w' hw hw' hd (hraised h)⟩

theorem prompt_recoverRetries {completed : Finset String} {eofPartitions : Finset ℕ}
    {recovered : ℕ} (hj : W.journal w = j)
    (hsuits : W.Suits ⟨.recovering eofPartitions recovered, completed, none⟩ j)
    (hraised : raised → stopDemand.raised w) :
    (W.recoverRetries completed eofPartitions recovered).Prompt W.attendedContract stopDemand
      (W.Onward ⟨.recovering eofPartitions recovered, completed, none⟩ raised) 4 w := by
  obtain ⟨hrecovering, hrecovered⟩ := hsuits.recovering _ _ rfl
  have hrank : 0 < W.rank ⟨.recovering eofPartitions recovered, completed, none⟩ := by
    simp [rank, phaseRank, jobRank]
  refine prompt_borrow stable_looking ⟨hj, hraised⟩ (fun w₁ hw₁ h₁ => ?_)
  obtain ⟨hj₁, hraised₁⟩ := h₁
  cases hvalue : w₁.shutdown.value with
  | true =>
    refine Prog.prompt_mono (prompt_startDelivery hw₁ ?_ rfl hrank) (by omega) (fun _ _ _ h => h)
    rwa [hj₁]
  | false =>
    have hnot : ¬ raised := fun h => by
      have := hraised₁ h
      simp [stopDemand, hvalue] at this
    refine prompt_receive hj₁ ((hw₁.unseen hvalue).trans hvalue.symm) ?_ ?_ ?_ ?_
    · intro w₂ hw₂ hj₂ hraised₂
      refine prompt_borrow (n := 1) ((stable_journal (fun j' => j' = W.note j .noticed)).and
        stable_raised) ⟨hj₂, hraised₂⟩ (fun w₃ hw₃ h₃ => ?_)
      rw [show w₃.shutdown.value = true from h₃.2]
      refine prompt_startDelivery hw₃ ?_ rfl hrank
      rw [h₃.1]
      refine ⟨hsuits.completed, hsuits.inHand, ?_, hsuits.within, hsuits.starting,
        hsuits.recovering⟩
      simp [note, hsuits.uninterrupted, hsuits.inHand]
    · intro cursor payload w₂ hw₂ hj₂
      dsimp only
      cases hmessage : fromMessage W.maxRecordBytes payload with
      | error e =>
        apply prompt_error
        rw [hj₂]
        exact explained_malformed (by simp [wellFormed, hmessage])
      | ok record =>
        dsimp only
        by_cases hdestination : record.destinationId = W.endpoint.id
        · rw [if_neg (not_not.mpr hdestination)]
          have hown := own_of_fromMessage hmessage hdestination
          have hcount : (W.note j (.received cursor payload)).recovered = j.recovered + 1 := by
            simp [note, hrecovering, hown]
          have hnext : ∀ eofPartitions' recovered',
              Phase.recovering (eofPartitions.erase cursor.partition)
                (min (recovered + 1) u64Max) = .recovering eofPartitions' recovered' →
              j.recovering = true ∧
                recovered' ≤ (W.note j (.received cursor payload)).recovered := by
            rintro _ _ ⟨rfl, rfl⟩
            rw [hcount]
            exact ⟨hrecovering, by omega⟩
          split_ifs with hlimit hcompleted
          · apply prompt_error
            rw [hj₂]
            refine Or.inl (fun huntroubled => ?_)
            have hbound := huntroubled.recovered
            rw [hcount] at hbound
            omega
          · refine prompt_skip hw₂ hj₂ cursor ?_ hnot (by omega)
            exact hsuits.received cursor _ none (by simp [hown, hcompleted]) (by simp) hnext
          · exact prompt_accept hmessage hj₂ (fun job => hsuits.received cursor _ (some job)
              (by simp [hown, hcompleted]) (by simp) hnext) hnot
        · rw [if_pos hdestination]
          have hown : W.own payload = none := by simp [own, hmessage, hdestination]
          refine prompt_skip hw₂ hj₂ cursor ?_ hnot (by omega)
          refine hsuits.received cursor _ none (by simp [hown]) (by simp) ?_
          rintro _ _ ⟨rfl, rfl⟩
          simp [note, hown, hrecovering, hrecovered]
    · intro partition w₂ hw₂ hj₂
      have hsuits' : W.Suits ⟨.recovering (insert partition eofPartitions) recovered, completed,
          none⟩ j := by
        refine ⟨hsuits.completed, hsuits.inHand, hsuits.uninterrupted, hsuits.within,
          fun h => (by cases h), ?_⟩
        rintro _ _ ⟨rfl, rfl⟩
        exact ⟨hrecovering, hrecovered⟩
      refine prompt_try (n := 1) hw₂ (prompt_assignment hj₂) (fun assigned w₃ hw₃ hj₃ => ?_)
      subst hj₃
      split_ifs
      · exact prompt_startDelivery hw₃ hsuits' rfl hrank
      · exact prompt_again hsuits' (fun h => absurd h hnot)
    · intro error w₂ hw₂ hj₂
      apply prompt_error
      rw [hj₂]
      exact Or.inl (fun huntroubled => by cases huntroubled.failed)

theorem prompt_deliver {completed : Finset String} (hj : W.journal w = j)
    (hsuits : W.Suits ⟨.delivering, completed, none⟩ j)
    (hraised : raised → stopDemand.raised w) :
    (W.deliver completed).Prompt W.attendedContract stopDemand
      (W.Onward ⟨.delivering, completed, none⟩ raised) 3 w := by
  refine prompt_borrow stable_looking ⟨hj, hraised⟩ (fun w₁ hw₁ h₁ => ?_)
  obtain ⟨hj₁, hraised₁⟩ := h₁
  cases hvalue : w₁.shutdown.value with
  | true =>
    refine Prog.prompt_ret (stable_onward _) ⟨hvalue, ?_⟩
    rw [hj₁]
    exact hsuits.uninterrupted
  | false =>
    have hnot : ¬ raised := fun h => by
      have := hraised₁ h
      simp [stopDemand, hvalue] at this
    refine prompt_receive hj₁ ((hw₁.unseen hvalue).trans hvalue.symm) ?_ ?_ ?_ ?_
    · intro w₂ hw₂ hj₂ hraised₂
      refine prompt_borrow (n := 0) ((stable_journal (fun j' => j' = W.note j .noticed)).and
        stable_raised) ⟨hj₂, hraised₂⟩ (fun w₃ hw₃ h₃ => ?_)
      rw [show w₃.shutdown.value = true from h₃.2]
      refine Prog.prompt_ret (stable_onward _) ⟨h₃.2, ?_⟩
      rw [h₃.1]
      simp [note, hsuits.uninterrupted, hsuits.inHand]
    · intro cursor payload w₂ hw₂ hj₂
      dsimp only
      cases hmessage : fromMessage W.maxRecordBytes payload with
      | error e =>
        apply prompt_error
        rw [hj₂]
        exact explained_malformed (by simp [wellFormed, hmessage])
      | ok record =>
        dsimp only
        split_ifs with hskip
        · refine prompt_skip hw₂ hj₂ cursor ?_ hnot (by omega)
          refine hsuits.received cursor .delivering none ?_ (by simp) (by simp)
          by_cases hdestination : record.destinationId = W.endpoint.id
          · have hcompleted := hskip.resolve_left (not_not.mpr hdestination)
            simp [own_of_fromMessage hmessage hdestination, hcompleted]
          · simp [own, hmessage, hdestination]
        · push Not at hskip
          refine prompt_accept hmessage hj₂ (fun job => ?_) hnot
          refine hsuits.received cursor .delivering (some job) ?_ (by simp) (by simp)
          simp [own_of_fromMessage hmessage hskip.1, hskip.2]
    · intro partition w₂ hw₂ hj₂
      refine prompt_again ?_ (fun h => absurd h hnot)
      rwa [hj₂]
    · intro error w₂ hw₂ hj₂
      refine prompt_again ?_ (fun h => absurd h hnot)
      rw [hj₂]
      exact ⟨hsuits.completed, hsuits.inHand, hsuits.uninterrupted, hsuits.within,
        hsuits.starting, hsuits.recovering⟩

/-! ### Attempts -/

/-- A wait ends by itself, or the signal has interrupted it. -/
theorem prompt_sleepUntil (hj : W.journal w = j) (hinHand : j.inHand = true) (at_ : ℕ) :
    (sleepUntil at_).Prompt W.attendedContract stopDemand (W.Yields j) 3 w := by
  refine prompt_clock hj (fun now w₁ hw₁ hj₁ => ?_)
  split_ifs
  · exact Prog.prompt_ret (stable_yields _) hj₁
  refine Prog.prompt_await (stable_journal (fun j' => j' = j)) hj₁
    (fun _ _ _ _ => ⟨{}, ⟨rfl, by simp⟩, rfl⟩) ?_
  rintro ⟨now', reply, assigned, transport, wake⟩ w₂ hw₂ hj₂ he
  cases wake with
  | changed =>
    obtain ⟨hfalse, hattended, hvalue, hjournal⟩ := hw₂.changed (W := W) he
    refine ⟨hattended, trivial, Iff.rfl, ?_⟩
    dsimp only
    rw [hfalse]
    refine prompt_borrow (n := 0) ((stable_journal (fun j' => j'.interrupted = true)).and
      stable_raised) ⟨?_, hvalue⟩ (fun w₃ _ h₃ => ?_)
    · rw [hjournal, hj₂]
      simp [note, hinHand]
    · rw [show w₃.shutdown.value = true from h₃.2]
      exact Prog.prompt_ret (stable_yields _) (Or.inr h₃.1)
  | slept => exact ⟨hw₂, trivial, Iff.rfl, Prog.prompt_ret (stable_yields _) hj₂⟩
  | message topic partition => cases he
  | partitionEof partition => cases he
  | receiveError error => cases he

theorem prompt_sendAttempt {n : ℕ} {Q : Next Control (Except String Unit) → World → Prop}
    {k : AttemptOutcome → Pass} (hj : W.journal w = j) (job : Job)
    (h : ∀ outcome w', Attended w' →
      W.journal w' = W.note j (.answered job.record.deliveryId outcome) →
      (k outcome).Prompt W.attendedContract stopDemand Q n w') :
    (sendAttempt job >>= k).Prompt W.attendedContract stopDemand Q (n + 2) w := by
  rw [sendAttempt, Prog.bind_assoc]
  refine Prog.prompt_await (stable_journal (fun j' => j' = j)) hj
    (fun _ _ _ _ => ⟨{}, ⟨rfl, by simp⟩, rfl⟩) (fun _ w₁ hw₁ hj₁ _ => ?_)
  refine ⟨hw₁.of_eq rfl, trivial, Iff.rfl, ?_⟩
  have hj₁' : W.journal (w₁.log (.attempted job.cursor job.record.deliveryId
      ⟨job.body, job.record.originalMessageId, job.record.attempt⟩)) = j :=
    (journal_log _ _).trans hj₁
  refine Prog.prompt_await (stable_journal (fun j' => j' = j)) hj₁'
    (fun _ _ _ _ => ⟨{}, ⟨rfl, by simp⟩, rfl⟩) (fun i w₂ hw₂ hj₂ _ => ?_)
  have hw₂' : Attended (w₂.log (.answered job.record.deliveryId (attemptOutcome i.transport))) :=
    hw₂.of_eq rfl
  refine ⟨hw₂', trivial, Iff.rfl, h _ _ hw₂' ?_⟩
  rw [← hj₂]
  exact journal_log _ _

theorem prompt_finish (hsuits : W.Suits c j) (job : Job)
    (hj : W.journal w = j.finish job.record.deliveryId)
    (hrank : W.rank ⟨c.phase, c.completed, none⟩ < W.rank c) :
    (W.finish c job).Prompt W.attendedContract stopDemand (W.Onward c raised) n w := by
  unfold finish rememberCompleted
  have hcard := Finset.card_insert_le job.record.deliveryId c.completed
  split_ifs with hlimit
  · apply prompt_error
    rw [hj]
    refine Or.inl (fun huntroubled => ?_)
    have hbound := huntroubled.completed
    rw [Journal.finish, hsuits.completed, Finset.card_insert_of_notMem hlimit.2] at hbound
    omega
  · refine prompt_again ?_ (fun _ => hrank)
    rw [hj]
    refine ⟨?_, rfl, hsuits.uninterrupted, ?_, hsuits.starting, hsuits.recovering⟩
    · rw [← hsuits.completed]
      rfl
    · by_cases hmem : job.record.deliveryId ∈ c.completed
      · rw [Finset.insert_eq_of_mem hmem]
        exact hsuits.within
      · have hlt : c.completed.card < W.maxRecoveryRecords := by
          by_contra hge
          exact hlimit ⟨by omega, hmem⟩
        exact hcard.trans hlt

theorem prompt_process {job : Job} (hattempts : W.endpoint.maxAttempts ≤ u32Max)
    (hw : Attended w) (hj : W.journal w = j) (hsuits : W.Suits c j) (hjob : c.job = some job) :
    (W.process c job).Prompt W.attendedContract stopDemand (W.Onward c raised) 8 w := by
  have hinHand : j.inHand = true := by rw [hsuits.inHand, hjob]; rfl
  have hrank : W.rank ⟨c.phase, c.completed, none⟩ < W.rank c := by
    simp [rank, jobRank, hjob]
  refine prompt_try (n := 5) hw (prompt_sleepUntil hj hinHand _) (fun _ w₁ hw₁ hj₁ => ?_)
  refine prompt_sendAttempt hj₁ job (fun outcome w₂ hw₂ hj₂ => ?_)
  cases outcome with
  | delivered status =>
    refine Prog.prompt_mono (prompt_try (n := 0) hw₂ (prompt_commitInput hj₂ job)
      (fun _ w₃ _ hj₃ => prompt_finish hsuits job hj₃ hrank)) (by omega) (fun _ _ _ h => h)
  | failed failure =>
    dsimp only
    split_ifs with hretries
    · refine prompt_clock (n := 2) hj₂ (fun now w₃ hw₃ hj₃ => ?_)
      refine prompt_try (n := 1) hw₃ (prompt_publishRecord hj₃ .retry _)
        (fun _ w₄ hw₄ hj₄ => ?_)
      refine prompt_try (n := 0) hw₄ (prompt_commitInput hj₄ job) (fun _ w₅ _ hj₅ => ?_)
      refine prompt_again ?_ (fun _ => ?_)
      · rw [hj₅]
        exact ⟨hsuits.completed, hinHand, hsuits.uninterrupted, hsuits.within, hsuits.starting,
          hsuits.recovering⟩
      · simp only [DurableEndpoint.retries, Bool.and_eq_true, decide_eq_true_eq] at hretries
        simp only [rank, jobRank, hjob, DurableEndpoint.retried]
        omega
    · refine Prog.prompt_mono (prompt_try (n := 1) hw₂ (prompt_publishRecord hj₂ .deadLetter _)
        (fun _ w₃ hw₃ hj₃ => prompt_try (n := 0) hw₃ (prompt_commitInput hj₃ job)
          (fun _ w₄ _ hj₄ => ?_))) (by omega) (fun _ _ _ h => h)
      exact prompt_finish hsuits { job with record := job.record.deadLettered failure } hj₄ hrank

/-! ### The worker -/

theorem attended_boot (w : World) : Attended (boot w) ∧ W.Suits ⟨.starting, ∅, none⟩
    (W.journal (boot w)) := by
  have hj : W.journal (boot w) = {} := journal_log _ _
  refine ⟨⟨rfl, fun _ => rfl⟩, ?_⟩
  rw [hj]
  exact ⟨rfl, rfl, rfl, by simp, fun _ => rfl, fun _ _ h => by cases h⟩

theorem obeys_attended (hattempts : W.endpoint.maxAttempts ≤ u32Max) :
    W.attended.Obeys Attended stopDemand 8 W.rank (fun c w => W.Suits c (W.journal w))
      W.Ended where
  environment o w w' hw ho := hw.environment ho
  boot w _ := attended_boot w
  pass c w hw hsuits := by
    obtain ⟨phase, completed, job⟩ := c
    cases job with
    | some job => exact prompt_process hattempts hw rfl hsuits rfl
    | none =>
      cases phase with
      | starting =>
        refine Prog.prompt_mono (prompt_startRecovery hw hsuits rfl rfl) (by omega)
          (fun _ _ _ h => h)
      | recovering eofPartitions recovered =>
        refine Prog.prompt_mono (prompt_recoverRetries rfl hsuits (fun h => h)) (by omega)
          (fun _ _ _ h => h)
      | delivering =>
        refine Prog.prompt_mono (prompt_deliver rfl hsuits (fun h => h)) (by omega)
          (fun _ _ _ h => h)

theorem rank_le (W : DurableWorker) (c : Control) : W.rank c ≤ W.endpoint.maxAttempts + 3 := by
  obtain ⟨phase, completed, job⟩ := c
  have hphase : phaseRank phase ≤ 2 := by cases phase <;> simp [phaseRank]
  have hjob : W.jobRank job ≤ W.endpoint.maxAttempts + 1 := by
    cases job with
    | none => simp [jobRank]
    | some job =>
      simp only [jobRank]
      omega
  simp only [rank]
  omega

end DurableWorker
end KafkaEdgeRouter.Webhook
