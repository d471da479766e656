import KafkaEdgeRouter.DurableCalls

/-!
# One record in the hands of the durable worker

The loop of `process`: after every attempt the record is published again or has come to an end, and
only then its input is committed. Whatever happens, the worker can go on or has a reason to fail.
-/

namespace KafkaEdgeRouter.Webhook.DurableWorker

variable {W : DurableWorker} {w s : World} {c : Control} {job : Job} {attempted ended : Prop}

theorem HasInput.holds (hw : W.Inv w) (h : W.HasInput job attempted w) :
    W.Holds w job.cursor.key job.cursor.offset job.record.deliveryId := by
  obtain ⟨record, earlier, later, htaken, hid, hdestination, _⟩ := h
  obtain ⟨payload, hhistory, hmessage⟩ := htaken.history
  have hat : w.broker.At job.cursor.key job.cursor.offset payload := by
    apply hw.receipts
    rw [hhistory]
    exact List.mem_append_right _ List.mem_cons_self
  exact ⟨payload, record, hat, own_of_fromMessage hmessage hdestination, hid⟩

theorem Busy.hasInput (h : W.Busy c job attempted w) (hinput : job.inputCommitted = false) :
    W.HasInput job attempted w := by
  have hcase := h.working.input
  rwa [if_neg (by simp [hinput])] at hcase

theorem Busy.aligned (h : W.Busy c job attempted w) (hinput : job.inputCommitted = true) :
    w.broker.Aligned := by
  have hcase := h.working.input
  rwa [if_pos hinput] at hcase

/-- The outcome of an attempt is safe in Kafka or known to be the end, so that the input may be
committed. -/
structure Handled (W : DurableWorker) (c : Control) (job : Job) (ended : Prop) (w : World) :
    Prop where
  busy : W.Busy c job True w
  passed : job.inputCommitted = false → W.Passed w job.cursor job.record.deliveryId
  ended : ended → Terminal (lifetime w.history) job.record.deliveryId

theorem persistent_passed (cursor : Cursor) (id : String) :
    W.Persistent (fun w => W.Passed w cursor id) := by
  intro e w w' _ hx h
  rcases h with ht | ⟨offset, hle, hbeyond, hh⟩
  · exact Or.inl (hx.terminal ht)
  · exact Or.inr ⟨offset, by rwa [hx.committed], hbeyond, hh.growth hx.toGrowth⟩

theorem persistent_handled : W.Persistent (W.Handled c job ended) := by
  intro e w w' hw hx h
  constructor
  · exact persistent_busy c job True e w w' hw hx h.busy
  · exact fun hinput => persistent_passed _ _ e w w' hw hx (h.passed hinput)
  · exact fun hended => persistent_terminal _ e w w' hw hx (h.ended hended)

/-! ### Publishing -/

theorem extension_publish {topic : Topic} {record : DurableRecord} {e : Event}
    (htopic : topic ≠ .delivery) (hbusy : W.Busy c job attempted w)
    (hid : record.deliveryId = job.record.deliveryId)
    (hquiet : e.quiet = true)
    (hadds : W.Adds w ((w.append (topic, W.cluster.partitionOf record.destinationId)
      record.payload).log e) e)
    (hended : ∀ id, e.terminalId = some id → id = job.record.deliveryId) :
    W.Extension (some job.record.deliveryId) e w
      ((w.append (topic, W.cluster.partitionOf record.destinationId) record.payload).log e) := by
  apply extension_append hquiet hadds
  · intro id hterminal
    rw [hended id hterminal]
  · intro record' hown
    rw [fromMessage_payload_eq (own_eq_some hown).1, hid]
    exact Or.inl ⟨⟨htopic, hbusy.working.known, hbusy.working.cleared⟩, rfl⟩

theorem handled_retry {record : DurableRecord} (hw : W.Inv w) (hbusy : W.Busy c job True w)
    (hid : record.deliveryId = job.record.deliveryId)
    (hdestination : record.destinationId = W.endpoint.id)
    (hown : W.own record.payload = some record) :
    let w' := (w.append (.retry, W.cluster.partitionOf record.destinationId) record.payload).log
      (.acknowledged .retry record.deliveryId)
    W.Inv w' ∧ W.Handled c job (Topic.retry = Topic.deadLetter) w' := by
  intro w'
  have hx : W.Extension (some job.record.deliveryId)
      (.acknowledged .retry record.deliveryId) w w' :=
    extension_publish (by simp) hbusy hid rfl trivial (ends_nothing rfl)
  refine ⟨hw.growth hx.toGrowth, hx.busy hw hbusy, ?_, nofun⟩
  intro hinput
  have hpartition : W.cluster.partitionOf record.destinationId = W.partition := by
    rw [hdestination]
    rfl
  right
  refine ⟨(w.broker.log (.retry, W.partition)).length, ?_, ?_, ?_⟩
  · exact hw.bounded _
  · intro hkey
    obtain ⟨payload, _, hat, _⟩ := (hbusy.hasInput hinput).holds hw
    rw [← hkey]
    exact hat.lt
  · rw [← hid, ← hpartition]
    exact holds_append _ _ _ hown

theorem handled_deadLetter {record : DurableRecord} (hw : W.Inv w) (hbusy : W.Busy c job True w)
    (hid : record.deliveryId = job.record.deliveryId)
    (hown : W.own record.payload = some record) :
    let w' := (w.append (.deadLetter, W.cluster.partitionOf record.destinationId)
      record.payload).log (.acknowledged .deadLetter record.deliveryId)
    W.Inv w' ∧ W.Handled c job (Topic.deadLetter = Topic.deadLetter) w' := by
  intro w'
  have hx : W.Extension (some job.record.deliveryId) (.acknowledged .deadLetter record.deliveryId)
      w w' := by
    apply extension_publish (by simp) hbusy hid rfl
    · exact ⟨_, _, holds_append _ _ _ hown⟩
    · intro id hterminal
      cases hterminal
      exact hid
  have hended : Terminal (lifetime w'.history) job.record.deliveryId := by
    refine ⟨.acknowledged .deadLetter record.deliveryId, ?_, by rw [← hid]; rfl⟩
    rw [hx.lifetime]
    exact List.mem_append_right _ (List.mem_singleton_self _)
  exact ⟨hw.growth hx.toGrowth, hx.busy hw hbusy, fun _ => Or.inl hended.of_lifetime,
    fun _ => hended⟩

theorem sat_publishRecord {topic : Topic} {record : DurableRecord} (htopic : topic ≠ .delivery)
    (hsame : record.SameCommand job.record) (hs : W.Busy c job True s) :
    (W.publishRecord topic record).Sat W.contract
      (W.Outcome (fun _ => W.Handled c job (topic = .deadLetter))) s := by
  have hstable : ∀ r : Except String Unit,
      W.contract.Stable (W.Outcome (fun _ => W.Handled c job (topic = .deadLetter)) r) :=
    stable_outcome (fun _ => persistent_handled.stable)
  have hbusy : W.contract.Stable (W.Busy c job True) := (persistent_busy c job True).stable
  obtain ⟨hid, hsameDestination, hsameVersion⟩ := hsame
  have hdestination := hsameDestination.trans hs.working.destination
  have hversion := hsameVersion.trans hs.working.version
  apply sat_call hbusy hstable hs
  intro i w hw h _
  by_cases hsize : record.size > W.maxRecordBytes
  · simp only [published, DurableRecord.publication, hsize, if_true]
    exact failed_call hw (by simp)
  · have hown := own_payload (Nat.not_lt.mp hsize) hversion hdestination
    simp only [published, DurableRecord.publication, hsize, if_false]
    cases i.reply with
    | done =>
      cases topic with
      | delivery => exact absurd rfl htopic
      | retry => exact handled_retry hw h hid hdestination hown
      | deadLetter => exact handled_deadLetter hw h hid hown
    | failed error applied =>
      cases applied with
      | false => exact failed_call hw (by simp)
      | true =>
        have hx : W.Extension (some job.record.deliveryId) (.failed .publish) w _ :=
          extension_publish htopic h hid rfl trivial (ends_nothing rfl)
        exact ⟨hw.growth hx.toGrowth, reason_failed (by simp) (failed_mem _ _)⟩

/-! ### Committing -/

theorem InPhase.commit {exempt : Option String} {phase : Phase} {cursor : Cursor}
    (h : W.InPhase exempt w phase) (hoffset : cursor.offset = w.broker.committed cursor.key)
    (hpassed : cursor.key = (.delivery, W.partition) →
      ∀ id, Commanded w.history id cursor.offset → Settling w.history exempt id) :
    W.InPhase exempt ((w.commit cursor).log (.committed cursor)) phase := by
  have hlifetime : lifetime (w.history ++ [.committed cursor]) =
      lifetime w.history ++ [.committed cursor] := lifetime_concat (by simp)
  have hlate : W.LateRetries exempt w →
      W.LateRetries exempt ((w.commit cursor).log (.committed cursor)) :=
    fun h offset id hle hh => (h offset id hle hh).append _
  have hearly : bothTopics ∉ lifetime w.history →
      bothTopics ∉ lifetime (w.history ++ [.committed cursor]) := by
    intro hnot hmem
    rw [hlifetime] at hmem
    rcases List.mem_append.mp hmem with hmem | hmem
    · exact hnot hmem
    · cases List.mem_singleton.mp hmem
  cases phase with
  | starting => exact ⟨hlate h.1, hearly h.2⟩
  | recovering eofPartitions recovered =>
    refine ⟨h.subscribed, hlate h.late, h.ended, hearly h.early, ?_⟩
    apply Nat.le_trans h.counted
    simp only [World.log, World.commit, hlifetime, List.filter_append, List.length_append]
    exact Nat.le_add_right _ _
  | delivering =>
    intro hclean
    refine (h hclean.of_append).imp_right (fun hcaught id offset hc hlt => ?_)
    obtain ⟨acknowledged, hmem⟩ := hc
    have hc' : Commanded w.history id offset :=
      ⟨acknowledged, by simpa [World.log, World.commit] using hmem⟩
    apply Settling.append
    by_cases hkey : cursor.key = (.delivery, W.partition)
    · simp only [World.commit, World.log, Broker.commit, hkey, Function.update_self] at hlt
      rcases Nat.eq_or_lt_of_le (Nat.le_of_lt_succ hlt) with heq | hlt
      · exact hpassed hkey id (by rwa [← heq])
      · apply hcaught id offset hc'
        rwa [← hkey, ← hoffset]
    · apply hcaught id offset hc'
      simpa only [World.commit, World.log, Broker.commit,
        Function.update_of_ne (Ne.symm hkey)] using hlt

theorem Handled.commit (hw : W.Inv w) (h : W.Handled c job ended w)
    (hinput : job.inputCommitted = false) :
    let w' := (w.commit job.cursor).log (.committed job.cursor)
    W.Inv w' ∧ W.Busy c { job with inputCommitted := true } True w' ∧
      (ended → Terminal (lifetime w'.history) job.record.deliveryId) := by
  intro w'
  have hin := h.busy.hasInput hinput
  have hholds := hin.holds hw
  obtain ⟨record, earlier, later, htaken, hid, hdestination, hfirst, hattempted⟩ := hin
  obtain ⟨payload, hhistory, hmessage⟩ := htaken.history
  have hlt : job.cursor.offset < (w.broker.log job.cursor.key).length := by
    obtain ⟨_, _, hat, _⟩ := hholds
    exact hat.lt
  have hserved : W.Served w.history job.cursor := by
    refine ⟨earlier, payload, later, record, hhistory, htaken.running, hmessage, fun _ => ?_⟩
    exact iff_of_true (hattempted trivial) hfirst
  have hinv : W.Inv w' := by
    apply hw.commit htaken.offset hlt _ hserved
    intro id hh
    rw [hh.unique hholds]
    exact h.passed hinput
  have hlifetime : lifetime w'.history = lifetime w.history ++ [.committed job.cursor] :=
    lifetime_concat (by simp)
  refine ⟨hinv, ⟨?_, ?_, h.busy.few, ?_⟩, ?_⟩
  · apply InPhase.commit h.busy.phase htaken.offset
    intro hkey id hc
    have hh := hw.commands hc
    rw [← hkey] at hh
    rw [hh.unique hholds]
    exact Or.inr rfl
  · exact h.busy.recalls.concat (by simp) rfl
  · obtain ⟨hd, hv, hf, ⟨offset, hc⟩, hcleared, _⟩ := h.busy.working
    refine ⟨hd, hv, hf, ⟨offset, hc.append _⟩, ?_, ?_⟩
    · intro hclean
      exact (hcleared hclean.of_append).concat (fun _ _ => hw.offset_lt) nofun
    · simp only [if_true]
      have haligned := htaken.inHand.commit
      rwa [← htaken.offset] at haligned
  · intro hended
    rw [hlifetime]
    exact (h.ended hended).append _

theorem sat_commitCursor {P Q : World → Prop} {cursor : Cursor} (hP : W.contract.Stable P)
    (hQ : W.contract.Stable Q) (hs : P s)
    (hcommit : ∀ w, W.Inv w → P w → W.Inv ((w.commit cursor).log (.committed cursor)) ∧
      Q ((w.commit cursor).log (.committed cursor))) :
    (commitCursor cursor).Sat W.contract (W.Outcome (fun _ => Q)) s := by
  apply sat_call hP (stable_outcome (fun _ => hQ)) hs
  intro i w hw hp _
  cases hreply : i.reply with
  | done => exact hcommit w hw hp
  | failed error applied =>
    cases applied with
    | false => exact failed_call hw (by simp)
    | true => exact failed_call (hcommit w hw hp).1 (by simp)

/-- The input is committed, whenever that happened. -/
def Relieved (W : DurableWorker) (c : Control) (job : Job) (ended : Prop) (w : World) : Prop :=
  W.Busy c { job with inputCommitted := true } True w ∧
    (ended → Terminal (lifetime w.history) job.record.deliveryId)

theorem sat_commitInput (hs : W.Handled c job ended s) :
    (commitInput job).Sat W.contract (W.Outcome (fun _ => W.Relieved c job ended)) s := by
  have hstable : W.contract.Stable (W.Relieved c job ended) := by
    apply Persistent.stable
    intro e w w' hw hx h
    refine ⟨persistent_busy c _ True e w w' hw hx h.1, fun hended => ?_⟩
    exact persistent_terminal _ e w w' hw hx (h.2 hended)
  unfold commitInput
  cases hinput : job.inputCommitted with
  | true =>
    have hjob : { job with inputCommitted := true } = job := by rw [← hinput]
    apply Prog.sat_ret (stable_outcome (fun _ => hstable) _)
    refine ⟨?_, hs.ended⟩
    rw [hjob]
    exact hs.busy
  | false =>
    exact sat_commitCursor persistent_handled.stable hstable hs
      (fun w hw h => h.commit hw hinput)

/-! ### The end of a job -/

theorem InPhase.finish {phase : Phase} {id : String} (h : W.InPhase (some id) w phase)
    (ht : Terminal w.history id) : W.InPhase none w phase := by
  cases phase with
  | starting => exact ⟨fun offset id' hle hh => (h.1 offset id' hle hh).terminal ht, h.2⟩
  | recovering eofPartitions recovered =>
    exact ⟨h.subscribed, fun offset id' hle hh => (h.late offset id' hle hh).terminal ht,
      h.ended, h.early, h.counted⟩
  | delivering =>
    intro hclean
    right
    rcases h hclean with ⟨_, hnone⟩ | hcaught
    · cases hnone
    · exact fun id' offset hc hlt => (hcaught id' offset hc hlt).terminal ht

theorem overflowed {completed : Finset String} {id : String} {exempt : Option String}
    (hrecalls : Recalls completed exempt w.history) (ht : Terminal (lifetime w.history) id)
    (hfresh : id ∉ completed) (hcard : W.maxRecoveryRecords ≤ completed.card) :
    W.Overflowed w.history := by
  have hsubset : insert id completed ⊆ terminalIds (lifetime w.history) := by
    intro id' hid'
    rw [mem_terminalIds]
    rcases Finset.mem_insert.mp hid' with rfl | hid'
    · exact ht
    · exact hrecalls.ended id' hid'
  have hle := Finset.card_le_card hsubset
  rw [Finset.card_insert_of_notMem hfresh] at hle
  exact Nat.lt_of_lt_of_le (Nat.lt_succ_of_le hcard) hle

theorem keeps_finish {record : DurableRecord} (hs : W.Relieved c job ended s) (hended : ended)
    (hsame : record.SameCommand job.record) : W.Keeps (W.finish c { job with record }) s := by
  have hid := hsame.1
  obtain ⟨hbusy, hterminal⟩ := hs
  have ht := hterminal hended
  unfold finish
  simp only [hid, rememberCompleted]
  by_cases hfull : c.completed.card ≥ W.maxRecoveryRecords ∧ job.record.deliveryId ∉ c.completed
  · rw [if_pos hfull]
    exact keeps_error (Or.inr (Or.inr (overflowed hbusy.recalls ht hfull.2 hfull.1)))
  · rw [if_neg hfull]
    apply keeps_again
    refine ⟨InPhase.finish hbusy.phase ht.of_lifetime, ⟨?_, ?_⟩, ?_, hbusy.aligned rfl⟩
    · intro id hmem
      rcases Finset.mem_insert.mp hmem with rfl | hmem
      · exact ht
      · exact hbusy.recalls.ended id hmem
    · intro id hlife
      left
      rcases hbusy.recalls.complete id hlife with hmem | heq
      · exact Finset.mem_insert_of_mem hmem
      · cases heq
        exact Finset.mem_insert_self _ _
    · have hfresh : job.record.deliveryId ∉ c.completed := hbusy.working.fresh
      have hroom : ¬ c.completed.card ≥ W.maxRecoveryRecords := fun h => hfull ⟨h, hfresh⟩
      simp only [Finset.card_insert_of_notMem hfresh]
      omega

/-! ### One pass of the loop -/

theorem busy_again {record : DurableRecord} (h : W.Relieved c job ended w)
    (hsame : record.SameCommand job.record) :
    W.Point ⟨c.phase, c.completed, some { job with record, inputCommitted := true }⟩ w := by
  obtain ⟨hid, hdestination, hversion⟩ := hsame
  obtain ⟨⟨hphase, hrecalls, hfew, hd, hv, hf, hknown, hcleared, hinput⟩, _⟩ := h
  refine ⟨?_, ?_, hfew, ?_, ?_, ?_, ?_, ?_, hinput⟩
  · rwa [hid]
  · rwa [hid]
  · rwa [hdestination]
  · rwa [hversion]
  · rwa [hid]
  · rwa [hid]
  · rwa [hid]

theorem keeps_process (hw : W.Inv s) (hs : W.Busy c job False s) :
    W.Keeps (W.process c job) s := by
  apply keeps_try hw (sat_sleepUntil (persistent_busy c job False) hw hs _)
  intro _ w hw h
  apply Prog.sat_bind hw
  apply Prog.sat_mono (sat_sendAttempt h)
  intro outcome w hw h
  cases outcome with
  | delivered status =>
    have ht : Terminal (lifetime w.history) job.record.deliveryId := h.2 status rfl
    have hhandled : W.Handled c job True w :=
      ⟨h.1, fun _ => Or.inl ht.of_lifetime, fun _ => ht⟩
    apply keeps_try hw (sat_commitInput hhandled)
    intro _ w hw h
    exact keeps_finish h trivial ⟨rfl, rfl, rfl⟩
  | failed failure =>
    simp only
    split_ifs with hretry
    · apply Prog.sat_bind hw
      apply Prog.sat_mono (sat_clock (persistent_busy c job True).stable h.1)
      intro now w hw h
      have hsame := W.endpoint.sameCommand_retried job.record failure now
      generalize W.endpoint.retried job.record failure now = record at hsame ⊢
      apply keeps_try hw (sat_publishRecord (by simp) hsame h)
      intro _ w hw h
      apply keeps_try hw (sat_commitInput h)
      intro _ w hw h
      exact keeps_again (busy_again h hsame)
    · have hsame := job.record.sameCommand_deadLettered failure
      generalize job.record.deadLettered failure = record at hsame ⊢
      apply keeps_try hw (sat_publishRecord (by simp) hsame h.1)
      intro _ w hw h
      apply keeps_try hw (sat_commitInput h)
      intro _ w hw h
      exact keeps_finish h rfl hsame

end KafkaEdgeRouter.Webhook.DurableWorker
