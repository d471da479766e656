import KafkaEdgeRouter.DurableProcess

/-!
# The loops of the durable worker

The loops of `recover_retries` and `run`. Recovery ends at the end of every partition or because of
shutdown; in the first case every command that the delivery topic has passed has come to an end.
With `process` this covers every pass, so every node that can be reached keeps the invariant and a
worker that has returned had a reason to.
-/

namespace KafkaEdgeRouter.Webhook

/-- Nothing that has happened since the last start is forgotten. -/
theorem mem_lifetime_of_split {earlier later : List Event} {e : Event} (he : e ≠ .started)
    (hlater : ∀ e' ∈ later, e' ≠ .started) : e ∈ lifetime (earlier ++ e :: later) := by
  induction later using List.reverseRecOn with
  | nil =>
    rw [lifetime_concat he]
    exact List.mem_append_right _ (List.mem_singleton_self e)
  | append_singleton later e' ih =>
    have hsplit : earlier ++ e :: (later ++ [e']) = (earlier ++ e :: later) ++ [e'] := by simp
    rw [hsplit, lifetime_concat (hlater e' (by simp))]
    apply List.mem_append_left
    exact ih (fun e'' he'' => hlater e'' (List.mem_append_left _ he''))

namespace DurableWorker

variable {W : DurableWorker} {w s : World} {c : Control} {completed : Finset String}

/-! ### Receiving -/

/-- Idle, and in the delivery loop caught up unless shutdown was seen. -/
structure Ready (W : DurableWorker) (c : Control) (w : World) : Prop where
  idle : W.Idle c w
  caught : c.phase = .delivering → Clean w.history → W.Caught none w

theorem persistent_ready : W.Persistent (W.Ready c) := by
  intro e w w' hw hx h
  constructor
  · exact hx.idle hw h.idle
  · exact fun hphase hclean => hx.caught hw (h.caught hphase (hx.clean hclean))

/-- Where the loop stands after a message. -/
def advanced (W : DurableWorker) (cursor : Cursor) (payload : Payload) : Phase → Phase
  | .recovering eofPartitions recovered =>
    .recovering (eofPartitions.erase cursor.partition)
      (recovered + if (W.own payload).isSome then 1 else 0)
  | phase => phase

structure Fetched (W : DurableWorker) (c : Control) (cursor : Cursor) (payload : Payload)
    (w : World) : Prop where
  phase : W.InPhase none w (W.advanced cursor payload c.phase)
  caught : c.phase = .delivering → Clean w.history → W.Caught none w
  recalls : Recalls c.completed none w.history
  few : c.completed.card ≤ W.maxRecoveryRecords
  inHand : w.broker.InHand cursor.key
  offset : cursor.offset = w.broker.committed cursor.key
  retry : c.phase ≠ .delivering → c.phase ≠ .starting → cursor.topic = .retry
  history : ∃ earlier later, w.history = earlier ++ .received cursor payload :: later ∧
    (∀ e ∈ later, e ≠ .started ∧ e.isAttempted = false) ∧
    ∀ id, Terminal (lifetime earlier) id ↔ id ∈ c.completed

theorem stable_fetched {cursor : Cursor} {payload : Payload} :
    W.contract.Stable (W.Fetched c cursor payload) := by
  apply stable_outside
  intro e w w' hw hx houtside h
  obtain ⟨earlier, later, hhistory, hlater, hterminal⟩ := h.history
  constructor
  · exact hx.inPhase hw h.phase
  · exact fun hphase hclean => hx.caught hw (h.caught hphase (hx.clean hclean))
  · exact hx.recalls h.recalls
  · exact h.few
  · rw [Broker.InHand, hx.position, hx.committed]
    exact h.inHand
  · rw [hx.committed]
    exact h.offset
  · exact h.retry
  · refine ⟨earlier, later ++ [e], ?_, ?_, hterminal⟩
    · rw [hx.history, hhistory, List.append_assoc, List.cons_append]
    · intro e' he'
      rcases List.mem_append.mp he' with he' | he'
      · exact hlater e' he'
      · rw [List.mem_singleton.mp he']
        refine ⟨hx.ne_started, ?_⟩
        cases e <;> first | rfl | cases houtside

/-- What each branch of the race leaves behind. -/
def Got (W : DurableWorker) (c : Control) : Received → World → Prop
  | .changed isErr => fun w =>
    W.Ready c w ∧ Signalled w.history ∧ (isErr = true → .senderDropped ∈ w.history)
  | .message cursor payload => W.Fetched c cursor payload
  | .partitionEof partition => fun w => W.Ready c w ∧ partition < W.cluster.partitions ∧
    ∃ topic ∈ w.subscribed, w.present (topic, partition) ≤ w.broker.position (topic, partition)
  | .receiveError _ => fun w => W.Ready c w ∧ .failed .receive ∈ lifetime w.history

theorem stable_got (r : Received) : W.contract.Stable (W.Got c r) := by
  cases r with
  | changed isErr =>
    apply Persistent.stable
    intro e w w' hw hx h
    refine ⟨persistent_ready e w w' hw hx h.1, hx.signalled h.2.1, fun herr => ?_⟩
    rw [hx.history]
    exact List.mem_append_left _ (h.2.2 herr)
  | message cursor payload => exact stable_fetched
  | partitionEof partition =>
    apply Persistent.stable
    intro e w w' hw hx h
    refine ⟨persistent_ready e w w' hw hx h.1, h.2.1, ?_⟩
    rw [hx.subscribed, hx.present, hx.position]
    exact h.2.2
  | receiveError error => exact (persistent_ready.and (persistent_lifetime _)).stable

theorem InPhase.receive {cursor : Cursor} {payload : Payload} {phase : Phase}
    (h : W.InPhase none w phase) :
    W.InPhase none ({ w with broker := w.broker.receive cursor.key }.log (.received cursor payload))
      (W.advanced cursor payload phase) := by
  have hlifetime : lifetime (w.history ++ [.received cursor payload]) =
      lifetime w.history ++ [.received cursor payload] := lifetime_concat (by simp)
  have hearly : bothTopics ∉ lifetime w.history →
      bothTopics ∉ lifetime (w.history ++ [.received cursor payload]) := by
    intro hnot hmem
    rw [hlifetime] at hmem
    rcases List.mem_append.mp hmem with hmem | hmem
    · exact hnot hmem
    · cases List.mem_singleton.mp hmem
  have hlate : W.LateRetries none w → W.LateRetries none
      ({ w with broker := w.broker.receive cursor.key }.log (.received cursor payload)) :=
    fun h offset id hle hh => (h offset id hle hh).append _
  cases phase with
  | starting => exact ⟨hlate h.1, hearly h.2⟩
  | recovering eofPartitions recovered =>
    refine ⟨h.subscribed, hlate h.late, ?_, hearly h.early, ?_⟩
    · intro q hq
      obtain ⟨hlt, hle⟩ := h.ended q (Finset.mem_of_mem_erase hq)
      refine ⟨hlt, Nat.le_trans hle ?_⟩
      simp only [World.log, Broker.receive]
      by_cases hkey : (Topic.retry, q) = cursor.key
      · rw [hkey, Function.update_self]
        exact Nat.le_succ _
      · rw [Function.update_of_ne hkey]
    · have hcounted := h.counted
      simp only [World.log, hlifetime, List.filter_append, List.length_append]
      cases hown : (W.own payload).isSome with
      | true =>
        have hone : [Event.received cursor payload].filter W.ownReceipt =
            [Event.received cursor payload] := by
          simp [ownReceipt, hown]
        rw [hone]
        simpa using hcounted
      | false => simpa using Nat.le_trans hcounted (Nat.le_add_right _ _)
  | delivering =>
    intro hclean
    rcases h hclean.of_append with hvalue | hcaught
    · exact Or.inl hvalue
    · right
      rintro id offset ⟨acknowledged, hmem⟩ hlt
      have hc : Commanded w.history id offset := ⟨acknowledged, by simpa [World.log] using hmem⟩
      exact (hcaught id offset hc hlt).append _

theorem fetched_of_ready {topic : Topic} {partition : ℕ} (hw : W.Inv w) (h : W.Ready c w)
    (hsubscribed : topic ∈ w.subscribed)
    (hlt : w.broker.position (topic, partition) < (w.broker.log (topic, partition)).length) :
    let cursor : Cursor := ⟨topic, partition, w.broker.position (topic, partition)⟩
    let payload := (w.broker.log cursor.key).getD cursor.offset .missing
    let w' := { w with broker := w.broker.receive cursor.key }.log (.received cursor payload)
    W.Inv w' ∧ W.Fetched c cursor payload w' := by
  intro cursor payload w'
  have hat : w.broker.At cursor.key cursor.offset payload := by
    simp only [Broker.At, payload, cursor, Cursor.key, List.getD_eq_getElem?_getD]
    rw [List.getElem?_eq_getElem hlt]
    rfl
  have hg : Growth W (.received cursor payload) w w' := {
    history := rfl
    committed := rfl
    kept := fun hat => hat
    records := Or.inl
    event := hat
    signals := fun h => Or.inl ⟨h, by simp⟩
    dropped := Or.inl }
  refine ⟨hw.growth hg, InPhase.receive h.idle.phase, ?_, ?_, h.idle.few, ?_, ?_, ?_, ?_⟩
  · rintro hphase hclean id offset ⟨acknowledged, hmem⟩ hlt
    have hc : Commanded w.history id offset := ⟨acknowledged, by simpa [w', World.log] using hmem⟩
    exact (h.caught hphase hclean.of_append id offset hc hlt).append _
  · exact h.idle.recalls.concat (by simp) rfl
  · exact h.idle.aligned.receive cursor.key
  · exact congrFun h.idle.aligned (topic, partition)
  · intro hdelivering hstarting
    have hphase := h.idle.phase
    cases hc : c.phase with
    | starting => exact absurd hc hstarting
    | delivering => exact absurd hc hdelivering
    | recovering eofPartitions recovered =>
      rw [hc] at hphase
      have honly := hphase.subscribed
      rw [honly] at hsubscribed
      exact List.mem_singleton.mp hsubscribed
  · refine ⟨w.history, [], rfl, fun e he => absurd he List.not_mem_nil, fun id => ?_⟩
    refine ⟨fun ht => ?_, h.idle.recalls.ended id⟩
    rcases h.idle.recalls.complete id ht with hmem | hnone
    · exact hmem
    · cases hnone

theorem sat_receive (hs : W.Ready c s) : W.receive.Sat W.contract (W.Got c) s := by
  apply sat_call persistent_ready.stable stable_got hs
  intro i w hw h he
  have hchanged : w.shutdown.canChange = true →
      W.Inv w.changed.2 ∧ W.Got c (.changed w.changed.1) w.changed.2 := by
    intro hchange
    have hx : W.Extension none .noticed w w.changed.2 := extension_changed w
    refine ⟨hw.growth hx.toGrowth, persistent_ready _ _ _ hw hx h,
      hx.signalled (signalled_of_canChange hw hchange), fun herr => ?_⟩
    have hdropped : w.shutdown.dropped = true := by
      simp only [World.changed, Watch.changed, Bool.not_eq_true'] at herr
      simpa [Watch.canChange, herr] using hchange
    exact List.mem_append_left _ (hw.dropped hdropped)
  simp only [receives] at he
  simp only [received]
  cases hwake : i.wake with
  | changed =>
    simp only [hwake] at he
    exact hchanged he
  | message topic partition =>
    simp only [hwake, Bool.and_eq_true, decide_eq_true_eq] at he
    exact fetched_of_ready hw h he.1 he.2
  | partitionEof partition =>
    simp only [hwake, Bool.and_eq_true, decide_eq_true_eq, List.any_eq_true] at he
    exact ⟨hw, h, he.1, he.2⟩
  | receiveError error =>
    have hx : W.Extension none (.failed .receive) w (w.log (.failed .receive)) :=
      extension_log rfl trivial (ends_nothing rfl)
    exact ⟨hw.growth hx.toGrowth, persistent_ready _ _ _ hw hx h, failed_mem w .receive⟩
  | slept =>
    simp only [hwake] at he
    cases he

/-! ### What is done with a message -/

theorem Fetched.mem_lifetime {cursor : Cursor} {payload : Payload}
    (h : W.Fetched c cursor payload w) : .received cursor payload ∈ lifetime w.history := by
  obtain ⟨earlier, later, hhistory, hlater, _⟩ := h.history
  rw [hhistory]
  exact mem_lifetime_of_split (by simp) (fun e he => (hlater e he).1)

theorem Fetched.at {cursor : Cursor} {payload : Payload} (hw : W.Inv w)
    (h : W.Fetched c cursor payload w) : w.broker.At cursor.key cursor.offset payload :=
  hw.receipts (History.mem_current h.mem_lifetime)

theorem reason_malformed {cursor : Cursor} {payload : Payload} (h : W.Fetched c cursor payload w)
    (hbad : W.malformed payload = true) : W.Reason w :=
  Or.inr (Or.inl (.malformed cursor payload h.mem_lifetime hbad))

/-- A record of another destination, or one that has come to an end, is only committed. -/
theorem Fetched.skip {cursor : Cursor} {payload : Payload} {record : DurableRecord}
    (hw : W.Inv w) (h : W.Fetched c cursor payload w)
    (hmessage : fromMessage W.maxRecordBytes payload = .ok record)
    (hskip : record.destinationId ≠ W.endpoint.id ∨ record.deliveryId ∈ c.completed) :
    let w' := (w.commit cursor).log (.committed cursor)
    W.Inv w' ∧ W.Idle ⟨W.advanced cursor payload c.phase, c.completed, none⟩ w' := by
  intro w'
  obtain ⟨earlier, later, hhistory, hlater, hterminal⟩ := h.history
  have hended : ∀ id, W.Holds w cursor.key cursor.offset id → Terminal w.history id := by
    rintro id ⟨payload', record', hat', hown, rfl⟩
    cases (h.at hw).unique hat'
    obtain ⟨hmessage', hdestination⟩ := own_eq_some hown
    rw [hmessage] at hmessage'
    cases hmessage'
    rcases hskip with hforeign | hmem
    · exact absurd hdestination hforeign
    · exact (h.recalls.ended _ hmem).of_lifetime
  have hserved : W.Served w.history cursor := by
    refine ⟨earlier, payload, later, record, hhistory, fun e he => (hlater e he).1, hmessage, ?_⟩
    intro hdestination
    apply iff_of_false
    · rintro ⟨request, hmem⟩
      cases (hlater _ hmem).2
    · rcases hskip with hforeign | hmem
      · exact absurd hdestination hforeign
      · exact not_not.mpr ((hterminal _).mpr hmem)
  have hinv : W.Inv w' :=
    hw.commit h.offset (h.at hw).lt (fun id hh => Or.inl (hended id hh)) hserved
  refine ⟨hinv, InPhase.commit h.phase h.offset ?_, h.recalls.concat (by simp) rfl, h.few, ?_⟩
  · intro hkey id hc
    apply Or.inl
    apply hended
    rw [hkey]
    exact hw.commands hc
  · have haligned := h.inHand.commit
    rwa [← h.offset] at haligned

theorem InPhase.exempt {phase : Phase} (h : W.InPhase none w phase)
    (hcaught : phase = .delivering → Clean w.history → W.Caught none w) (id : String) :
    W.InPhase (some id) w phase := by
  have hweaken : ∀ id', Settling w.history none id' → Settling w.history (some id) id' := by
    rintro id' (ht | hnone)
    · exact Or.inl ht
    · cases hnone
  cases phase with
  | starting => exact ⟨fun offset id' hle hh => hweaken id' (h.1 offset id' hle hh), h.2⟩
  | recovering eofPartitions recovered =>
    exact ⟨h.subscribed, fun offset id' hle hh => hweaken id' (h.late offset id' hle hh),
      h.ended, h.early, h.counted⟩
  | delivering =>
    intro hclean
    right
    exact fun id' offset hc hlt => hweaken id' (hcaught rfl hclean id' offset hc hlt)

theorem Fetched.cleared {cursor : Cursor} {payload : Payload} {record : DurableRecord}
    (hw : W.Inv w) (h : W.Fetched c cursor payload w) (hstarted : c.phase ≠ .starting)
    (hown : W.own payload = some record) (hclean : Clean w.history) :
    Cleared w.history record.deliveryId := by
  obtain ⟨topic, partition, offset⟩ := cursor
  have hholds : W.Holds w (topic, partition) offset record.deliveryId :=
    ⟨payload, record, h.at hw, hown, rfl⟩
  by_cases htopic : topic = .delivery
  · subst htopic
    obtain ⟨rfl, hc | ⟨partition', offset', hdead⟩⟩ := hw.delivered hholds
    · have hdelivering : c.phase = .delivering := by
        by_contra hne
        cases h.retry hne hstarted
      refine ⟨offset, hc, fun id' offset' hc' hlt => ?_⟩
      have hcommitted : offset = w.broker.committed (.delivery, W.partition) := h.offset
      rcases h.caught hdelivering hclean id' offset' hc' (by omega) with ht | hnone
      · exact ht
      · cases hnone
    · exact hw.cleared hclean (by simp) hdead
  · exact hw.cleared hclean htopic hholds

theorem Fetched.busy {cursor : Cursor} {payload : Payload} {record : DurableRecord}
    {body : List UInt8} (hw : W.Inv w) (h : W.Fetched c cursor payload w)
    (hstarted : c.phase ≠ .starting)
    (hmessage : fromMessage W.maxRecordBytes payload = .ok record)
    (hdestination : record.destinationId = W.endpoint.id)
    (hfresh : record.deliveryId ∉ c.completed) :
    W.Busy ⟨W.advanced cursor payload c.phase, c.completed, none⟩ ⟨cursor, record, body, false⟩
      False w := by
  have hown := own_of_fromMessage hmessage hdestination
  obtain ⟨earlier, later, hhistory, hlater, hterminal⟩ := h.history
  constructor
  · apply InPhase.exempt h.phase
    intro hphase
    apply h.caught
    cases hc : c.phase with
    | delivering => rfl
    | starting => exact absurd hc hstarted
    | recovering eofPartitions recovered =>
      rw [hc] at hphase
      cases hphase
  · exact ⟨h.recalls.ended, fun id ht => Or.inl ((h.recalls.complete id ht).resolve_right nofun)⟩
  · exact h.few
  · refine ⟨hdestination, ?_, hfresh, ?_, h.cleared hw hstarted hown, ?_⟩
    · obtain ⟨_, _, _, hversion⟩ := fromMessage_ok hmessage
      exact hversion
    · exact hw.known ⟨payload, record, h.at hw, hown, rfl⟩
    · rw [if_neg (by simp)]
      refine ⟨record, earlier, later, ?_, rfl, hdestination, ?_, nofun⟩
      · exact ⟨⟨payload, hhistory, hmessage⟩, fun e he => (hlater e he).1, h.inHand, h.offset⟩
      · rw [hterminal]
        exact hfresh

/-- The count and the set of ended partitions may only be smaller than what is known. -/
theorem InPhase.fewer {exempt : Option String} {eofPartitions : Finset ℕ} {recovered recovered' : ℕ}
    (h : W.InPhase exempt w (.recovering eofPartitions recovered)) (hle : recovered' ≤ recovered) :
    W.InPhase exempt w (.recovering eofPartitions recovered') :=
  ⟨h.subscribed, h.late, h.ended, h.early, Nat.le_trans hle h.counted⟩

theorem keeps_skip {cursor : Cursor} {payload : Payload} {record : DurableRecord} {c' : Control}
    (hs : W.Fetched c cursor payload s)
    (hmessage : fromMessage W.maxRecordBytes payload = .ok record)
    (hskip : record.destinationId ≠ W.endpoint.id ∨ record.deliveryId ∈ c.completed)
    (hpoint : ∀ w, W.Idle ⟨W.advanced cursor payload c.phase, c.completed, none⟩ w →
      W.Idle c' w) (hw : W.Inv s) (hjob : c'.job = none) :
    W.Keeps ((commitCursor cursor).tryThen fun _ => return .again c') s := by
  apply keeps_try hw (sat_commitCursor stable_fetched (persistent_idle c').stable hs ?_)
  · intro _ w _ h
    apply keeps_again
    unfold Point
    rw [hjob]
    exact h
  · intro w hw h
    obtain ⟨hinv, hidle⟩ := h.skip hw hmessage hskip
    exact ⟨hinv, hpoint _ hidle⟩

theorem keeps_accept {cursor : Cursor} {payload : Payload} {record : DurableRecord} {c' : Control}
    (hw : W.Inv s) (hs : W.Fetched c cursor payload s) (hstarted : c.phase ≠ .starting)
    (hmessage : fromMessage W.maxRecordBytes payload = .ok record)
    (hdestination : record.destinationId = W.endpoint.id)
    (hfresh : record.deliveryId ∉ c.completed) (hcompleted : c'.completed = c.completed)
    (hphase : ∀ exempt, W.InPhase exempt s (W.advanced cursor payload c.phase) →
      W.InPhase exempt s c'.phase) :
    W.Keeps (W.accept c' cursor record) s := by
  unfold accept
  cases hbody : Base64.decode record.bodyBase64.toList with
  | none =>
    apply keeps_error
    apply reason_malformed hs
    simp [malformed, hmessage, hdestination, hbody]
  | some body =>
    have hbusy : W.Busy _ ⟨cursor, record, body, false⟩ False s :=
      hs.busy hw hstarted hmessage hdestination hfresh
    apply keeps_again
    refine ⟨hphase _ hbusy.phase, ?_, ?_, ?_⟩
    · rw [hcompleted]
      exact hbusy.recalls
    · rw [hcompleted]
      exact hbusy.few
    · rw [hcompleted]
      exact hbusy.working

/-! ### Subscribing -/

theorem inv_subscribe (hw : W.Inv w) (topics : List Topic) :
    W.Inv ({ w with broker := w.broker.rejoin, subscribed := topics }.log
      (.subscribed topics)) := by
  have hg : Growth W (.subscribed topics) w
      ({ w with broker := w.broker.rejoin, subscribed := topics }.log (.subscribed topics)) := {
    history := rfl
    committed := rfl
    kept := fun hat => hat
    records := Or.inl
    event := trivial
    signals := fun h => Or.inl ⟨h, by simp⟩
    dropped := Or.inl }
  exact hw.growth hg

theorem sat_subscribe {P Q : World → Prop} {topics : List Topic} {what : String}
    (hP : W.contract.Stable P) (hQ : W.contract.Stable Q) (hs : P s)
    (h : ∀ w, P w → Q ({ w with broker := w.broker.rejoin, subscribed := topics }.log
      (.subscribed topics))) :
    (subscribe topics what).Sat W.contract (W.Outcome (fun _ => Q)) s := by
  apply sat_call hP (stable_outcome (fun _ => hQ)) hs
  intro i w hw hp _
  cases i.reply with
  | done => exact ⟨inv_subscribe hw topics, h w hp⟩
  | failed error applied => exact failed_call hw (by simp)

theorem keeps_startRecovery (hw : W.Inv s) (hs : W.Idle ⟨.starting, completed, none⟩ s) :
    W.Keeps (startRecovery ⟨.starting, completed, none⟩) s := by
  apply keeps_try hw (sat_subscribe (persistent_idle _).stable
    (persistent_idle ⟨.recovering ∅ 0, completed, none⟩).stable hs ?_)
  · exact fun _ w _ h => keeps_again h
  · intro w h
    refine ⟨⟨rfl, ?_, fun q hq => absurd hq (Finset.notMem_empty q), ?_, Nat.zero_le _⟩,
      h.recalls.concat (by simp) rfl, h.few, rfl⟩
    · exact fun offset id hle hh => (h.phase.1 offset id hle hh).append _
    · intro hmem
      rw [World.log, lifetime_concat (by simp)] at hmem
      rcases List.mem_append.mp hmem with hmem | hmem
      · exact h.phase.2 hmem
      · cases List.mem_singleton.mp hmem

/-- The recovery may end. -/
structure Over (W : DurableWorker) (completed : Finset String) (w : World) : Prop where
  caught : Clean w.history → w.shutdown.value = true ∨ W.Caught none w
  recalls : Recalls completed none w.history
  few : completed.card ≤ W.maxRecoveryRecords

theorem persistent_over : W.Persistent (W.Over completed) := by
  intro e w w' hw hx h
  constructor
  · intro hclean
    exact (h.caught (hx.clean hclean)).imp (hx.value hclean) (hx.caught hw)
  · exact hx.recalls h.recalls
  · exact h.few

theorem keeps_startDelivery (hw : W.Inv s) (hs : W.Over c.completed s) :
    W.Keeps (startDelivery c) s := by
  apply keeps_try hw (sat_subscribe persistent_over.stable
    (persistent_idle ⟨.delivering, c.completed, none⟩).stable hs ?_)
  · exact fun _ w _ h => keeps_again h
  · intro w h
    refine ⟨?_, h.recalls.concat (by simp) rfl, h.few, rfl⟩
    intro hclean
    refine (h.caught hclean.of_append).imp (fun hvalue => ⟨hvalue, rfl⟩) ?_
    rintro hcaught id offset ⟨acknowledged, hmem⟩ hlt
    have hc : Commanded w.history id offset := ⟨acknowledged, by simpa [World.log] using hmem⟩
    exact (hcaught id offset hc hlt).append _

/-- At the end of its retry partition, the destination has caught up. -/
theorem Recovering.caught {eofPartitions : Finset ℕ} {recovered : ℕ} (hw : W.Inv w)
    (h : W.Recovering none eofPartitions recovered w) (haligned : w.broker.Aligned)
    (hend : w.present (.retry, W.partition) ≤ w.broker.position (.retry, W.partition)) :
    W.Caught none w := by
  intro id offset hc hlt
  rcases hw.settled hc hlt with ht | ⟨offset', hle, hh⟩
  · exact Or.inl ht
  · apply h.late offset' id _ hh
    have hposition := congrFun haligned (.retry, W.partition)
    omega

theorem partition_mem {eofPartitions : Finset ℕ}
    (hlt : ∀ q ∈ eofPartitions, q < W.cluster.partitions)
    (hcard : W.cluster.partitions ≤ eofPartitions.card) : W.partition ∈ eofPartitions := by
  have hsubset : eofPartitions ⊆ Finset.range W.cluster.partitions :=
    fun q hq => Finset.mem_range.mpr (hlt q hq)
  have heq := Finset.eq_of_subset_of_card_le hsubset (by simpa using hcard)
  rw [heq]
  exact Finset.mem_range.mpr (W.cluster.partitionOf_lt _)

theorem sat_assignment {P : World → Prop} (hP : W.contract.Stable P) (hs : P s) :
    W.assignment.Sat W.contract
      (W.Outcome (fun n w => P w ∧ (n = 0 ∨ n = W.cluster.partitions))) s := by
  have hstable : ∀ n : ℕ,
      W.contract.Stable (fun w => P w ∧ (n = 0 ∨ n = W.cluster.partitions)) :=
    fun n => hP.and (fun _ _ _ _ _ h => h)
  apply sat_call hP (stable_outcome hstable) hs
  intro i w hw hp he
  simp only [Bool.or_eq_true, decide_eq_true_eq] at he
  cases i.reply with
  | done => exact ⟨hw, hp, he⟩
  | failed error applied => exact failed_call hw (by simp)

/-! ### The recovery loop -/

theorem over_of_value {eofPartitions : Finset ℕ} {recovered : ℕ} (hvalue : w.shutdown.value = true)
    (h : W.Ready ⟨.recovering eofPartitions recovered, completed, none⟩ w) : W.Over completed w :=
  ⟨fun _ => Or.inl hvalue, h.idle.recalls, h.idle.few⟩

theorem over_of_dropped {eofPartitions : Finset ℕ} {recovered : ℕ}
    (hdropped : .senderDropped ∈ w.history)
    (h : W.Ready ⟨.recovering eofPartitions recovered, completed, none⟩ w) : W.Over completed w :=
  ⟨fun hclean => absurd rfl (hclean _ hdropped).1, h.idle.recalls, h.idle.few⟩

theorem ready_recovering {eofPartitions : Finset ℕ} {recovered : ℕ}
    (h : W.Idle ⟨.recovering eofPartitions recovered, completed, none⟩ w) :
    W.Ready ⟨.recovering eofPartitions recovered, completed, none⟩ w :=
  ⟨h, nofun⟩

/-- A shutdown check of the recovery loop. -/
theorem keeps_recoveryCheck {eofPartitions : Finset ℕ} {recovered : ℕ} {p : Pass}
    (hw : W.Inv s) (hs : W.Ready ⟨.recovering eofPartitions recovered, completed, none⟩ s)
    (hnext : ∀ w, W.Inv w → W.Ready ⟨.recovering eofPartitions recovered, completed, none⟩ w →
      W.Keeps p w) :
    W.Keeps (borrow >>= fun value => if value then
      startDelivery ⟨.recovering eofPartitions recovered, completed, none⟩ else p) s := by
  have hstable : ∀ value : Bool, W.contract.Stable (fun w =>
      W.Ready ⟨.recovering eofPartitions recovered, completed, none⟩ w ∧
      (value = true → W.Over completed w)) := by
    intro value
    apply Persistent.stable
    intro e w w' hw hx h
    exact ⟨persistent_ready e w w' hw hx h.1,
      fun hvalue => persistent_over e w w' hw hx (h.2 hvalue)⟩
  apply Prog.sat_bind hw
  apply Prog.sat_mono (sat_borrow persistent_ready.stable hstable hs
    (fun w _ h => ⟨h, fun hvalue => over_of_value hvalue h⟩))
  intro value w hw h
  cases value with
  | true => exact keeps_startDelivery hw (h.2 rfl)
  | false => exact hnext w hw h.1

theorem keeps_partitionEof {eofPartitions : Finset ℕ} {recovered partition : ℕ} (hw : W.Inv s)
    (hs : W.Got ⟨.recovering eofPartitions recovered, completed, none⟩
      (.partitionEof partition) s) :
    W.Keeps (W.assignment.tryThen fun assigned =>
      if assigned > 0 ∧ (insert partition eofPartitions).card ≥ assigned then
        startDelivery ⟨.recovering (insert partition eofPartitions) recovered, completed, none⟩
      else return .again ⟨.recovering (insert partition eofPartitions) recovered, completed, none⟩)
      s := by
  obtain ⟨hready, hlt, topic, htopic, hend⟩ := hs
  have hphase : W.Recovering none eofPartitions recovered s := hready.idle.phase
  have hretry : topic = .retry := by
    rw [hphase.subscribed] at htopic
    exact List.mem_singleton.mp htopic
  subst hretry
  have hidle : W.Idle ⟨.recovering (insert partition eofPartitions) recovered, completed, none⟩
      s := by
    refine ⟨⟨hphase.subscribed, hphase.late, ?_, hphase.early, hphase.counted⟩,
      hready.idle.recalls, hready.idle.few, hready.idle.aligned⟩
    intro q hq
    rcases Finset.mem_insert.mp hq with rfl | hq
    · exact ⟨hlt, hend⟩
    · exact hphase.ended q hq
  apply keeps_try hw (sat_assignment (persistent_idle _).stable hidle)
  intro assigned w hw h
  split_ifs with hdone
  · have hrecovering : W.Recovering none (insert partition eofPartitions) recovered w := h.1.phase
    have hmem : W.partition ∈ insert partition eofPartitions := by
      apply partition_mem (fun q hq => (hrecovering.ended q hq).1)
      rcases h.2 with hzero | heq
      · omega
      · omega
    apply keeps_startDelivery hw
    refine ⟨fun _ => Or.inr ?_, h.1.recalls, h.1.few⟩
    exact hrecovering.caught hw h.1.aligned (hrecovering.ended _ hmem).2
  · exact keeps_again h.1

theorem recovery_eq_lifetime {h : List Event} (hearly : bothTopics ∉ lifetime h) :
    recovery h = lifetime h := by
  apply History.prior_eq_self
  intro e he
  rw [beq_eq_false_iff_ne]
  rintro rfl
  exact hearly he

theorem keeps_recoveredMessage {eofPartitions : Finset ℕ} {recovered : ℕ} {cursor : Cursor}
    {payload : Payload} (hw : W.Inv s)
    (hs : W.Fetched ⟨.recovering eofPartitions recovered, completed, none⟩ cursor payload s) :
    W.Keeps (match fromMessage W.maxRecordBytes payload with
      | .error e => return .done (.error e)
      | .ok record =>
        if record.destinationId ≠ W.endpoint.id then
          (commitCursor cursor).tryThen fun _ =>
            return .again ⟨.recovering (eofPartitions.erase cursor.partition) recovered,
              completed, none⟩
        else
          let recovered := min (recovered + 1) u64Max
          let limit := W.maxRecoveryRecords
          let c : Control :=
            ⟨.recovering (eofPartitions.erase cursor.partition) recovered, completed, none⟩
          if recovered > limit then
            return .done (.error s!"retry recovery exceeded configured limit {limit}")
          else if record.deliveryId ∈ completed then
            (commitCursor cursor).tryThen fun _ => return .again c
          else W.accept c cursor record) s := by
  cases hmessage : fromMessage W.maxRecordBytes payload with
  | error reason => exact keeps_error (reason_malformed hs (by simp [malformed, hmessage]))
  | ok record =>
    simp only
    by_cases hdestination : record.destinationId = W.endpoint.id
    · have hown := own_of_fromMessage hmessage hdestination
      have hcount : min (recovered + 1) u64Max ≤
          recovered + if (W.own payload).isSome then 1 else 0 := by
        rw [hown]
        exact Nat.min_le_left _ _
      rw [if_neg (not_not.mpr hdestination)]
      split_ifs with hlimit hmem
      · have hphase : W.Recovering none _ _ s := hs.phase
        apply keeps_error
        apply Or.inr ∘ Or.inl
        apply Documented.recovery
        rw [recovery_eq_lifetime hphase.early]
        exact Nat.lt_of_lt_of_le hlimit (Nat.le_trans hcount hphase.counted)
      · apply keeps_skip hs hmessage (Or.inr hmem) _ hw rfl
        exact fun w h => ⟨InPhase.fewer h.phase hcount, h.recalls, h.few, h.aligned⟩
      · exact keeps_accept hw hs (by simp) hmessage hdestination hmem rfl
          (fun _ h => InPhase.fewer h hcount)
    · rw [if_pos hdestination]
      apply keeps_skip hs hmessage (Or.inl hdestination) _ hw rfl
      exact fun w h => ⟨InPhase.fewer h.phase (Nat.le_add_right _ _), h.recalls, h.few, h.aligned⟩

theorem keeps_recoverRetries {eofPartitions : Finset ℕ} {recovered : ℕ} (hw : W.Inv s)
    (hs : W.Idle ⟨.recovering eofPartitions recovered, completed, none⟩ s) :
    W.Keeps (W.recoverRetries completed eofPartitions recovered) s := by
  apply keeps_recoveryCheck hw (ready_recovering hs)
  intro w hw h
  apply Prog.sat_bind hw
  apply Prog.sat_mono (sat_receive h)
  intro r w hw h
  match r with
  | .changed true => exact keeps_startDelivery hw (over_of_dropped (h.2.2 rfl) h.1)
  | .changed false =>
    exact keeps_recoveryCheck hw h.1 (fun w _ h => keeps_again h.idle)
  | .message cursor payload => exact keeps_recoveredMessage hw h
  | .partitionEof partition => exact keeps_partitionEof hw h
  | .receiveError error =>
    have hphase : W.Recovering none eofPartitions recovered w := h.1.idle.phase
    apply keeps_error
    apply Or.inr ∘ Or.inl
    apply Documented.receive
    rw [recovery_eq_lifetime hphase.early]
    exact h.2

/-! ### The delivery loop -/

theorem keeps_deliveredMessage {cursor : Cursor} {payload : Payload} (hw : W.Inv s)
    (hs : W.Fetched ⟨.delivering, completed, none⟩ cursor payload s) :
    W.Keeps (match fromMessage W.maxRecordBytes payload with
      | .error e => return .done (.error e)
      | .ok record =>
        if record.destinationId ≠ W.endpoint.id ∨ record.deliveryId ∈ completed then
          (commitCursor cursor).tryThen fun _ => return .again ⟨.delivering, completed, none⟩
        else W.accept ⟨.delivering, completed, none⟩ cursor record) s := by
  cases hmessage : fromMessage W.maxRecordBytes payload with
  | error reason => exact keeps_error (reason_malformed hs (by simp [malformed, hmessage]))
  | ok record =>
    simp only
    split_ifs with hskip
    · exact keeps_skip hs hmessage hskip (fun w h => h) hw rfl
    · obtain ⟨hdestination, hfresh⟩ := not_or.mp hskip
      exact keeps_accept hw hs (by simp) hmessage (not_not.mp hdestination) hfresh rfl
        (fun _ h => h)

/-- A shutdown check of the delivery loop. -/
theorem keeps_deliveryCheck {p : Pass} (hw : W.Inv s)
    (hs : W.Idle ⟨.delivering, completed, none⟩ s)
    (hnext : ∀ w, W.Inv w → W.Ready ⟨.delivering, completed, none⟩ w → W.Keeps p w) :
    W.Keeps (borrow >>= fun value => if value then return .done (.ok ()) else p) s := by
  have hstable : ∀ value : Bool, W.contract.Stable (fun w =>
      if value then Signalled w.history else W.Ready ⟨.delivering, completed, none⟩ w) := by
    intro value
    cases value with
    | true => exact persistent_signalled.stable
    | false => exact persistent_ready.stable
  apply Prog.sat_bind hw
  apply Prog.sat_mono (sat_borrow (persistent_idle _).stable hstable hs ?_)
  · intro value w hw h
    cases value with
    | true => exact keeps_ok h
    | false => exact hnext w hw h
  · intro w hw h
    cases hvalue : w.shutdown.value with
    | true => exact signalled_of_value hw hvalue
    | false =>
      refine ⟨h, fun _ hclean => ?_⟩
      rcases h.phase hclean with ⟨htrue, _⟩ | hcaught
      · rw [hvalue] at htrue
        cases htrue
      · exact hcaught

theorem keeps_deliver (hw : W.Inv s) (hs : W.Idle ⟨.delivering, completed, none⟩ s) :
    W.Keeps (W.deliver completed) s := by
  apply keeps_deliveryCheck hw hs
  intro w hw h
  apply Prog.sat_bind hw
  apply Prog.sat_mono (sat_receive h)
  intro r w hw h
  match r with
  | .changed true => exact keeps_ok h.2.1
  | .changed false => exact keeps_deliveryCheck hw h.1.idle (fun w _ h => keeps_again h.idle)
  | .message cursor payload => exact keeps_deliveredMessage hw h
  | .partitionEof partition => exact keeps_again h.1.idle
  | .receiveError error => exact keeps_again h.1.idle

/-! ### Whole runs -/

theorem keeps_run (hw : W.Inv s) (hs : W.Point c s) : W.Keeps (W.run c) s := by
  obtain ⟨phase, completed, job⟩ := c
  cases job with
  | some job => exact keeps_process hw hs
  | none =>
    cases phase with
    | starting => exact keeps_startRecovery hw hs
    | recovering eofPartitions recovered => exact keeps_recoverRetries hw hs
    | delivering => exact keeps_deliver hw hs

theorem upholds (W : DurableWorker) : W.system.Upholds W.Inv W.Point W.Verdict where
  environment _ _ _ hw h := inv_outside hw h
  boot w hw := ⟨inv_boot hw, idle_boot W w⟩
  pass _ _ hw hs := keeps_run hw hs

/-- The nodes that the worker, its crashes and everything around it can lead to. -/
def Reachable (W : DurableWorker)
    (n : Node World Input Control (Except String Unit)) : Prop :=
  ∃ moves, W.system.run ⟨World.new, none⟩ moves = some n

variable {n : Node World Input Control (Except String Unit)}

theorem Reachable.inv (h : W.Reachable n) : W.Inv n.durable := by
  obtain ⟨moves, hrun⟩ := h
  exact System.inv_run (upholds W) (inv_new W) hrun

theorem Reachable.verdict (h : W.Reachable n) {result : Except String Unit}
    (hreturned : n.returned = some result) : W.Verdict result n.durable := by
  obtain ⟨moves, hrun⟩ := h
  have hdone := Node.process_of_returned hreturned
  exact System.leaves_run (upholds W) (inv_new W) hrun hdone

/-- A worker between two passes of a loop stands where its assertions say. -/
theorem Reachable.point (h : W.Reachable n) {c : Control}
    (hagain : n.process = some (.ret (.again c))) : W.Point c n.durable := by
  obtain ⟨moves, hrun⟩ := h
  exact System.leaves_run (upholds W) (inv_new W) hrun hagain

end DurableWorker
end KafkaEdgeRouter.Webhook
