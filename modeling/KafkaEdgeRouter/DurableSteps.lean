import KafkaEdgeRouter.DurablePoints

/-!
# The steps around the durable worker

Every step of the environment extends the world, starting a process resets the consumer, and both
keep the invariant. What survives extensions can be asserted by the worker between its accesses.
-/

namespace KafkaEdgeRouter.Webhook

/-- The event is none of the worker's doing. -/
def Event.isOutside : Event → Bool
  | .command _ _ _ | .replayed _ _ | .foreign _ _ | .signalled _ | .senderDropped => true
  | _ => false

namespace DurableWorker

variable {W : DurableWorker} {exempt : Option String} {e : Event} {w w' : World} {id : String}

theorem own_eq_some {payload : Payload} {record : DurableRecord}
    (h : W.own payload = some record) :
    fromMessage W.maxRecordBytes payload = .ok record ∧ record.destinationId = W.endpoint.id := by
  unfold own at h
  split at h
  · rename_i record' hmessage
    split_ifs at h with hdestination
    cases h
    exact ⟨hmessage, hdestination⟩
  · cases h

theorem own_of_fromMessage {payload : Payload} {record : DurableRecord}
    (hmessage : fromMessage W.maxRecordBytes payload = .ok record)
    (hdestination : record.destinationId = W.endpoint.id) : W.own payload = some record := by
  simp only [own, hmessage, hdestination, if_true]

theorem own_payload {record : DurableRecord} (hsize : record.size ≤ W.maxRecordBytes)
    (hversion : record.schemaVersion = schemaVersion)
    (hdestination : record.destinationId = W.endpoint.id) :
    W.own record.payload = some record :=
  own_of_fromMessage (fromMessage_payload hsize hversion) hdestination

/-! ### Extensions -/

/-- An event that is no outcome ends no identifier. -/
theorem ends_nothing {P : String → Prop} (h : e.terminalId = none) (id : String)
    (hid : e.terminalId = some id) : P id := by
  rw [h] at hid
  cases hid

/-- A step that writes no record and may change the shutdown channel. -/
theorem extension_event (hhistory : w'.history = w.history ++ [e])
    (hbroker : w'.broker = w.broker) (hpresent : w'.present = w.present)
    (hsubscribed : w'.subscribed = w.subscribed) (hquiet : e.quiet = true)
    (hadds : W.Adds w w' e) (hended : ∀ id, e.terminalId = some id → exempt = some id)
    (hlive : live w' = true → live w = true ∨ e.isShutdown = true)
    (hdropped : w'.shutdown.dropped = true → w.shutdown.dropped = true ∨ e = .senderDropped)
    (hvalue : Clean w'.history → w.shutdown.value = true → w'.shutdown.value = true) :
    W.Extension exempt e w w' where
  history := hhistory
  committed := by rw [hbroker]
  kept hat := by rwa [hbroker]
  records hh := by
    left
    rwa [Holds, hbroker] at hh
  event := hadds
  signals h := by
    have hne : e ≠ .started := by
      rintro rfl
      cases hquiet
    exact (hlive h).imp_left (fun h => ⟨h, hne⟩)
  dropped := hdropped
  position := by rw [hbroker]
  present := hpresent
  subscribed := hsubscribed
  value := hvalue
  quiet := hquiet
  ended := hended
  retries offset id hh := by
    left
    rwa [Holds, hbroker] at hh

theorem extension_log (hquiet : e.quiet = true) (hadds : W.Adds w (w.log e) e)
    (hended : ∀ id, e.terminalId = some id → exempt = some id) :
    W.Extension exempt e w (w.log e) :=
  extension_event rfl rfl rfl rfl hquiet hadds hended Or.inl Or.inl (fun _ h => h)

theorem Holds.of_append {key key' : Topic × ℕ} {offset : ℕ} {payload : Payload}
    (h : W.Holds ((w.append key' payload).log e) key offset id) :
    W.Holds w key offset id ∨ key = key' ∧ offset = (w.broker.log key).length ∧
      ∃ record, W.own payload = some record ∧ record.deliveryId = id := by
  obtain ⟨payload', record, hat, hown⟩ := h
  rcases Broker.at_append_cases hat with hat | ⟨hkey, hoffset, rfl⟩
  · exact Or.inl ⟨payload', record, hat, hown⟩
  · exact Or.inr ⟨hkey, hoffset, record, hown⟩

theorem holds_append (w : World) (e : Event) (key : Topic × ℕ) {payload : Payload}
    {record : DurableRecord} (hown : W.own payload = some record) :
    W.Holds ((w.append key payload).log e) key (w.broker.log key).length record.deliveryId :=
  ⟨payload, record, Broker.at_append_new w.broker key payload, hown, rfl⟩

/-- A step that writes one record. -/
theorem extension_append {topic : Topic} {partition : ℕ} {payload : Payload}
    (hquiet : e.quiet = true)
    (hadds : W.Adds w ((w.append (topic, partition) payload).log e) e)
    (hended : ∀ id, e.terminalId = some id → exempt = some id)
    (hrecord : ∀ record, W.own payload = some record →
      (topic ≠ .delivery ∧ (∃ offset, Commanded w.history record.deliveryId offset) ∧
        (Clean w.history → Cleared w.history record.deliveryId)) ∧
        exempt = some record.deliveryId ∨
      (topic = .delivery ∧ partition = W.partition ∧
        ((∃ acknowledged, e = .command record.deliveryId
            (w.broker.log (topic, partition)).length acknowledged) ∨
          W.DeadLettered w record.deliveryId))) :
    W.Extension exempt e w ((w.append (topic, partition) payload).log e) where
  history := rfl
  committed := rfl
  kept hat := hat.append _ _
  records {topic' partition' offset id} hh := by
    rcases hh.of_append with hh | ⟨hkey, hoffset, record, hown, rfl⟩
    · exact Or.inl hh
    · cases hkey
      subst hoffset
      exact Or.inr ((hrecord record hown).imp_left (fun h => h.1))
  event := hadds
  signals h := by
    have hne : e ≠ .started := by
      rintro rfl
      cases hquiet
    exact Or.inl ⟨h, hne⟩
  dropped := Or.inl
  position := rfl
  present := rfl
  subscribed := rfl
  value _ h := h
  quiet := hquiet
  ended := hended
  retries offset id hh := by
    rcases hh.of_append with hh | ⟨hkey, _, record, hown, rfl⟩
    · exact Or.inl hh
    · cases hkey
      rcases hrecord record hown with h | ⟨h, _⟩
      · exact Or.inr h.2
      · cases h

/-! ### The environment -/

theorem extension_command {record : DurableRecord} (hcommand : W.IsCommand record)
    (hfresh : w.fresh record.deliveryId = true) (acknowledged : Bool) :
    ∃ e, W.Extension none e w (W.addCommand w record acknowledged) ∧ e.isOutside = true := by
  obtain ⟨hversion, hdestination, _, _, _, _, hsize⟩ := hcommand
  have hown := own_payload hsize hversion hdestination
  refine ⟨_, extension_append rfl ⟨Nat.le_refl _, holds_append _ _ _ hown, ?_⟩
    (ends_nothing rfl) ?_, rfl⟩
  · rintro offset ⟨acknowledged', hmem⟩
    simp only [World.fresh, List.all_eq_true, decide_eq_true_eq] at hfresh
    exact hfresh _ hmem rfl
  · intro record' hown'
    rw [hown] at hown'
    cases hown'
    exact Or.inr ⟨rfl, rfl, Or.inl ⟨acknowledged, rfl⟩⟩

theorem extension_replay {offset now : ℕ} {record : DurableRecord}
    (hsource : ((w.broker.log (.deadLetter, W.partition))[offset]?).bind W.own = some record) :
    W.Extension none
      (.replayed record.deliveryId (w.broker.log (.delivery, W.partition)).length) w
      ((w.append (.delivery, W.partition) (record.replayed now).payload).log
        (.replayed record.deliveryId (w.broker.log (.delivery, W.partition)).length)) := by
  obtain ⟨payload, hat, hown⟩ := Option.bind_eq_some_iff.mp hsource
  apply extension_append
  · rfl
  · exact ⟨record.replayed now, Broker.at_append_new w.broker _ _, rfl, (own_eq_some hown).2⟩
  · intro id hid
    cases hid
  · intro record' hown'
    rw [fromMessage_payload_eq (own_eq_some hown').1]
    exact Or.inr ⟨rfl, rfl, Or.inr ⟨W.partition, offset, payload, record, hat, hown, rfl⟩⟩

/-- What a step of the environment can do. -/
theorem outside_extension {o : Outside} (h : W.outside o w = some w') :
    w' = w ∨ ∃ e, W.Extension none e w w' ∧ e.isOutside = true := by
  cases o with
  | persist record reply =>
    simp only [outside] at h
    split_ifs at h with hcommand
    cases reply with
    | done =>
      cases h
      exact Or.inr (extension_command hcommand.1 hcommand.2 true)
    | failed error applied =>
      cases applied with
      | false =>
        cases h
        exact Or.inl rfl
      | true =>
        cases h
        exact Or.inr (extension_command hcommand.1 hcommand.2 false)
  | foreign topic partition payload =>
    simp only [outside] at h
    split_ifs at h with hforeign
    cases h
    refine Or.inr ⟨_, extension_append rfl trivial (ends_nothing rfl) ?_, rfl⟩
    intro record hown
    rw [hforeign] at hown
    cases hown
  | replay offset now =>
    simp only [outside] at h
    split at h
    · rename_i record hsource
      cases h
      exact Or.inr ⟨_, extension_replay hsource, rfl⟩
    · cases h
  | signal value =>
    cases h
    refine Or.inr ⟨.signalled value, extension_event rfl rfl rfl rfl rfl trivial
      (ends_nothing rfl) ?_ Or.inl ?_, rfl⟩
    · exact fun _ => Or.inr rfl
    · intro hclean _
      cases value with
      | true => rfl
      | false => exact absurd rfl (hclean (.signalled false) (by simp [World.log])).2
  | dropSender =>
    cases h
    refine Or.inr ⟨.senderDropped, extension_event rfl rfl rfl rfl rfl trivial
      (ends_nothing rfl) ?_ ?_ ?_, rfl⟩
    · exact fun _ => Or.inr rfl
    · exact fun _ => Or.inr rfl
    · exact fun _ h => h

theorem inv_outside {o : Outside} (hw : W.Inv w) (h : W.outside o w = some w') : W.Inv w' := by
  rcases outside_extension h with rfl | ⟨e, hx, _⟩
  · exact hw
  · exact hw.growth hx.toGrowth

theorem inv_new (W : DurableWorker) : W.Inv World.new where
  bounded _ := Nat.le_refl 0
  commands h := by obtain ⟨_, hmem⟩ := h; cases hmem
  unique h := by obtain ⟨_, hmem⟩ := h; cases hmem
  increasing := History.justified_nil _
  known h := by obtain ⟨_, _, hat, _⟩ := h; cases hat
  delivered h := by obtain ⟨_, _, hat, _⟩ := h; cases hat
  dead h := by cases h
  receipts h := by cases h
  replays h := by cases h
  settled h := by obtain ⟨_, hmem⟩ := h; cases hmem
  cleared _ _ _ _ _ _ h := by obtain ⟨_, _, hat, _⟩ := h; cases hat
  ordered _ := History.justified_nil _
  accounted := History.justified_nil _
  signals h := by cases h
  dropped h := by cases h

theorem inv_boot (hw : W.Inv w) : W.Inv (boot w) := by
  have hg : Growth W .started w (boot w) := {
    history := rfl
    committed := rfl
    kept := fun hat => hat
    records := Or.inl
    event := trivial
    signals := nofun
    dropped := nofun }
  exact hw.growth hg

theorem idle_boot (W : DurableWorker) (w : World) : W.Idle ⟨.starting, ∅, none⟩ (boot w) := by
  have hlifetime : lifetime (boot w).history = [] := lifetime_started w.history
  constructor
  · constructor
    · rintro offset id hle ⟨payload, record, hat, _⟩
      exact absurd hat.lt (Nat.not_lt.mpr hle)
    · rw [hlifetime]
      exact List.not_mem_nil
  · constructor
    · exact fun id hid => absurd hid (Finset.notMem_empty id)
    · rw [hlifetime]
      rintro id ⟨e, hmem, _⟩
      cases hmem
  · exact Nat.zero_le _
  · rfl

/-! ### Assertions between accesses -/

variable (W) in
/-- The contract of the worker against everything around it. -/
def contract : Contract World := W.system.contract W.Inv

variable (W) in
/-- The assertion survives every step that leaves the consumer alone. -/
def Persistent (P : World → Prop) : Prop :=
  ∀ e w w', W.Inv w → W.Extension none e w w' → P w → P w'

theorem stable_outside {P : World → Prop}
    (h : ∀ e w w', W.Inv w → W.Extension none e w w' → e.isOutside = true → P w → P w') :
    W.contract.Stable P := by
  rintro s s' hs _ ⟨o, ho⟩ hP
  rcases outside_extension ho with rfl | ⟨e, hx, houtside⟩
  · exact hP
  · exact h e s s' hs hx houtside hP

theorem Persistent.stable {P : World → Prop} (h : W.Persistent P) : W.contract.Stable P :=
  stable_outside (fun e w w' hw hx _ => h e w w' hw hx)

theorem Persistent.and {P P' : World → Prop} (h : W.Persistent P) (h' : W.Persistent P') :
    W.Persistent (fun w => P w ∧ P' w) :=
  fun e w w' hw hx hP => ⟨h e w w' hw hx hP.1, h' e w w' hw hx hP.2⟩

theorem persistent_busy (c : Control) (job : Job) (attempted : Prop) :
    W.Persistent (W.Busy c job attempted) :=
  fun _ _ _ hw hx h => (hx.weaken _).busy hw h

theorem persistent_idle (c : Control) : W.Persistent (W.Idle c) :=
  fun _ _ _ hw hx h => hx.idle hw h

theorem persistent_lifetime (e : Event) : W.Persistent (fun w => e ∈ lifetime w.history) := by
  intro e' w w' _ hx hmem
  rw [hx.lifetime]
  exact List.mem_append_left _ hmem

theorem persistent_signalled : W.Persistent (fun w => Signalled w.history) :=
  fun _ _ _ _ hx h => hx.signalled h

theorem persistent_reason : W.Persistent W.Reason := fun _ _ _ _ hx h => hx.reason h

theorem stable_leaves (next : Next Control (Except String Unit)) :
    W.contract.Stable (System.Leaves W.Point W.Verdict next) := by
  cases next with
  | again c =>
    obtain ⟨phase, completed, job⟩ := c
    cases job with
    | none => exact (persistent_idle _).stable
    | some job => exact (persistent_busy _ job False).stable
  | done result =>
    cases result with
    | ok u => exact persistent_signalled.stable
    | error reason => exact persistent_reason.stable

end DurableWorker
end KafkaEdgeRouter.Webhook
