import KafkaEdgeRouter.SourceIngestor

/-!
# Source commits never skip a record

Commits are cumulative: applying one passes every record below its offset. The ingestor keeps to the
order of each partition and goes on only after a record has been dealt with, so whatever is below
the position of its consumer, apart from the one record it has in hand, has been dealt with; and so
has whatever a commit request covers, whenever that request is applied.
-/

namespace KafkaEdgeRouter.Ingest

open Kafka

/-- The record was dispatched and then persisted by so many sinks, one after the other. -/
def trail (cursor : Cursor) (sinks : ℕ) : List Event :=
  .dispatched cursor :: (List.range sinks).map (Event.persisted cursor)

theorem trail_succ (cursor : Cursor) (sinks : ℕ) :
    trail cursor (sinks + 1) = trail cursor sinks ++ [.persisted cursor sinks] := by
  simp only [trail, List.range_succ, List.map_append, List.map_cons, List.map_nil,
    List.cons_append]

theorem trail_isPrefix (cursor : Cursor) {sinks sinks' : ℕ} (h : sinks ≤ sinks') :
    trail cursor sinks <+: trail cursor sinks' := by
  induction h with
  | refl => exact List.prefix_refl _
  | step _ ih =>
    rw [trail_succ]
    exact ih.trans (List.prefix_append _ _)

namespace Ingestor

variable {τ ι κ : Type} (I : Ingestor τ ι κ)

/-- The record was dispatched and persisted by every sink, or it cannot be decoded and such records
are to be passed. -/
def Settled (w : World τ) (cursor : Cursor) : Prop :=
  ∃ record, w.broker.At cursor.partition cursor.offset record ∧
    ((∃ message, I.decode cursor record = .ok message ∧
      trail cursor I.preCommitSinks.length <:+: w.history) ∨
    (∃ e, I.decode cursor record = .error e) ∧ I.commitInvalidMessages = true)

/-- Committing the offset passes nothing that is not settled. -/
def Covered (w : World τ) (cursor : Cursor) : Prop :=
  ∀ offset ≤ cursor.offset, I.Settled w ⟨cursor.partition, offset⟩

/-- All that the consumer has received is settled, but for the record in hand. -/
def Consumed (w : World τ) (hand : Option Cursor) : Prop :=
  ∀ cursor : Cursor, cursor.offset < w.broker.position cursor.partition →
    some cursor ≠ hand → I.Settled w cursor

structure Inv (w : World τ) : Prop where
  committed : ∀ cursor : Cursor, cursor.offset < w.broker.committed cursor.partition →
    I.Settled w cursor
  requests : ∀ cursor ∈ w.requests, I.Covered w cursor

structure InHand (w : World τ) (cursor : Cursor) (decoded : Except DecodeError RoutedMessage) :
    Prop where
  consumed : I.Consumed w (some cursor)
  received : cursor.offset < w.broker.position cursor.partition
  decoded : ∃ record, w.broker.At cursor.partition cursor.offset record ∧
    I.decode cursor record = decoded

def Point : Control τ κ → World τ → Prop
  | .starting, w => I.Consumed w none
  | .receiving _, w => I.Consumed w none
  | .routing _ cursor message, w => I.InHand w cursor (.ok message)
  | .persisting _ cursor message _ sink _, w =>
    I.InHand w cursor (.ok message) ∧ trail cursor sink <:+ w.history
  | .committing _ cursor _ _, w => I.Consumed w none ∧ I.Covered w cursor

structure Later (w w' : World τ) : Prop where
  kept : ∀ partition offset record, w.broker.At partition offset record →
    w'.broker.At partition offset record
  history : w.history <+: w'.history

structure Undisturbed (w w' : World τ) : Prop where
  kept : ∀ partition offset record, w.broker.At partition offset record →
    w'.broker.At partition offset record
  position : w'.broker.position = w.broker.position
  history : w'.history = w.history

variable {I} {w w' : World τ} {cursor : Cursor} {message : RoutedMessage}
  {decoded : Except DecodeError RoutedMessage}

theorem Undisturbed.later (h : Undisturbed w w') : Later w w' :=
  ⟨h.kept, h.history ▸ List.prefix_refl _⟩

theorem Undisturbed.of_eq (hbroker : w'.broker = w.broker) (hhistory : w'.history = w.history) :
    Undisturbed w w' := by
  constructor
  · intro partition offset record hat
    rwa [hbroker]
  · rw [hbroker]
  · exact hhistory

theorem later_log (w : World τ) (e : Event) : Later w (w.log e) :=
  ⟨fun _ _ _ hat => hat, List.prefix_append _ _⟩

theorem Settled.later (h : I.Settled w cursor) (hl : Later w w') : I.Settled w' cursor := by
  obtain ⟨record, hat, hcase⟩ := h
  refine ⟨record, hl.kept _ _ _ hat, ?_⟩
  rcases hcase with ⟨message, hdecode, htrail⟩ | hinvalid
  · exact Or.inl ⟨message, hdecode, htrail.trans hl.history.isInfix⟩
  · exact Or.inr hinvalid

theorem Covered.later (h : I.Covered w cursor) (hl : Later w w') : I.Covered w' cursor :=
  fun offset hle => (h offset hle).later hl

theorem Consumed.later {hand : Option Cursor} (h : I.Consumed w hand) (hl : Later w w')
    (hposition : w'.broker.position = w.broker.position) : I.Consumed w' hand := by
  intro cursor hlt hne
  rw [hposition] at hlt
  exact (h cursor hlt hne).later hl

theorem InHand.later (h : I.InHand w cursor decoded) (hl : Later w w')
    (hposition : w'.broker.position = w.broker.position) : I.InHand w' cursor decoded := by
  obtain ⟨record, hat, hdecode⟩ := h.decoded
  refine ⟨h.consumed.later hl hposition, ?_, record, hl.kept _ _ _ hat, hdecode⟩
  rw [hposition]
  exact h.received

/-- Once the record in hand is settled, everything up to it may be committed. -/
theorem InHand.settled (h : I.InHand w cursor decoded) (hsettled : I.Settled w cursor) :
    I.Consumed w none ∧ I.Covered w cursor := by
  have hconsumed : I.Consumed w none := by
    intro cursor' hlt _
    by_cases heq : cursor' = cursor
    · rwa [heq]
    · exact h.consumed cursor' hlt (fun hsome => heq (Option.some.inj hsome))
  refine ⟨hconsumed, fun offset hle => hconsumed ⟨cursor.partition, offset⟩ ?_ (by simp)⟩
  exact Nat.lt_of_le_of_lt hle h.received

theorem Inv.later (h : I.Inv w) (hl : Later w w')
    (hcommitted : w'.broker.committed = w.broker.committed) (hrequests : w'.requests = w.requests) :
    I.Inv w' := by
  constructor
  · intro cursor hlt
    rw [hcommitted] at hlt
    exact (h.committed cursor hlt).later hl
  · intro cursor hmem
    rw [hrequests] at hmem
    exact (h.requests cursor hmem).later hl

theorem Point.undisturbed {c : Control τ κ} (h : I.Point c w) (hu : Undisturbed w w') :
    I.Point c w' := by
  cases c with
  | starting => exact h.later hu.later hu.position
  | receiving serial => exact h.later hu.later hu.position
  | routing serial cursor message => exact h.later hu.later hu.position
  | persisting serial cursor message before sink point =>
    refine ⟨h.1.later hu.later hu.position, ?_⟩
    rw [hu.history]
    exact h.2
  | committing serial cursor message before =>
    exact ⟨h.1.later hu.later hu.position, h.2.later hu.later⟩

/-! ### The environment -/

theorem environment_undisturbed {e : Outside} (h : I.environment e w = some w') :
    Undisturbed w w' := by
  cases e with
  | produce partition record =>
    cases h
    exact ⟨fun _ _ _ hat => hat.append partition record, rfl, rfl⟩
  | commitApplied cursor =>
    simp only [environment] at h
    split_ifs at h
    cases h
    exact ⟨fun _ _ _ hat => hat, rfl, rfl⟩
  | commitLost cursor =>
    cases h
    exact .of_eq rfl rfl
  | call move =>
    simp only [environment] at h
    split_ifs at h
    obtain ⟨P, _, rfl⟩ := Option.map_eq_some_iff.mp h
    exact .of_eq rfl rfl
  | signal value =>
    cases h
    exact .of_eq rfl rfl
  | dropSender =>
    cases h
    exact .of_eq rfl rfl

theorem inv_environment {e : Outside} (hw : I.Inv w) (h : I.environment e w = some w') :
    I.Inv w' := by
  have hlater := (environment_undisturbed h).later
  cases e with
  | produce partition record =>
    cases h
    exact hw.later hlater rfl rfl
  | commitApplied cursor =>
    simp only [environment] at h
    split_ifs at h with hmem
    cases h
    constructor
    · intro cursor' hlt
      by_cases hpartition : cursor'.partition = cursor.partition
      · simp only [Broker.commit, hpartition, Function.update_self] at hlt
        have hsettled := hw.requests cursor hmem cursor'.offset (Nat.le_of_lt_succ hlt)
        rw [← hpartition] at hsettled
        exact hsettled.later hlater
      · simp only [Broker.commit, Function.update_of_ne hpartition] at hlt
        exact (hw.committed cursor' hlt).later hlater
    · intro cursor' hmem'
      exact (hw.requests cursor' (List.mem_of_mem_erase hmem')).later hlater
  | commitLost cursor =>
    cases h
    exact ⟨fun cursor' hlt => (hw.committed cursor' hlt).later hlater,
      fun cursor' hmem => (hw.requests cursor' (List.mem_of_mem_erase hmem)).later hlater⟩
  | call move =>
    simp only [environment] at h
    split_ifs at h
    obtain ⟨P, _, rfl⟩ := Option.map_eq_some_iff.mp h
    exact hw.later hlater rfl rfl
  | signal value =>
    cases h
    exact hw.later hlater rfl rfl
  | dropSender =>
    cases h
    exact hw.later hlater rfl rfl

theorem inv_boot (hw : I.Inv w) : I.Inv (I.boot w) ∧ I.Point .starting (I.boot w) := by
  have hlater : Later w (I.boot w) := ⟨fun _ _ _ hat => hat, List.prefix_refl _⟩
  refine ⟨hw.later hlater rfl rfl, ?_⟩
  intro cursor hlt _
  exact (hw.committed cursor hlt).later hlater

/-! ### The passes -/

variable (I) in
abbrev contract : Contract (World τ) := I.system.contract I.Inv

variable (I) in
/-- A pass from here keeps the invariant and leads to a point of the loop. -/
abbrev Keeps (p : IngestProg τ ι (Outcome τ κ)) (w : World τ) : Prop :=
  p.Sat I.contract (System.Leaves I.Point (fun _ _ => True)) w

theorem stable_of_undisturbed {P : World τ → Prop}
    (hP : ∀ w w', P w → Undisturbed w w' → P w') : I.contract.Stable P := by
  rintro w w' _ _ ⟨e, he⟩ h
  exact hP w w' h (environment_undisturbed he)

theorem stable_point (c : Control τ κ) : I.contract.Stable (I.Point c) :=
  stable_of_undisturbed (fun _ _ h hu => h.undisturbed hu)

theorem keeps_done (result : Except String Unit) : I.Keeps (.ret (.done result)) w :=
  fun _ _ _ => trivial

theorem keeps_again {c : Control τ κ} (h : I.Point c w) : I.Keeps (.ret (.again c)) w :=
  Prog.sat_ret (stable_point c) h

theorem sat_host {c : Control τ κ} (h : I.Point c w) {α : Type} (p : Prog (Host τ) ι α) :
    (p.zoom World.hostView Input.host).Sat I.contract (fun _ => I.Point c) w := by
  refine Prog.sat_frame (stable_point c) ?_ p h
  intro w host hinv h
  have hu : Undisturbed w (World.hostView.set host w) := .of_eq rfl rfl
  exact ⟨hinv.later hu.later rfl rfl, trivial, h.undisturbed hu⟩

theorem sat_router {c : Control τ κ} (h : I.Point c w) {α : Type} (p : RouterProg α) :
    (p.zoom World.routerView (fun i : Input ι => I.draw i.host)).Sat I.contract
      (fun _ => I.Point c) w := by
  refine Prog.sat_frame (stable_point c) ?_ p h
  intro w router hinv h
  have hu : Undisturbed w (World.routerView.set router w) := .of_eq rfl rfl
  exact ⟨hinv.later hu.later rfl rfl, trivial, h.undisturbed hu⟩

theorem sat_borrow {c : Control τ κ} (h : I.Point c w)
    {k : Bool → IngestProg τ ι (Outcome τ κ)}
    (hk : ∀ value w', I.Inv w' → I.Point c w' → I.Keeps (k value) w') :
    I.Keeps (borrow >>= k) w :=
  Prog.sat_access (stable_point c) h (fun w' hinv h' => ⟨hinv, trivial, hk _ w' hinv h'⟩)

theorem sat_log {P : World τ → Prop} (hP : ∀ w w', P w → Undisturbed w w' → P w') (e : Event)
    (h : P w) {k : IngestProg τ ι (Outcome τ κ)}
    (hk : ∀ w', I.Inv (w'.log e) → P w' → I.Keeps k (w'.log e)) :
    I.Keeps (Prog.modify (fun w => w.log e) >>= fun _ => k) w := by
  refine Prog.sat_access (stable_of_undisturbed hP) h (fun w' hinv h' => ?_)
  have hinv' : I.Inv (w'.log e) := hinv.later (later_log w' e) rfl rfl
  exact ⟨hinv', trivial, hk w' hinv' h'⟩

theorem keeps_commit (serial : ℕ) (h : I.Consumed w none ∧ I.Covered w cursor) :
    I.Keeps (commit serial cursor) w := by
  have hstable : I.contract.Stable (fun w => I.Consumed w none ∧ I.Covered w cursor) :=
    stable_of_undisturbed
      (fun _ _ h hu => ⟨h.1.later hu.later hu.position, h.2.later hu.later⟩)
  refine Prog.sat_await hstable h (fun i w' hinv h' _ => ?_)
  have hrequested : I.Inv { w' with requests := w'.requests ++ [cursor] } ∧
      I.Point (.receiving serial) { w' with requests := w'.requests ++ [cursor] } := by
    refine ⟨⟨hinv.committed, fun cursor' hmem => ?_⟩, h'.1⟩
    rcases List.mem_append.mp hmem with hmem | hmem
    · exact hinv.requests cursor' hmem
    · rw [List.mem_singleton.mp hmem]
      exact h'.2
  cases i.reply with
  | done => exact ⟨hrequested.1, trivial, keeps_again hrequested.2⟩
  | failed error applied =>
    cases applied with
    | true => exact ⟨hrequested.1, trivial, keeps_again hrequested.2⟩
    | false => exact ⟨hinv, trivial, keeps_again h'.1⟩

theorem keeps_start (hw : I.Inv w) (h : I.Point .starting w) : I.Keeps I.start w := by
  refine Prog.sat_bind hw (Prog.sat_mono (sat_host h I.build) ?_)
  intro result w' _ h'
  cases result with
  | error e => exact keeps_done _
  | ok serial =>
    refine Prog.sat_access (stable_point .starting) h' (fun w'' hinv h'' => ?_)
    have hu : Undisturbed w'' { w'' with serving := true } := .of_eq rfl rfl
    exact ⟨hinv.later hu.later rfl rfl, trivial,
      keeps_again (c := .receiving serial) (h''.undisturbed hu)⟩

/-- The record at the position of its partition is taken in hand. -/
theorem consumed_receive {partition : Partition} (h : I.Consumed w none) :
    I.Consumed { w with broker := w.broker.receive partition }
      (some ⟨partition, w.broker.position partition⟩) := by
  have hlater : Later w { w with broker := w.broker.receive partition } :=
    ⟨fun _ _ _ hat => hat, List.prefix_refl _⟩
  intro cursor hlt hne
  refine (h cursor ?_ (by simp)).later hlater
  by_cases hpartition : cursor.partition = partition
  · have hoffset : cursor.offset ≠ w.broker.position partition := by
      intro hoffset
      apply hne
      rw [← hoffset, ← hpartition]
    simp only [Broker.receive, hpartition, Function.update_self] at hlt ⊢
    omega
  · simpa only [Broker.receive, Function.update_of_ne hpartition] using hlt

theorem keeps_record (serial : ℕ) {record : SourceRecord}
    (h : I.InHand w cursor (I.decode cursor record)) :
    I.Keeps (match I.decode cursor record with
      | .ok message => return .again (.routing serial cursor message)
      | .error e => do
        Prog.modify (fun w => w.log (.invalid cursor e))
        if I.commitInvalidMessages then do
          commitMessage cursor
          return .again (.receiving serial)
        else return .done (.ok ())) w := by
  cases hdecode : I.decode cursor record with
  | ok message =>
    rw [hdecode] at h
    exact keeps_again (c := .routing serial cursor message) h
  | error e =>
    rw [hdecode] at h
    have hkept : ∀ w w', I.InHand w cursor (.error e) → Undisturbed w w' →
        I.InHand w' cursor (.error e) := fun _ _ h hu => h.later hu.later hu.position
    refine sat_log hkept (.invalid cursor e) h ?_
    intro w' _ h'
    have hhand := h'.later (later_log w' (.invalid cursor e)) rfl
    split_ifs with hinvalid
    · obtain ⟨record', hat, hdecode'⟩ := hhand.decoded
      exact keeps_commit serial
        (hhand.settled ⟨record', hat, Or.inr ⟨⟨e, hdecode'⟩, hinvalid⟩⟩)
    · exact keeps_done _

theorem keeps_receiveRecord (serial : ℕ) (h : I.Point (.receiving serial) w) :
    I.Keeps (I.receiveRecord serial) w := by
  refine sat_borrow h (fun value w₁ _ h₁ => ?_)
  cases value with
  | true => exact keeps_done _
  | false =>
    refine Prog.sat_await (stable_point (.receiving serial)) h₁ (fun i w₂ hinv₂ h₂ he => ?_)
    rcases i with ⟨_ | partition | error, reply, host⟩
    · have hu : Undisturbed w₂ { w₂ with shutdown := w₂.shutdown.changed.2 } := .of_eq rfl rfl
      refine ⟨hinv₂.later hu.later rfl rfl, trivial, ?_⟩
      simp only [received]
      cases w₂.shutdown.changed.1 with
      | true => exact keeps_done _
      | false =>
        refine sat_borrow (c := .receiving serial) (h₂.undisturbed hu) (fun value w₃ _ h₃ => ?_)
        cases value with
        | true => exact keeps_done _
        | false => exact keeps_again h₃
    · simp only [received]
      cases hrecord : (w₂.broker.log partition)[w₂.broker.position partition]? with
      | none => exact ⟨hinv₂, trivial, keeps_again h₂⟩
      | some record =>
        have hlater : Later w₂ { w₂ with broker := w₂.broker.receive partition } :=
          ⟨fun _ _ _ hat => hat, List.prefix_refl _⟩
        refine ⟨hinv₂.later hlater rfl rfl, trivial, keeps_record serial ?_⟩
        refine ⟨consumed_receive h₂, ?_, record, hrecord, rfl⟩
        simp only [Broker.receive, Function.update_self]
        omega
    · exact ⟨hinv₂, trivial, keeps_again h₂⟩

/-- The next point after so many sinks. -/
theorem point_nextSink (serial : ℕ) (before : τ) {sink : ℕ} (h : I.InHand w cursor (.ok message))
    (htrail : trail cursor sink <:+ w.history) :
    I.Point (I.nextSink serial cursor message before sink) w := by
  unfold nextSink
  cases hsink : I.preCommitSinks[sink]? with
  | some s => exact ⟨h, htrail⟩
  | none =>
    obtain ⟨record, hat, hdecode⟩ := h.decoded
    have hlength : I.preCommitSinks.length ≤ sink := List.getElem?_eq_none_iff.mp hsink
    have hall : trail cursor I.preCommitSinks.length <:+: w.history :=
      (trail_isPrefix cursor hlength).isInfix.trans htrail.isInfix
    exact h.settled ⟨record, hat, Or.inl ⟨message, hdecode, hall⟩⟩

theorem keeps_route (serial : ℕ) (hw : I.Inv w) (h : I.Point (.routing serial cursor message) w) :
    I.Keeps (I.route serial cursor message) w := by
  refine Prog.sat_bind hw (Prog.sat_mono (sat_router h _) ?_)
  intro response w₁ _ h₁
  cases response with
  | dispatched report =>
    cases report with
    | error text => exact keeps_done _
    | ok report =>
      refine Prog.sat_access (stable_point (.routing serial cursor message)) h₁
        (fun w₂ hinv₂ h₂ => ?_)
      have hlater := later_log w₂ (.dispatched cursor)
      exact ⟨hinv₂.later hlater rfl rfl, trivial,
        keeps_again (point_nextSink (serial + 1) _ (h₂.later hlater rfl) (List.suffix_append _ _))⟩
  | _ => exact keeps_done _

theorem keeps_persist (serial : ℕ) (before : τ) (sink : ℕ) (point : κ) (hw : I.Inv w)
    (h : I.Point (.persisting serial cursor message before sink point) w) :
    I.Keeps (I.persist serial cursor message before sink point) w := by
  unfold persist
  cases hsink : I.preCommitSinks[sink]? with
  | none =>
    have hnext := point_nextSink serial before h.1 h.2
    rw [nextSink, hsink] at hnext
    exact keeps_again hnext
  | some s =>
    refine Prog.sat_bind hw (Prog.sat_mono (sat_host h (s.pass point)) ?_)
    intro result w₁ _ h₁
    cases result with
    | again point' => exact keeps_again h₁
    | done result =>
      cases result with
      | error reason =>
        exact sat_log (fun _ _ h hu => Point.undisturbed h hu) _ h₁ (fun _ _ _ => keeps_done _)
      | ok _ =>
        refine sat_log (fun _ _ h hu => Point.undisturbed h hu) _ h₁ (fun w₂ _ h₂ => ?_)
        have hlater := later_log w₂ (.persisted cursor sink)
        refine keeps_again (point_nextSink serial before (h₂.1.later hlater rfl) ?_)
        rw [trail_succ]
        obtain ⟨earlier, hhistory⟩ := h₂.2
        refine ⟨earlier, ?_⟩
        rw [← List.append_assoc, hhistory]
        rfl

theorem upholds (I : Ingestor τ ι κ) : I.system.Upholds I.Inv I.Point (fun _ _ => True) where
  environment _ _ _ hw h := inv_environment hw h
  boot _ hw := inv_boot hw
  pass c w hw h := by
    cases c with
    | starting => exact keeps_start hw h
    | receiving serial => exact keeps_receiveRecord serial h
    | routing serial cursor message => exact keeps_route serial hw h
    | persisting serial cursor message before sink point =>
      exact keeps_persist serial before sink point hw h
    | committing serial cursor message before => exact keeps_commit serial h

theorem inv_new (outside : τ) : I.Inv (World.new outside) :=
  ⟨fun _ hlt => absurd hlt (Nat.not_lt_zero _), fun _ hmem => absurd hmem List.not_mem_nil⟩

/-- Every record below a committed offset was dispatched and then persisted by every sink, or it
cannot be decoded and the ingestor is configured to pass such records. -/
theorem commits_skip_nothing {n : Node (World τ) (Input ι) (Control τ κ) (Except String Unit)}
    (h : I.Reachable n) (partition : Partition) {offset : ℕ}
    (hlt : offset < n.durable.broker.committed partition) :
    ∃ record, n.durable.broker.At partition offset record ∧
      ((∃ message, I.decode ⟨partition, offset⟩ record = .ok message ∧
        trail ⟨partition, offset⟩ I.preCommitSinks.length <:+: n.durable.history) ∨
      (∃ e, I.decode ⟨partition, offset⟩ record = .error e) ∧ I.commitInvalidMessages = true) := by
  obtain ⟨outside, moves, hrun⟩ := h
  have hinv : I.Inv n.durable := System.inv_run (upholds I) (inv_new outside) hrun
  exact hinv.committed ⟨partition, offset⟩ hlt

end Ingestor

/-! ### A run with one record -/

def eventsRecord : SourceRecord where
  headers := some [⟨"x-tenant-id", some (.text "acme")⟩]
  payload := some [1, 2]
  timestampMs := none

/-- One sink, which accepts everything. -/
def eventsIngestor : Ingestor Unit ConnectionId Unit where
  router := {}
  maxPayloadBytes := 1024
  commitInvalidMessages := false
  preCommitSinks := [⟨fun _ => (), fun _ => .ret (.done (.ok ()))⟩]
  build := .ret (.ok 0)
  owned _ := []
  durable := id
  draw := id
  order _ := .listed

/-- The record is received, dispatched, persisted and committed. -/
def eventsMoves : List (NodeMove Outside (Input ConnectionId)) :=
  let step : NodeMove Outside (Input ConnectionId) := .act ⟨.record ("events", 0), .done, ⟨0⟩⟩
  [.environment (.produce ("events", 0) eventsRecord), .start, step, .again, step, step, .again,
    step, step, step, step, step, step, .again, step, .again, step,
    .environment (.commitApplied ⟨("events", 0), 0⟩)]

def eventsNode : Node (World Unit) (Input ConnectionId) (Control Unit Unit) (Except String Unit) :=
  eventsIngestor.system.final ⟨.new (), none⟩ eventsMoves

theorem Ingestor.commits_skip_nothing_events :
    eventsNode.durable.broker.committed ("events", 0) = 1 ∧
      ∃ record, eventsNode.durable.broker.At ("events", 0) 0 record ∧
        ((∃ message, eventsIngestor.decode ⟨("events", 0), 0⟩ record = .ok message ∧
          trail ⟨("events", 0), 0⟩ 1 <:+: eventsNode.durable.history) ∨
        (∃ e, eventsIngestor.decode ⟨("events", 0), 0⟩ record = .error e) ∧ false = true) := by
  have hreached : (eventsIngestor.system.run ⟨.new (), none⟩ eventsMoves).isSome = true := by
    decide +kernel
  obtain ⟨n, hrun⟩ := Option.isSome_iff_exists.mp hreached
  have hnode : eventsNode = n := by
    rw [eventsNode, System.final, hrun, Option.getD_some]
  have hcommitted : eventsNode.durable.broker.committed ("events", 0) = 1 := by decide +kernel
  have hreachable : eventsIngestor.Reachable eventsNode := by
    rw [hnode]
    exact ⟨(), eventsMoves, hrun⟩
  refine ⟨hcommitted, commits_skip_nothing hreachable ("events", 0) ?_⟩
  rw [hcommitted]
  exact Nat.one_pos

end KafkaEdgeRouter.Ingest
