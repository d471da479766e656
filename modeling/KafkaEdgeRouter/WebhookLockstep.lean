import KafkaEdgeRouter.SinkDeliveries

/-!
# Dispatch and persist stay in lock-step

The daemon with the durable sink, in any run. Before a record is dispatched, every destination has a
registered connection and an empty queue. While it is persisted, whatever queue the sink turns to
has the delivery it waits for, so a sink that refuses a record has failed to publish a command. Once
it is persisted, there is one command for every destination whose filter matches the message, and no
other. Meanwhile the transports do with other connections whatever they like.
-/

namespace KafkaEdgeRouter.Webhook

open Router
open Ingest (Host Foreign Ingestor IngestProg Outcome)

namespace WebhookRuntime

variable (R : WebhookRuntime)

/-- The connections that transports have to leave alone. -/
def issued (w : Ingest.World DurableWebhookSink) : List ConnectionId :=
  if w.serving then w.host.outside.connectionIds else []

structure Inv (w : Ingest.World DurableWebhookSink) : Prop where
  calls : (protocol R.router (reaches (issued w)) (· ∈ issued w)).Holds (fun k => 2 * k + 1)
    (fun _ (_ : Response) _ => True) ⟨w.host.router, w.calls⟩
  quiet : w.serving = false → w.calls = []
  refused : ∀ cursor reason, .refused cursor reason ∈ w.history → R.Unpublished reason

/-- The runtime is serving, and its stations are as `P` says. -/
def Serving (P : List Station → Host DurableWebhookSink → Prop)
    (w : Ingest.World DurableWebhookSink) : Prop :=
  w.serving = true ∧ ∃ stations, P stations w.host

def Idle (serial : ℕ) (stations : List Station) (host : Host DurableWebhookSink) : Prop :=
  Manned R stations (fun st => Stationed st []) serial host

def Point : Ingest.Control DurableWebhookSink PersistPoint → Ingest.World DurableWebhookSink → Prop
  | .starting, w => w.serving = false ∧ w.host.router = .new ∧ w.host.outside.routes = ∅ ∧
    w.host.outside.connectionIds = []
  | .receiving serial, w => Serving (R.Idle serial) w
  | .routing serial _ _, w => Serving (R.Idle serial) w
  | .persisting serial _ message before sink point, w => sink = 0 ∧
    Serving (fun stations => R.Persisting stations serial message before.commands point) w
  | .committing serial _ message before, w => Serving (fun stations host =>
      R.Idle serial stations host ∧ R.Published message (host.outside.destinations message)
        before.commands host.outside.commands) w

variable {R} {w w' : Ingest.World DurableWebhookSink}

/-! ### The environment -/

/-- What the environment may do to the host. -/
structure Disturbed (w w' : Ingest.World DurableWebhookSink) : Prop where
  serving : w'.serving = w.serving
  outside : w'.host.outside = w.host.outside
  router : w'.host.router = w.host.router ∨ w.serving = true ∧
    ∃ k, Guarantee (reaches (issued w)) (2 * k + 1) w.host.router w'.host.router

theorem Disturbed.issued (h : Disturbed w w') : issued w' = issued w := by
  rw [WebhookRuntime.issued, h.serving, h.outside, WebhookRuntime.issued]

theorem Disturbed.of_host (hserving : w'.serving = w.serving) (hhost : w'.host = w.host) :
    Disturbed w w' :=
  ⟨hserving, by rw [hhost], Or.inl (by rw [hhost])⟩

theorem Inv.of_host (h : R.Inv w) (hserving : w'.serving = w.serving) (hhost : w'.host = w.host)
    (hcalls : w'.calls = w.calls)
    (hrefused : ∀ cursor reason, .refused cursor reason ∈ w'.history → R.Unpublished reason) :
    R.Inv w' := by
  refine ⟨?_, fun hfalse => ?_, hrefused⟩
  · rw [(Disturbed.of_host hserving hhost).issued, hhost, hcalls]
    exact h.calls
  · rw [hcalls]
    exact h.quiet (hserving ▸ hfalse)

/-- A transport keeps the protocol. -/
theorem sat_client {ids : List ConnectionId} {task : HashOrder × Request}
    (hforeign : Foreign ids task.2 = true) (k : ℕ) {s : Shared}
    (hfresh : (protocol R.router (reaches ids) (· ∈ ids)).fresh (2 * k + 1) s) :
    (thread R.router (2 * k + 1) task).Sat
      ((protocol R.router (reaches ids) (· ∈ ids)).contract (2 * k + 1)) (fun _ _ => True) s := by
  refine sat_serve ?_ (ready_of_fresh hfresh)
  obtain ⟨order, request⟩ := task
  cases request with
  | register tenantId protocol queueCapacity => exact fun id hid => Or.inr hid
  | dispatch message => cases hforeign
  | _ => exact Or.inr (of_decide_eq_true hforeign)

theorem environment_call {move : Move (HashOrder × Request) ConnectionId} (hw : R.Inv w)
    (h : R.ingestor.environment (.call move) w = some w') :
    Disturbed w w' ∧ R.Inv w' := by
  simp only [Ingestor.environment] at h
  split_ifs at h with hallowed
  obtain ⟨P, hmove, rfl⟩ := Option.map_eq_some_iff.mp h
  have hserving : w.serving = true := by
    by_contra hfalse
    have hcalls := hw.quiet (Bool.not_eq_true _ ▸ hfalse)
    cases move with
    | spawn task => exact hfalse (Bool.and_eq_true_iff.mp hallowed).1
    | act t i =>
      simp only [Pool.move, hcalls, List.getElem?_nil] at hmove
      cases hmove
  have hissued : issued w = w.host.outside.connectionIds := if_pos hserving
  have hquiet : w.serving = false → P.threads = [] := fun hfalse => by
    rw [hserving] at hfalse
    cases hfalse
  rcases Pool.move_cases _ hmove with
    ⟨task, rfl, rfl⟩ | ⟨t, i, e, u, k, rfl, hthread, he, rfl⟩
  · refine ⟨.of_host rfl rfl, ?_, hquiet, hw.refused⟩
    exact Protocol.Holds.spawn (τ := { task : HashOrder × Request //
        Foreign (issued w) task.2 = true }) (fun k task s _ hfresh => sat_client task.2 k hfresh)
      hw.calls ⟨task, hissued ▸ (Bool.and_eq_true_iff.mp hallowed).2⟩
  · obtain ⟨hguar, hholds⟩ := hw.calls.act (fun k k' hk => by omega) stable_fresh hthread he
    exact ⟨⟨rfl, rfl, Or.inr ⟨hserving, t, hguar⟩⟩, hholds, hquiet, hw.refused⟩

theorem environment_disturbed {e : Ingest.Outside} (hw : R.Inv w)
    (h : R.ingestor.environment e w = some w') :
    Disturbed w w' ∧ R.Inv w' := by
  have hother : w'.serving = w.serving → w'.host = w.host → w'.calls = w.calls →
      w'.history = w.history → Disturbed w w' ∧ R.Inv w' := fun hserving hhost hcalls hhistory =>
    ⟨.of_host hserving hhost, hw.of_host hserving hhost hcalls (hhistory ▸ hw.refused)⟩
  cases e with
  | call move => exact environment_call hw h
  | commitApplied cursor =>
    simp only [Ingestor.environment] at h
    split_ifs at h
    cases h
    exact hother rfl rfl rfl rfl
  | _ =>
    cases h
    exact hother rfl rfl rfl rfl

/-! ### Passes on the host -/

variable (R) in
abbrev contract : Contract (Ingest.World DurableWebhookSink) :=
  R.ingestor.system.contract R.Inv

theorem stable_of_disturbed {P : Ingest.World DurableWebhookSink → Prop}
    (hP : ∀ w w', R.Inv w → R.Inv w' → P w → Disturbed w w' → P w') :
    R.contract.Stable P := by
  rintro w w' hw hw' ⟨e, he⟩ h
  exact hP w w' hw hw' h (environment_disturbed hw he).1

theorem Disturbed.rely (h : Disturbed w w') (hw : R.Inv w) (hw' : R.Inv w') :
    (R.hostContract (WebhookRuntime.issued w) w.serving).rely w.host w'.host := by
  have hinv := hw.calls.inv
  have hinv' := hw'.calls.inv
  rw [h.issued] at hinv'
  rcases h.router with hrouter | ⟨hserving, hguar⟩
  · have hhost : w'.host = w.host := by
      have houtside := h.outside
      cases hw' : w'.host
      cases hw : w.host
      simp_all
    rw [hhost]
    exact Contract.rely_refl _ _
  · exact Relation.ReflTransGen.single ⟨hinv, hinv', hserving, h.outside, hguar⟩

/-- The assertion is about the stations that the sink knows. -/
def Arranges (P : List Station → Host DurableWebhookSink → Prop) : Prop :=
  ∀ stations host, P stations host → Arranged host.outside stations

theorem Serving.issued {P : List Station → Host DurableWebhookSink → Prop} (h : Serving P w)
    (hP : Arranges P) :
    ∃ stations, WebhookRuntime.issued w = stations.map Station.connection ∧ P stations w.host := by
  obtain ⟨hserving, stations, hstations⟩ := h
  refine ⟨stations, ?_, hstations⟩
  rw [WebhookRuntime.issued, if_pos hserving, (hP stations _ hstations).connections]

theorem stable_serving {P : List Station → Host DurableWebhookSink → Prop} (hP : Arranges P)
    (hstable : ∀ stations, (R.hostContract (stations.map Station.connection) true).Stable
      (P stations)) :
    R.contract.Stable (Serving P) := by
  refine stable_of_disturbed (fun w w' hw hw' h hd => ?_)
  obtain ⟨stations, hissued, hstations⟩ := h.issued hP
  have hrely := hd.rely hw hw'
  rw [hissued, h.1] at hrely
  exact ⟨hd.serving.trans h.1, stations, (hstable stations).rely hrely hstations⟩

/-- A step of the runtime on the host. -/
theorem Inv.step (hw : R.Inv w) {host : Host DurableWebhookSink}
    (hrouter : Router.Inv R.router (· ∈ issued w) host.router)
    (hg : (R.hostContract (issued w) w.serving).guarantee w.host host) :
    R.Inv { w with host } ∧ issued { w with host } = issued w := by
  obtain ⟨⟨m, hg⟩, hids⟩ := hg
  have hissued : issued { w with host } = issued w := by
    unfold issued
    cases hserving : w.serving with
    | false => rfl
    | true => exact hids hserving
  refine ⟨⟨?_, hw.quiet, hw.refused⟩, hissued⟩
  rw [hissued]
  exact hw.calls.outside stable_fresh (fun k => by omega) hrouter hg

/-- What runs on the host under the contract of the runtime keeps the invariant of the daemon. -/
theorem sat_hostView {α : Type} {p : SinkProg α} {Q : α → Host DurableWebhookSink → Prop}
    (h : p.Sat (R.hostContract (issued w) w.serving) Q w.host) :
    (p.zoom Ingest.World.hostView Ingest.Input.host).Sat R.contract
      (fun a w' => (w'.serving = w.serving ∧ issued w' = issued w) ∧ Q a w'.host) w := by
  refine Prog.sat_zoom (V := Ingest.World.hostView)
    (P := fun w' : Ingest.World DurableWebhookSink =>
      w'.serving = w.serving ∧ issued w' = issued w) ?_ ?_ ?_ ?_ ⟨rfl, rfl⟩ h
  · refine stable_of_disturbed (fun w₁ w₂ _ _ hw₁ hd => ?_)
    exact ⟨hd.serving.trans hw₁.1, hd.issued.trans hw₁.2⟩
  · intro w₁ hinv₁ hw₁
    have hrouter := hinv₁.calls.inv
    rw [hw₁.2] at hrouter
    exact hrouter
  · rintro w₁ w₂ hinv₁ hinv₂ hw₁ ⟨e, he⟩
    have hrely := (environment_disturbed hinv₁ he).1.rely hinv₁ hinv₂
    rwa [hw₁.1, hw₁.2] at hrely
  · intro w₁ host hinv₁ hw₁ hrouter hg
    rw [← hw₁.2] at hrouter
    rw [← hw₁.2, ← hw₁.1] at hg
    obtain ⟨hinv₂, hissued⟩ := hinv₁.step hrouter hg
    exact ⟨hinv₂, trivial, hw₁.1, hissued.trans hw₁.2⟩

/-- A program on the host that leaves the stations as `Q` says. -/
theorem sat_serving {α : Type} {p : SinkProg α}
    {P : List Station → Host DurableWebhookSink → Prop}
    {Q : α → List Station → Host DurableWebhookSink → Prop} (h : Serving P w) (hP : Arranges P)
    (hp : ∀ stations host, P stations host →
      p.Sat (R.hostContract (stations.map Station.connection) true)
        (fun a host' => Q a stations host') host) :
    (p.zoom Ingest.World.hostView Ingest.Input.host).Sat R.contract
      (fun a w' => Serving (Q a) w') w := by
  obtain ⟨stations, hissued, hstations⟩ := h.issued hP
  have hsat := hp stations w.host hstations
  rw [← hissued, ← h.1] at hsat
  refine Prog.sat_mono (sat_hostView hsat) ?_
  rintro a w' _ ⟨⟨hserving, _⟩, hpost⟩
  exact ⟨hserving.trans h.1, stations, hpost⟩

/-! ### The points of the loop -/

theorem arranges_idle (serial : ℕ) : Arranges (R.Idle serial) :=
  fun _ _ h => h.arranged

theorem arranges_persisting (serial : ℕ) (message : RoutedMessage) (earlier : List DurableRecord)
    (point : PersistPoint) :
    Arranges (fun stations => R.Persisting stations serial message earlier point) := by
  intro stations host h
  obtain ⟨P, hmanned⟩ := h.manned
  exact hmanned.arranged

theorem stable_idle (serial : ℕ) (stations : List Station) :
    (R.hostContract (stations.map Station.connection) true).Stable (R.Idle serial stations) :=
  stable_manned (fun _ _ _ => Stationed.same)

theorem stable_point (c : Ingest.Control DurableWebhookSink PersistPoint) :
    R.contract.Stable (R.Point c) := by
  cases c with
  | starting =>
    refine stable_of_disturbed (fun w w' _ _ h hd => ?_)
    obtain ⟨hserving, hrouter, houtside⟩ := h
    refine ⟨hd.serving.trans hserving, ?_, hd.outside ▸ houtside⟩
    rcases hd.router with hsame | ⟨htrue, _⟩
    · exact hsame.trans hrouter
    · rw [hserving] at htrue
      cases htrue
  | receiving serial => exact stable_serving (arranges_idle serial) (stable_idle serial)
  | routing serial cursor message =>
    exact stable_serving (arranges_idle serial) (stable_idle serial)
  | persisting serial cursor message before sink point =>
    intro w w' hw hw' hd h
    exact ⟨h.1, stable_serving (arranges_persisting _ _ _ _) (fun _ => stable_persisting point)
      w w' hw hw' hd h.2⟩
  | committing serial cursor message before =>
    have harranges : Arranges (fun stations host => R.Idle serial stations host ∧
        R.Published message (host.outside.destinations message) before.commands
          host.outside.commands) := fun stations host h => h.1.arranged
    refine stable_serving harranges (fun stations => ?_)
    intro host host' hi hi' hd h
    exact ⟨stable_idle serial stations host host' hi hi' hd h.1, hd.2.1 ▸ h.2⟩

theorem Point.of_host {c : Ingest.Control DurableWebhookSink PersistPoint} (h : R.Point c w)
    (hserving : w'.serving = w.serving) (hhost : w'.host = w.host) : R.Point c w' := by
  cases c <;> simpa only [Point, Serving, hserving, hhost] using h

variable (R) in
abbrev Keeps (p : IngestProg DurableWebhookSink SinkInput (Outcome DurableWebhookSink PersistPoint))
    (w : Ingest.World DurableWebhookSink) : Prop :=
  p.Sat R.contract
    (System.Leaves R.Point (fun _ _ => True)) w

theorem keeps_done (result : Except String Unit) :
    R.Keeps (.ret (.done result)) w :=
  fun _ _ _ => trivial

theorem keeps_again {c : Ingest.Control DurableWebhookSink PersistPoint} (h : R.Point c w) :
    R.Keeps (.ret (.again c)) w :=
  Prog.sat_ret (stable_point c) h

/-- The access leaves the host and the calls alone, and no sink refuses anything. -/
structure Aside (w w' : Ingest.World DurableWebhookSink) : Prop where
  serving : w'.serving = w.serving
  host : w'.host = w.host
  calls : w'.calls = w.calls
  history : ∀ cursor reason, .refused cursor reason ∈ w'.history →
    .refused cursor reason ∈ w.history

theorem Aside.log {e : Ingest.Event} (he : ∀ cursor reason, e ≠ .refused cursor reason) :
    Aside w (w.log e) := by
  refine ⟨rfl, rfl, rfl, fun cursor reason hmem => ?_⟩
  rcases List.mem_append.mp hmem with hmem | hmem
  · exact hmem
  · exact absurd (List.mem_singleton.mp hmem).symm (he cursor reason)

theorem Inv.aside (h : R.Inv w) (ha : Aside w w') : R.Inv w' :=
  h.of_host ha.serving ha.host ha.calls
    (fun cursor reason hmem => h.refused cursor reason (ha.history cursor reason hmem))

theorem sat_aside {β : Type} {c : Ingest.Control DurableWebhookSink PersistPoint}
    {e : Ingest.Input SinkInput → Ingest.World DurableWebhookSink → Bool}
    {f : Ingest.Input SinkInput → Ingest.World DurableWebhookSink →
      β × Ingest.World DurableWebhookSink}
    {k : β → IngestProg DurableWebhookSink SinkInput (Outcome DurableWebhookSink PersistPoint)}
    (h : R.Point c w) (hf : ∀ i w, Aside w (f i w).2)
    (hk : ∀ i w', R.Inv (f i w').2 → R.Point c (f i w').2 →
      R.Keeps (k (f i w').1) (f i w').2) :
    R.Keeps (Prog.await e f >>= k) w := by
  refine Prog.sat_await (stable_point c) h (fun i w' hw' h' _ => ?_)
  have ha := hf i w'
  have hinv := Inv.aside hw' ha
  exact ⟨hinv, trivial, hk i w' hinv (h'.of_host ha.serving ha.host)⟩

/-! ### The passes -/

/-- From now on the transports have to keep off the stations. -/
theorem Inv.serve {serial : ℕ} (hw : R.Inv w) (hserving : w.serving = false)
    (h : Constructed R.webhooks.destinations serial w.host) :
    R.Inv { w with serving := true } ∧ R.Point (.receiving serial) { w with serving := true } := by
  obtain ⟨hunused, stations, hdestinations, harranged, hstationed⟩ := h
  have hcalls := hw.calls
  have hnone := hw.quiet hserving
  refine ⟨⟨⟨?_, ?_, ?_⟩, fun hfalse => ?_, hw.refused⟩, rfl, stations, hdestinations, harranged,
    hunused, hstationed⟩
  · refine ⟨hcalls.inv.base, hcalls.inv.reachable, fun c hc => ?_⟩
    change c ∈ w.host.outside.connectionIds at hc
    rw [harranged.connections] at hc
    obtain ⟨st, hst, rfl⟩ := List.mem_map.mp hc
    exact (hstationed st hst).mem_channels
  · intro k p hp
    change w.calls[k]? = some p at hp
    rw [hnone] at hp
    cases hp
  · intro k hk
    exact hcalls.fresh k hk
  · cases hfalse

theorem keeps_start (hw : R.Inv w) (h : R.Point .starting w) :
    R.Keeps
      R.ingestor.start w := by
  obtain ⟨hserving, hrouter, hroutes, hconnections⟩ := h
  have hissued : issued w = [] := by rw [issued, hserving]; rfl
  have hbuild := sat_buildDurableRuntime (R := R) hrouter hroutes hconnections
  rw [← hissued, ← hserving] at hbuild
  refine Prog.sat_bind hw (Prog.sat_mono (sat_hostView hbuild) ?_)
  rintro result w₁ hw₁ ⟨⟨hserving₁, hissued₁⟩, hconstructed⟩
  cases result with
  | error e => exact keeps_done _
  | ok serial =>
    have hstable : R.contract.Stable (fun w =>
        w.serving = false ∧ Constructed R.webhooks.destinations serial w.host) := by
      refine stable_of_disturbed (fun w w' hw hw' h hd => ⟨hd.serving.trans h.1, ?_⟩)
      have hrely := hd.rely hw hw'
      rw [h.1] at hrely
      exact (stable_quiet _).rely hrely h.2
    refine Prog.sat_access hstable ⟨hserving₁.trans hserving, hconstructed serial rfl⟩ ?_
    rintro w₂ hw₂ ⟨hserving₂, hconstructed₂⟩
    obtain ⟨hinv, hpoint⟩ := Inv.serve hw₂ hserving₂ hconstructed₂
    exact ⟨hinv, trivial, keeps_again hpoint⟩

theorem keeps_commit {c : Ingest.Control DurableWebhookSink PersistPoint} (serial : ℕ)
    (cursor : Ingest.Cursor) (h : R.Point c w)
    (hc : ∀ w, R.Point c w → R.Point (.receiving serial) w) :
    R.Keeps (Ingestor.commit serial cursor) w := by
  refine sat_aside h (fun i w => ?_) (fun i w' _ h' => keeps_again (hc _ h'))
  dsimp only
  cases i.reply with
  | done => exact ⟨rfl, rfl, rfl, fun _ _ h => h⟩
  | failed error applied => cases applied <;> exact ⟨rfl, rfl, rfl, fun _ _ h => h⟩

theorem received_aside (i : Ingest.Input SinkInput) (w : Ingest.World DurableWebhookSink) :
    Aside w (Ingest.received i w).2 := by
  unfold Ingest.received
  split
  · exact ⟨rfl, rfl, rfl, fun _ _ h => h⟩
  · split <;> exact ⟨rfl, rfl, rfl, fun _ _ h => h⟩
  · exact ⟨rfl, rfl, rfl, fun _ _ h => h⟩

theorem borrow_aside (w : Ingest.World DurableWebhookSink) : Aside w w :=
  ⟨rfl, rfl, rfl, fun _ _ h => h⟩

theorem keeps_receiveRecord (serial : ℕ) (h : R.Point (.receiving serial) w) :
    R.Keeps
      (R.ingestor.receiveRecord serial) w := by
  refine sat_aside h (fun _ w => borrow_aside w) (fun _ w₁ _ h₁ => ?_)
  split
  · exact keeps_done _
  refine sat_aside h₁ received_aside (fun i w₂ _ h₂ => ?_)
  split
  · exact keeps_done _
  · refine sat_aside h₂ (fun _ w => borrow_aside w) (fun _ w₃ _ h₃ => ?_)
    split
    · exact keeps_done _
    · exact keeps_again h₃
  · split
    · exact keeps_again (c := .routing serial _ _) h₂
    · refine sat_aside h₂ (fun _ w => .log (by simp)) (fun _ w₃ _ h₃ => ?_)
      split
      · exact keeps_commit serial _ h₃ (fun _ h => h)
      · exact keeps_done _
  · exact keeps_again h₂

theorem keeps_route (serial : ℕ) (cursor : Ingest.Cursor) (message : RoutedMessage) (hw : R.Inv w)
    (h : R.Point (.routing serial cursor message) w) :
    R.Keeps
      (R.ingestor.route serial cursor message) w := by
  have hzoom : (serve R.router ⟨2 * serial, 0⟩ (R.order serial) (.dispatch message)).zoom
      Ingest.World.routerView (fun i : Ingest.Input SinkInput => i.host.connection) =
      (R.call serial (.dispatch message)).zoom Ingest.World.hostView Ingest.Input.host :=
    (Prog.zoom_zoom routerView Ingest.World.hostView _ _ _).symm
  have hcall : ((R.call serial (.dispatch message)).zoom Ingest.World.hostView
      Ingest.Input.host).Sat R.contract (fun response w' => Serving (fun stations host => ∃ report,
        response = .dispatched (.ok report) ∧ R.Persisting stations (serial + 1) message
          host.outside.commands (.matching message) host) w') w :=
    sat_serving h (arranges_idle serial) (fun stations host hidle => sat_dispatchCall hidle)
  rw [← hzoom] at hcall
  refine Prog.sat_bind hw (Prog.sat_mono hcall ?_)
  rintro response w₁ _ ⟨hserving₁, stations, report, rfl, hmatching⟩
  have hstable : R.contract.Stable (Serving (fun stations host => R.Persisting stations
      (serial + 1) message host.outside.commands (.matching message) host)) := by
    refine stable_serving (fun stations host h => h.2.2.arranged) (fun stations => ?_)
    intro host host' hi hi' hd h
    rw [hd.2.1]
    exact stable_persisting (.matching message) host host' hi hi' hd h
  refine Prog.sat_access hstable ⟨hserving₁, stations, hmatching⟩ (fun w₂ hw₂ h₂ => ?_)
  have haside : Aside w₂ (w₂.log (.dispatched cursor)) := .log (by simp)
  refine ⟨Inv.aside hw₂ haside, trivial, keeps_again ?_⟩
  exact Point.of_host (c := .persisting (serial + 1) cursor message w₂.host.outside 0
    (.matching message)) ⟨rfl, h₂⟩ haside.serving haside.host

theorem keeps_persist (serial : ℕ) (cursor : Ingest.Cursor) (message : RoutedMessage)
    (before : DurableWebhookSink) (sink : ℕ) (point : PersistPoint) (hw : R.Inv w)
    (h : R.Point (.persisting serial cursor message before sink point) w) :
    R.Keeps (R.ingestor.persist serial cursor message before sink point) w := by
  obtain ⟨rfl, h⟩ := h
  have hpass : ((R.sink.pass point).zoom Ingest.World.hostView Ingest.Input.host).Sat R.contract
      (fun next w' => Serving (fun stations host =>
        R.PassPost stations serial message before.commands next host) w') w :=
    sat_serving h (arranges_persisting _ _ _ _) (fun stations host h => sat_sink point h)
  refine Prog.sat_bind hw (Prog.sat_mono hpass ?_)
  intro next w₁ _ h₁
  rcases next with point' | ⟨reason | _⟩
  · exact keeps_again (c := .persisting serial cursor message before 0 point') ⟨rfl, h₁⟩
  · obtain ⟨_, stations, hunpublished⟩ := h₁
    refine Prog.sat_access (P := fun _ => R.Unpublished reason) (fun _ _ _ _ _ h => h)
      hunpublished (fun w₂ hw₂ _ => ⟨?_, trivial, keeps_done _⟩)
    refine hw₂.of_host rfl rfl rfl (fun cursor' reason' hmem => ?_)
    rcases List.mem_append.mp hmem with hmem | hmem
    · exact hw₂.refused cursor' reason' hmem
    · cases List.mem_singleton.mp hmem
      exact hunpublished
  · refine sat_aside (c := .committing serial cursor message before) h₁
      (fun _ w => .log (by simp)) (fun _ w₂ _ h₂ => keeps_again h₂)

theorem inv_idle (hserving : w.serving = false) (hrouter : w.host.router = .new)
    (hcalls : w.calls = [])
    (hrefused : ∀ cursor reason, .refused cursor reason ∈ w.history → R.Unpublished reason) :
    R.Inv w := by
  have hissued : issued w = [] := by rw [issued, hserving]; rfl
  refine ⟨?_, fun _ => hcalls, hrefused⟩
  rw [hissued, hrouter, hcalls]
  refine ⟨⟨base_new, fun _ => Registry.Reachable.new, by simp⟩, fun k p hp => ?_, fun k _ => ?_⟩
  · simp at hp
  · exact ⟨by simp [Shared.new], by simp [Shared.new]⟩

theorem upholds (R : WebhookRuntime) :
    R.ingestor.system.Upholds R.Inv R.Point (fun _ _ => True) where
  environment _ _ _ hw h := (environment_disturbed hw h).2
  boot w hw := by
    refine ⟨inv_idle rfl rfl rfl hw.refused, rfl, rfl, rfl, rfl⟩
  pass c w hw h := by
    cases c with
    | starting => exact keeps_start hw h
    | receiving serial => exact keeps_receiveRecord serial h
    | routing serial cursor message => exact keeps_route serial cursor message hw h
    | persisting serial cursor message before sink point =>
      exact keeps_persist serial cursor message before sink point hw h
    | committing serial cursor message before =>
      exact keeps_commit serial cursor h (fun w h => ⟨h.1, h.2.imp fun _ h => h.1⟩)

/-! ### Lock-step -/

theorem head?_append_of_head? {text : String} {c : Char} (rest : String)
    (h : text.toList.head? = some c) : (text ++ rest).toList.head? = some c := by
  rw [String.toList_append, List.head?_append, h, Option.some_or]

theorem head?_queueClosed (id : String) : (queueClosed id).toList.head? = some 'd' := by
  have htext : "durable route queue closed for ".toList.head? = some 'd' := by decide
  exact head?_append_of_head? _ htext

theorem head?_queueMismatch (returned expected : String) :
    (queueMismatch returned expected).toList.head? = some 'd' := by
  have htext : "durable route queue returned message ".toList.head? = some 'd' := by decide
  exact head?_append_of_head? _ (head?_append_of_head? _ (head?_append_of_head? _ htext))

theorem head?_of_unpublished {reason : String} (h : R.Unpublished reason) :
    reason.toList.head? = some 's' ∨ reason.toList.head? = some 'K' := by
  have htoo : "serialized durable webhook record is ".toList.head? = some 's' := by decide
  have hfailed : "Kafka publication to ".toList.head? = some 'K' := by decide
  obtain ⟨record, reply, hreason⟩ := h
  unfold DurableRecord.publication at hreason
  dsimp only at hreason
  split_ifs at hreason
  · cases hreason
    exact Or.inl
      (head?_append_of_head? _ (head?_append_of_head? _ (head?_append_of_head? _ htoo)))
  · cases reply with
    | done => cases hreason
    | failed error applied =>
      cases hreason
      exact Or.inr
        (head?_append_of_head? _ (head?_append_of_head? _ (head?_append_of_head? _ hfailed)))

/-- A failed publication is not mistaken for one of the errors about the queues. -/
theorem ne_of_unpublished {reason : String} (h : R.Unpublished reason) :
    (∀ id, reason ≠ queueClosed id) ∧
      ∀ returned expected, reason ≠ queueMismatch returned expected := by
  constructor
  · rintro id rfl
    have hhead := head?_of_unpublished h
    rw [head?_queueClosed] at hhead
    simp at hhead
  · rintro returned expected rfl
    have hhead := head?_of_unpublished h
    rw [head?_queueMismatch] at hhead
    simp at hhead

end WebhookRuntime

section Validation

theorem nodup_of_validateDestinations {maxQueueCapacity : ℕ} {webhookIds : List String}
    {destinations : List WebhookDestinationConfig}
    (h : validateDestinations maxQueueCapacity webhookIds destinations = .ok ()) :
    (destinations.map WebhookDestinationConfig.id).Nodup ∧
      ∀ destination ∈ destinations, destination.id ∉ webhookIds := by
  induction destinations generalizing webhookIds with
  | nil => simp
  | cons destination rest ih =>
    simp only [validateDestinations] at h
    split_ifs at h with hblank hmem
    split at h
    · cases h
    · obtain ⟨hnodup, hnew⟩ := ih h
      simp only [List.mem_cons, not_or] at hnew
      refine ⟨?_, ?_⟩
      · rw [List.map_cons, List.nodup_cons]
        refine ⟨fun hid => ?_, hnodup⟩
        obtain ⟨other, hother, heq⟩ := List.mem_map.mp hid
        exact (hnew other hother).1 heq
      · intro other hother
        rcases List.mem_cons.mp hother with rfl | hother
        · exact hmem
        · exact (hnew other hother).2

theorem WebhookConfig.nodup_of_validate {maxQueueCapacity : ℕ} {config : WebhookConfig}
    (h : config.validate maxQueueCapacity = .ok ()) :
    (config.destinations.map WebhookDestinationConfig.id).Nodup :=
  (nodup_of_validateDestinations (validateDestinations_of_validate h)).1

end Validation

namespace WebhookRuntime

variable {R : WebhookRuntime}

/-- The destinations that the sink goes through are those whose filter matches. -/
theorem idle_destinations_perm {serial : ℕ} {stations : List Station}
    {host : Host DurableWebhookSink} (h : R.Idle serial stations host) (message : RoutedMessage) :
    ((host.outside.destinations message).map RouteDestination.id).Perm
      ((R.webhooks.destinations.filter (fun destination =>
        destination.filter.matches message.metadata)).map WebhookDestinationConfig.id) := by
  have hperm := (h.arranged.destinations_perm message).map RouteDestination.id
  rw [← h.destinations, List.filter_map, List.map_map]
  rw [List.map_map] at hperm
  have hmatch : stations.filter (fun st => st.key ∈ RouteKey.candidates message.metadata) =
      stations.filter ((fun destination : WebhookDestinationConfig =>
        destination.filter.matches message.metadata) ∘ Station.destination) := by
    apply List.filter_congr
    intro st hst
    rw [Bool.eq_iff_iff, decide_eq_true_iff]
    exact ofFilter_mem_candidates_iff (h.stationed st hst).valid message
  rwa [hmatch] at hperm

theorem map_destinationId {message : RoutedMessage} {destinations : List RouteDestination}
    {commands : List DurableRecord}
    (h : List.Forall₂ (R.IsCommand message) destinations commands) :
    commands.map DurableRecord.destinationId = destinations.map RouteDestination.id := by
  induction h with
  | nil => rfl
  | cons hcommand _ ih =>
    obtain ⟨ids, uuid, now, rfl⟩ := hcommand
    rw [List.map_cons, List.map_cons, ih]
    rfl

theorem isCommand_of_mem {message : RoutedMessage} {destinations : List RouteDestination}
    {commands : List DurableRecord}
    (h : List.Forall₂ (R.IsCommand message) destinations commands) {record : DurableRecord}
    (hrecord : record ∈ commands) : ∃ destination, R.IsCommand message destination record := by
  induction h with
  | nil => cases hrecord
  | cons hcommand _ ih =>
    rcases List.mem_cons.mp hrecord with rfl | hrecord
    · exact ⟨_, hcommand⟩
    · exact ih hrecord

/-- In every run of a daemon with a valid durable webhook configuration: before each dispatch the
queue of every destination is empty and its connection registered; whenever `persist` turns to a
queue, the delivery of the message is there; if it returns an error, a publication has failed; and
when it has succeeded, it has published exactly one command for each destination whose filter
matches the message and none for the others. -/
theorem dispatch_persist_lockstep
    (hvalid : R.webhooks.validate R.router.maxQueueCapacity = .ok ())
    {n : Node (Ingest.World DurableWebhookSink) (Ingest.Input SinkInput)
      (Ingest.Control DurableWebhookSink PersistPoint) (Except String Unit)}
    (h : R.ingestor.Reachable n) :
    (∀ serial cursor message, n.point = some (.routing serial cursor message) →
      ∀ destination ∈ R.webhooks.destinations, ∃ c ∈ n.durable.host.router.connections, ∃ channel,
        ⟨destination.id, c⟩ ∈ (n.durable.host.outside.routes.lookup
          (RouteKey.ofFilter destination.filter)).getD [] ∧
        n.durable.host.router.channels.lookup c = some channel ∧ channel.queue = []) ∧
    (∀ serial cursor message before sink current destination rest,
      n.point = some (.persisting serial cursor message before sink
        (.publishing current (destination :: rest))) →
      current = message ∧ ∃ channel ids,
        n.durable.host.router.channels.lookup destination.receiver = some channel ∧
        channel.queue = [⟨message, ids⟩]) ∧
    (∀ cursor reason, .refused cursor reason ∈ n.durable.history → R.Unpublished reason ∧
      (∀ id, reason ≠ queueClosed id) ∧
      ∀ returned expected, reason ≠ queueMismatch returned expected) ∧
    (R.webhooks.destinations.map WebhookDestinationConfig.id).Nodup ∧
    (∀ serial cursor message before, n.point = some (.committing serial cursor message before) →
      ∃ commands, n.durable.host.outside.commands = before.commands ++ commands ∧
        (commands.map DurableRecord.destinationId).Perm ((R.webhooks.destinations.filter
          (fun destination => destination.filter.matches message.metadata)).map
            WebhookDestinationConfig.id) ∧
        ∀ record ∈ commands, ∃ destination, R.IsCommand message destination record) := by
  obtain ⟨outside, moves, hrun⟩ := h
  have hnew : R.Inv (Ingest.World.new outside) :=
    inv_idle rfl rfl rfl (fun _ _ hmem => absurd hmem List.not_mem_nil)
  have hpoint : ∀ {c}, n.point = some c → R.Point c n.durable := fun hc =>
    System.leaves_run (upholds R) hnew hrun (Node.process_of_point hc)
  refine ⟨?_, ?_, ?_, WebhookConfig.nodup_of_validate hvalid, ?_⟩
  · intro serial cursor message hn destination hmem
    obtain ⟨_, stations, hidle⟩ := hpoint hn
    rw [← hidle.destinations] at hmem
    obtain ⟨st, hst, rfl⟩ := List.mem_map.mp hmem
    have hstationed := hidle.stationed st hst
    obtain ⟨channel, hlookup, hqueue, _⟩ := hstationed.channel
    refine ⟨st.connection, hstationed.registered, channel, ?_, hlookup, hqueue⟩
    rw [hidle.arranged.routes]
    refine List.mem_map.mpr ⟨st, List.mem_filter.mpr ⟨hst, ?_⟩, rfl⟩
    exact decide_eq_true rfl
  · intro serial cursor message before sink current destination rest hn
    obtain ⟨_, _, stations, hcurrent, hmanned, done, hdone, _⟩ := hpoint hn
    obtain ⟨st, _, rfl, _, ids, hstationed⟩ := manned_front hmanned hdone
    obtain ⟨channel, hlookup, hqueue, _⟩ := hstationed.channel
    exact ⟨hcurrent, channel, ids, hlookup, hqueue⟩
  · intro cursor reason hmem
    have hunpublished := (System.inv_run (upholds R) hnew hrun).refused cursor reason hmem
    exact ⟨hunpublished, ne_of_unpublished hunpublished⟩
  · intro serial cursor message before hn
    obtain ⟨_, stations, hidle, commands, hcommands, hforall⟩ := hpoint hn
    refine ⟨commands, hcommands, ?_, fun record hrecord => isCommand_of_mem hforall hrecord⟩
    rw [map_destinationId hforall]
    exact idle_destinations_perm hidle message

end WebhookRuntime

/-! ### A run with one destination and one record -/

def ordersWebhooks : WebhookRuntime where
  router := {}
  webhooks := {
    durable := ⟨"b", "c", "g", "d", "r", "x", 1, 1024, 1⟩
    destinations := [⟨"w", ⟨"acme", none, none, none, none, none, none⟩, 1, 1, 1, 1, 1⟩] }
  maxPayloadBytes := 16
  commitInvalidMessages := false
  encodeDeliveryJson _ := [1]
  order _ := .listed

/-- The runtime is built, then the record is received, dispatched and persisted. -/
def ordersMoves : List (NodeMove Ingest.Outside (Ingest.Input SinkInput)) :=
  let step : NodeMove Ingest.Outside (Ingest.Input SinkInput) :=
    .act ⟨.record ("orders", 0), .done, {}⟩
  [.environment (.produce ("orders", 0)
      ⟨some [⟨"x-tenant-id", some (.text "acme")⟩], some [1, 2], none⟩), .start] ++
    List.replicate 23 step ++ [.again, step, step, .again] ++ List.replicate 7 step ++
    [.again, step, .again, step, step, step, .again, step]

def ordersNode : Node (Ingest.World DurableWebhookSink) (Ingest.Input SinkInput)
    (Ingest.Control DurableWebhookSink PersistPoint) (Except String Unit) :=
  ordersWebhooks.ingestor.system.final ⟨.new ⟨∅, [], []⟩, none⟩ ordersMoves

def isCommitting : Option (Ingest.Control DurableWebhookSink PersistPoint) → Bool
  | some (.committing _ _ _ _) => true
  | _ => false

theorem exists_committing {point : Option (Ingest.Control DurableWebhookSink PersistPoint)}
    (h : isCommitting point = true) :
    ∃ serial cursor message before, point = some (.committing serial cursor message before) := by
  rcases point with _ | _ | _ | _ | _ | ⟨serial, cursor, message, before⟩
  all_goals first | exact ⟨serial, cursor, message, before, rfl⟩ | cases h

theorem WebhookRuntime.dispatch_persist_lockstep_orders :
    ∃ serial cursor message before,
      ordersNode.point = some (.committing serial cursor message before) ∧
      ∃ commands, ordersNode.durable.host.outside.commands = before.commands ++ commands ∧
        (commands.map DurableRecord.destinationId).Perm
          ((ordersWebhooks.webhooks.destinations.filter (fun destination =>
            destination.filter.matches message.metadata)).map WebhookDestinationConfig.id) ∧
        ∀ record ∈ commands, ∃ destination,
          ordersWebhooks.IsCommand message destination record := by
  have hvalid : ordersWebhooks.webhooks.validate ordersWebhooks.router.maxQueueCapacity =
      .ok () := by decide +kernel
  have hreached : (ordersWebhooks.ingestor.system.run ⟨.new ⟨∅, [], []⟩, none⟩
      ordersMoves).isSome = true := by decide +kernel
  obtain ⟨n, hrun⟩ := Option.isSome_iff_exists.mp hreached
  have hreachable : ordersWebhooks.ingestor.Reachable ordersNode := by
    rw [ordersNode, System.final, hrun, Option.getD_some]
    exact ⟨_, ordersMoves, hrun⟩
  have hcommitting : isCommitting ordersNode.point = true := by decide +kernel
  obtain ⟨serial, cursor, message, before, hpoint⟩ := exists_committing hcommitting
  exact ⟨serial, cursor, message, before, hpoint,
    (dispatch_persist_lockstep hvalid hreachable).2.2.2.2 serial cursor message before hpoint⟩

end KafkaEdgeRouter.Webhook
