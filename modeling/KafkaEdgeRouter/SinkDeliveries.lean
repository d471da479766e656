import KafkaEdgeRouter.RuntimeConstruction

/-!
# What the sink finds in its queues

The table of the sink and the index of the router select the same destinations: both look under the
candidate keys of a message, and a station stands under exactly one key in either. So after a
dispatch to stations with empty queues each destination that the sink goes through has exactly one
delivery of the message waiting, and all other queues are empty. Every pass of the sink takes one.
-/

namespace KafkaEdgeRouter.Webhook

open Router InvertedIndex
open Ingest (Host)

theorem flatMap_filter_perm {α κ : Type} [DecidableEq κ] (f : α → κ) (l : List α) {keys : List κ}
    (hnodup : keys.Nodup) :
    (keys.flatMap (fun k => l.filter (fun a => f a = k))).Perm
      (l.filter (fun a => f a ∈ keys)) := by
  induction keys with
  | nil => simp
  | cons k keys ih =>
    obtain ⟨hk, hkeys⟩ := List.nodup_cons.mp hnodup
    have hfirst : (l.filter (fun a => f a ∈ k :: keys)).filter (fun a => f a = k) =
        l.filter (fun a => f a = k) := by
      rw [List.filter_filter]
      apply List.filter_congr
      intro a _
      by_cases h : f a = k <;> simp [h]
    have hrest : (l.filter (fun a => f a ∈ k :: keys)).filter (fun a => !(f a = k : Bool)) =
        l.filter (fun a => f a ∈ keys) := by
      rw [List.filter_filter]
      apply List.filter_congr
      intro a _
      by_cases h : f a = k <;> simp [h, hk]
    rw [List.flatMap_cons]
    refine (List.Perm.append_left _ (ih hkeys)).trans ?_
    rw [← hfirst, ← hrest]
    exact List.filter_append_perm _ _

section Matching

variable {sink : DurableWebhookSink} {stations : List Station} {message : RoutedMessage}

theorem Arranged.destinations_perm (h : Arranged sink stations) (message : RoutedMessage) :
    (sink.destinations message).Perm
      ((stations.filter (fun st => st.key ∈ RouteKey.candidates message.metadata)).map
        Station.route) := by
  have hnodup := RouteKey.nodup_candidates message.recipient_paired
  have hperm := (flatMap_filter_perm Station.key stations hnodup).map Station.route
  rw [List.map_flatMap] at hperm
  rwa [DurableWebhookSink.destinations, funext h.routes]

theorem Arranged.nodup_routes (h : Arranged sink stations) :
    (stations.map Station.route).Nodup := by
  have hnodup := h.nodup
  rw [show stations.map Station.connection =
    (stations.map Station.route).map RouteDestination.receiver by simp [Station.route]] at hnodup
  exact hnodup.of_map

theorem Arranged.nodup_destinations (h : Arranged sink stations) (message : RoutedMessage) :
    (sink.destinations message).Nodup := by
  rw [(h.destinations_perm message).nodup_iff]
  exact h.nodup_routes.sublist (List.Sublist.map _ List.filter_sublist)

theorem Arranged.mem_destinations (h : Arranged sink stations) {d : RouteDestination} :
    d ∈ sink.destinations message ↔
      ∃ st ∈ stations, st.key ∈ RouteKey.candidates message.metadata ∧ st.route = d := by
  rw [(h.destinations_perm message).mem_iff]
  simp [and_assoc]

theorem Arranged.eq_of_connection (h : Arranged sink stations) {st st' : Station}
    (hst : st ∈ stations) (hst' : st' ∈ stations) (heq : st.connection = st'.connection) :
    st = st' :=
  List.inj_on_of_nodup_map h.nodup hst hst' heq

theorem Arranged.route_mem_destinations (h : Arranged sink stations) {st : Station}
    (hst : st ∈ stations) : st.route ∈ sink.destinations message ↔
      st.key ∈ RouteKey.candidates message.metadata := by
  rw [h.mem_destinations]
  constructor
  · rintro ⟨st', hst', hkey, hroute⟩
    rwa [← h.eq_of_connection hst' hst (congrArg RouteDestination.receiver hroute)]
  · intro hkey
    exact ⟨st, hst, hkey, rfl⟩

end Matching

/-! ### After a dispatch -/

/-- The station is one that the sink has still to go to, and has exactly one delivery of the message
waiting, or its queue is empty. -/
def Loaded (message : RoutedMessage) (rest : List RouteDestination) (st : Station) (s : Shared) :
    Prop :=
  if st.route ∈ rest then ∃ ids, Stationed st [⟨message, ids⟩] s else Stationed st [] s

theorem Loaded.same {message : RoutedMessage} {rest : List RouteDestination} {st : Station}
    {s s' : Shared} (h : Loaded message rest st s) (hsame : Same st.connection s s') :
    Loaded message rest st s' := by
  unfold Loaded at h ⊢
  split_ifs at h ⊢ with hmem
  · obtain ⟨ids, hst⟩ := h
    exact ⟨ids, hst.same hsame⟩
  · exact h.same hsame

theorem Loaded.tail {message : RoutedMessage} {d : RouteDestination} {rest : List RouteDestination}
    {st : Station} {s : Shared} (h : Loaded message (d :: rest) st s) (hne : st.route ≠ d) :
    Loaded message rest st s := by
  simpa only [Loaded, List.mem_cons, hne, false_or] using h

section Dispatch

variable {config : RouterConfig} {call : CallId} {message : RoutedMessage} {st : Station}
  {s₀ s : Shared}

theorem Stationed.gather_ne_nil {queue : List Delivery} (h : Stationed st queue s)
    (message : RoutedMessage) :
    gather s.routes st.connection (RouteKey.candidates message.metadata) ≠ [] ↔
      st.key ∈ RouteKey.candidates message.metadata := by
  constructor
  · intro hne
    obtain ⟨sid, hsid⟩ := List.exists_mem_of_ne_nil _ hne
    obtain ⟨k, hk, hmem⟩ := mem_gather.mp hsid
    rwa [← (h.items k).mp (List.ne_nil_of_mem hmem)]
  · intro hkey
    obtain ⟨sid, hsid⟩ := List.exists_mem_of_ne_nil _ ((h.items st.key).mpr rfl)
    exact List.ne_nil_of_mem (mem_gather.mpr ⟨st.key, hkey, hsid⟩)

theorem Stationed.afterOffer (h : Stationed st [] s) (call : CallId) (delivery : Delivery)
    (strikes : ℕ) :
    (trySend st.connection delivery s).1 = .accepted ∧
      Stationed st [delivery] (afterOffer call st.connection delivery strikes s) := by
  obtain ⟨channel, hlookup, hqueue, hopen, hcapacity⟩ := h.channel
  have hsend : channel.trySend delivery = (.accepted, { channel with queue := [delivery] }) := by
    simp [Channel.trySend, hqueue, hopen, hcapacity]
  refine ⟨by simp [trySend, hlookup, hsend], h.valid, ?_, ?_, h.items⟩
  · exact (AList.mem_modify ..).mpr h.registered
  · refine ⟨{ channel with queue := [delivery] }, ?_, rfl, hopen, hcapacity⟩
    simp [Router.afterOffer, hlookup, hsend]

theorem Stationed.receive {delivery : Delivery} (h : Stationed st [delivery] s) :
    ∃ channel, (s.channels.lookup st.connection).bind Channel.recv = some (delivery, channel) ∧
      Stationed st []
        { s with channels := s.channels.modify st.connection (fun _ => channel) } := by
  obtain ⟨channel, hlookup, hqueue, hopen, hcapacity⟩ := h.channel
  refine ⟨{ channel with queue := [], received := channel.received ++ [delivery] }, ?_,
    h.valid, h.registered,
    ⟨{ channel with queue := [], received := channel.received ++ [delivery] }, ?_, rfl, hopen,
      hcapacity⟩, h.items⟩
  · simp [hlookup, Channel.recv, hqueue]
  · simp [hlookup]

/-- A dispatch puts one delivery on the queue of each station whose key is a candidate. -/
theorem Stationed.fanout {D : ConnectionId → Prop} {own own' : List KafkaEdgeRouter.Event}
    {report : DispatchReport} {found : Matches} (h : Stationed st [] s₀) (hD : D st.connection)
    (hf : Fanout config call message D s₀ own own' report found s) :
    if st.key ∈ RouteKey.candidates message.metadata then ∃ ids, Stationed st [⟨message, ids⟩] s
    else Stationed st [] s := by
  have hexact := hf.exact st.connection hD
  cases hfound : found.lookup st.connection with
  | none =>
    rw [hfound, Option.getD_none] at hexact
    rw [if_neg (fun hkey => (h.gather_ne_nil message).mpr hkey hexact.symm)]
    exact h.same ((hf.spared _ hfound).2 hD)
  | some ids =>
    rw [hfound, Option.getD_some] at hexact
    have hne := hf.nonempty _ ids hfound
    rw [hexact] at hne
    rw [if_pos ((h.gather_ne_nil message).mp hne)]
    obtain ⟨connection, hlookup⟩ := AList.exists_lookup h.registered
    obtain ⟨_, hafter⟩ := hf.served _ ids connection hD hfound hlookup
    obtain ⟨hsent, hstationed⟩ := h.afterOffer call ⟨message, ids⟩
      (strikesAfter (trySend st.connection ⟨message, ids⟩ s₀).1 connection.fullStrikes)
    exact ⟨ids, hstationed.same (hafter (by rw [hsent]; rfl))⟩

end Dispatch

/-! ### The passes of the sink -/

/-- The stations of the runtime, each as `P` says. -/
structure Manned (R : WebhookRuntime) (stations : List Station)
    (P : Station → Shared → Prop) (serial : ℕ) (host : Host DurableWebhookSink) : Prop where
  destinations : stations.map Station.destination = R.webhooks.destinations
  arranged : Arranged host.outside stations
  unused : Unused serial host.router
  stationed : ∀ st ∈ stations, P st host.router

namespace WebhookRuntime

variable (R : WebhookRuntime)

/-- A command for the destination that carries a delivery of the message. -/
def IsCommand (message : RoutedMessage) (destination : RouteDestination) (record : DurableRecord) :
    Prop :=
  ∃ ids uuid now, record = R.command destination message ⟨message, ids⟩ uuid now

/-- The sink has published one command for each of the destinations, in order. -/
def Published (message : RoutedMessage) (destinations : List RouteDestination)
    (earlier now : List DurableRecord) : Prop :=
  ∃ commands, now = earlier ++ commands ∧ List.Forall₂ (R.IsCommand message) destinations commands

def Unpublished (reason : String) : Prop :=
  ∃ (record : DurableRecord) (reply : Reply), (record.publication R.webhooks.durable.deliveryTopic
    R.webhooks.durable.maxRecordBytes reply).1 = .error reason

def Persisting (stations : List Station) (serial : ℕ) (message : RoutedMessage)
    (earlier : List DurableRecord) : PersistPoint → Host DurableWebhookSink → Prop
  | .matching message', host => message' = message ∧ host.outside.commands = earlier ∧
    Manned R stations (Loaded message (host.outside.destinations message)) serial host
  | .publishing message' rest, host => message' = message ∧
    Manned R stations (Loaded message rest) serial host ∧
    ∃ done, done ++ rest = host.outside.destinations message ∧
      R.Published message done earlier host.outside.commands

def PassPost (stations : List Station) (serial : ℕ) (message : RoutedMessage)
    (earlier : List DurableRecord) :
    Next PersistPoint (Except String Unit) → Host DurableWebhookSink → Prop
  | .again point, host => R.Persisting stations serial message earlier point host
  | .done (.ok ()), host => Manned R stations (fun st => Stationed st []) serial host ∧
    R.Published message (host.outside.destinations message) earlier host.outside.commands
  | .done (.error reason), _ => R.Unpublished reason

variable {R} {stations : List Station} {serial : ℕ} {message : RoutedMessage}
  {earlier : List DurableRecord} {host : Host DurableWebhookSink}

theorem stable_manned {P : Station → Shared → Prop}
    (hP : ∀ st s s', P st s → Same st.connection s s' → P st s') :
    (R.hostContract (stations.map Station.connection) true).Stable
      (fun host => Manned R stations P serial host) := by
  rintro host host' hi hi' ⟨hserving, houtside, k, hg⟩ h
  refine ⟨h.destinations, houtside ▸ h.arranged, h.unused.guarantee hg (fun m _ => by omega),
    fun st hst => hP st _ _ (h.stationed st hst) (hg.untouched _ ?_)⟩
  rintro (hodd | hnot)
  · omega
  · exact hnot (List.mem_map_of_mem hst)

theorem stable_persisting (point : PersistPoint) :
    (R.hostContract (stations.map Station.connection) true).Stable
      (R.Persisting stations serial message earlier point) := by
  intro host host' hi hi' hd h
  have houtside := hd.2.1
  cases point with
  | matching message' =>
    refine ⟨h.1, houtside ▸ h.2.1, ?_⟩
    rw [houtside]
    exact stable_manned (fun _ _ _ => Loaded.same) host host' hi hi' hd h.2.2
  | publishing message' rest =>
    refine ⟨h.1, stable_manned (fun _ _ _ => Loaded.same) host host' hi hi' hd h.2.1, ?_⟩
    rw [houtside]
    exact h.2.2

theorem stable_passPost (next : Next PersistPoint (Except String Unit)) :
    (R.hostContract (stations.map Station.connection) true).Stable
      (R.PassPost stations serial message earlier next) := by
  intro host host' hi hi' hd h
  rcases next with point | ⟨reason | _⟩
  · exact stable_persisting point host host' hi hi' hd h
  · exact h
  · refine ⟨stable_manned (fun _ _ _ => Stationed.same) host host' hi hi' hd h.1, ?_⟩
    rw [hd.2.1]
    exact h.2

variable (R) in
/-- The delivery for the destination `d` has been taken and is yet to be published. -/
def Taken (stations : List Station) (serial : ℕ) (message : RoutedMessage)
    (done : List RouteDestination) (d : RouteDestination) (rest : List RouteDestination)
    (earlier : List DurableRecord) (host : Host DurableWebhookSink) : Prop :=
  Manned R stations (Loaded message rest) serial host ∧
    done ++ d :: rest = host.outside.destinations message ∧
    R.Published message done earlier host.outside.commands

theorem stable_taken (done : List RouteDestination) (d : RouteDestination)
    (rest : List RouteDestination) :
    (R.hostContract (stations.map Station.connection) true).Stable
      (R.Taken stations serial message done d rest earlier) := by
  intro host host' hi hi' hd h
  refine ⟨stable_manned (fun _ _ _ => Loaded.same) host host' hi hi' hd h.1, ?_⟩
  rw [hd.2.1]
  exact h.2

theorem Persisting.manned {point : PersistPoint}
    (h : R.Persisting stations serial message earlier point host) :
    ∃ P, Manned R stations P serial host := by
  cases point with
  | matching message' => exact ⟨_, h.2.2⟩
  | publishing message' rest => exact ⟨_, h.2.1⟩

theorem sat_dispatchCall (h : Manned R stations (fun st => Stationed st []) serial host) :
    (R.call serial (.dispatch message)).Sat
      (R.hostContract (stations.map Station.connection) true)
      (fun response host' => ∃ report, response = .dispatched (.ok report) ∧
        R.Persisting stations (serial + 1) message host'.outside.commands (.matching message)
          host') host := by
  have hserve : (serve R.router ⟨2 * serial, 0⟩ (R.order serial) (.dispatch message)).Sat
      (Router.contract R.router (solely (stations.map Station.connection) (2 * serial))
        (· ∈ stations.map Station.connection) ⟨2 * serial, 0⟩)
      (fun response s => ∃ report own found, response = .dispatched (.ok report) ∧
        Ready ⟨2 * serial, 0⟩ (own ++ [.returned ⟨2 * serial, 0⟩ response]) s ∧
        Fanout R.router ⟨2 * serial, 0⟩ message (· ∈ stations.map Station.connection) host.router
          [.began ⟨2 * serial, 0⟩ (.dispatch message)] own report found s) host.router :=
    sat_serve_dispatch (fun u c hu hc htouch => htouch.elim hu (fun hnot => hnot hc))
      (fun c => Or.inl rfl) h.unused.ready (fun c _ => Same.refl c _)
  refine Prog.sat_mono (sat_call (fun _ => trivial) (fun _ _ _ => trivial) h.unused
    (Prog.sat_meet hserve (Prog.sat_free _ _))) ?_
  rintro response host' _ ⟨⟨houtside, hunused⟩, ⟨report, own, found, hresponse, _, hfanout⟩, _⟩
  refine ⟨report, hresponse, rfl, rfl, h.destinations, houtside ▸ h.arranged, hunused,
    fun st hst => ?_⟩
  have hloaded := (h.stationed st hst).fanout (List.mem_map_of_mem hst) hfanout
  rw [houtside]
  simpa only [Loaded, h.arranged.route_mem_destinations hst] using hloaded

theorem manned_front {d : RouteDestination} {rest done : List RouteDestination}
    (h : Manned R stations (Loaded message (d :: rest)) serial host)
    (hdone : done ++ d :: rest = host.outside.destinations message) :
    ∃ st ∈ stations, st.route = d ∧ d ∉ rest ∧
      ∃ ids, Stationed st [⟨message, ids⟩] host.router := by
  have hnodup := h.arranged.nodup_destinations message
  rw [← hdone] at hnodup
  have hmem : d ∈ host.outside.destinations message := by
    rw [← hdone]
    exact List.mem_append_right _ (List.mem_cons_self ..)
  obtain ⟨st, hst, _, hroute⟩ := h.arranged.mem_destinations.mp hmem
  have hloaded := h.stationed st hst
  rw [Loaded, hroute, if_pos (List.mem_cons_self ..)] at hloaded
  exact ⟨st, hst, hroute, (List.nodup_cons.mp (List.nodup_append.mp hnodup).2.1).1, hloaded⟩

theorem manned_receive {d : RouteDestination} {rest done : List RouteDestination}
    (hinv : Router.Inv R.router (· ∈ stations.map Station.connection) host.router)
    (h : Manned R stations (Loaded message (d :: rest)) serial host)
    (hdone : done ++ d :: rest = host.outside.destinations message) :
    ∃ ids channel, (host.router.channels.lookup d.receiver).bind Channel.recv =
        some (⟨message, ids⟩, channel) ∧
      Router.Inv R.router (· ∈ stations.map Station.connection)
        { host.router with channels := host.router.channels.modify d.receiver (fun _ => channel) } ∧
      Guarantee (reaches (stations.map Station.connection)) (2 * 0) host.router
        { host.router with channels := host.router.channels.modify d.receiver (fun _ => channel) } ∧
      Manned R stations (Loaded message rest) serial { host with router :=
        { host.router with
          channels := host.router.channels.modify d.receiver (fun _ => channel) } } := by
  obtain ⟨st, hst, rfl, hrest, ids, hstationed⟩ := manned_front h hdone
  obtain ⟨channel, hrecv, hemptied⟩ := hstationed.receive
  have htouch : reaches (stations.map Station.connection) (⟨2 * 0, 0⟩ : CallId).thread
      st.connection := Or.inl rfl
  obtain ⟨hinv', hguarantee⟩ := channel_step (f := fun _ => channel) hinv htouch
    (fun channel' hlookup => by
      rw [hlookup, Option.bind_some] at hrecv
      exact Channel.log_recv hrecv)
  refine ⟨ids, channel, hrecv, hinv', hguarantee, h.destinations, h.arranged, h.unused,
    fun st' hst' => ?_⟩
  by_cases hconnection : st'.connection = st.connection
  · rw [h.arranged.eq_of_connection hst' hst hconnection, Loaded, if_neg hrest]
    exact hemptied
  · have hroute : st'.route ≠ st.route :=
      fun heq => hconnection (congrArg RouteDestination.receiver heq)
    exact ((h.stationed st' hst').tail hroute).same
      ⟨rfl, AList.lookup_modify_ne hconnection _ _, fun _ => rfl⟩

theorem publication_cases (record : DurableRecord) (topic : String) (maxRecordBytes : ℕ)
    (reply : Reply) : record.publication topic maxRecordBytes reply = (.ok (), true) ∨
      ∃ reason applied,
        record.publication topic maxRecordBytes reply = (.error reason, applied) := by
  unfold DurableRecord.publication
  dsimp only
  split_ifs
  · exact Or.inr ⟨_, _, rfl⟩
  · cases reply with
    | done => exact Or.inl rfl
    | failed error applied => exact Or.inr ⟨_, _, rfl⟩

theorem published_concat {done : List RouteDestination} {d : RouteDestination}
    {now : List DurableRecord} {record : DurableRecord} (h : R.Published message done earlier now)
    (hrecord : R.IsCommand message d record) :
    R.Published message (done ++ [d]) earlier (now ++ [record]) := by
  obtain ⟨commands, rfl, hcommands⟩ := h
  refine ⟨commands ++ [record], List.append_assoc .., ?_⟩
  exact List.rel_append hcommands (.cons hrecord .nil)

theorem sat_publishRecord {done rest : List RouteDestination} {d : RouteDestination}
    {record : DurableRecord} (hrecord : R.IsCommand message d record)
    (h : R.Taken stations serial message done d rest earlier host) :
    (R.publishRecord record >>= fun
      | .error e => (return .done (.error e) : SinkProg (Next PersistPoint (Except String Unit)))
      | .ok () => return .again (.publishing message rest)).Sat
      (R.hostContract (stations.map Station.connection) true)
      (R.PassPost stations serial message earlier) host := by
  refine Prog.sat_await (stable_taken done d rest) h (fun i host' hinv h' _ => ?_)
  obtain ⟨hmanned, hdone, hpublished⟩ := h'
  have hguarantee : ∀ commands,
      (R.hostContract (stations.map Station.connection) true).guarantee host'
        { host' with outside := { host'.outside with commands } } :=
    fun _ => ⟨⟨0, guarantee_refl _ _⟩, fun _ => rfl⟩
  dsimp only
  rcases publication_cases record R.webhooks.durable.deliveryTopic
    R.webhooks.durable.maxRecordBytes i.reply with hresult | ⟨reason, applied, hresult⟩
  · rw [hresult]
    refine ⟨hinv, hguarantee _, Prog.sat_ret (stable_passPost _) ⟨rfl, ?_, done ++ [d], ?_, ?_⟩⟩
    · exact ⟨hmanned.destinations, ⟨hmanned.arranged.connections, hmanned.arranged.nodup,
        hmanned.arranged.routes⟩, hmanned.unused, hmanned.stationed⟩
    · rw [List.append_assoc]
      exact hdone
    · exact published_concat hpublished hrecord
  · have hunpublished : R.Unpublished reason := ⟨record, i.reply, by rw [hresult]⟩
    rw [hresult]
    cases applied with
    | true => exact ⟨hinv, hguarantee _, Prog.sat_ret (stable_passPost _) hunpublished⟩
    | false => exact ⟨hinv, hguarantee _, Prog.sat_ret (stable_passPost _) hunpublished⟩

theorem sat_persistNext {d : RouteDestination} {rest : List RouteDestination}
    (h : R.Persisting stations serial message earlier (.publishing message (d :: rest)) host) :
    (R.persistNext message d rest).Sat (R.hostContract (stations.map Station.connection) true)
      (R.PassPost stations serial message earlier) host := by
  rw [persistNext, Router.receive, Prog.zoom_await]
  refine Prog.sat_await (stable_persisting (.publishing message (d :: rest))) h
    (fun i host₁ hinv₁ h₁ _ => ?_)
  obtain ⟨_, hmanned, done, hdone, hpublished⟩ := h₁
  obtain ⟨ids, channel, hrecv, hinv₂, hguarantee, hmanned₂⟩ := manned_receive hinv₁ hmanned hdone
  simp only [routerView, hrecv, ne_eq, not_true_eq_false, if_false]
  refine ⟨hinv₂, ⟨⟨0, hguarantee⟩, fun _ => rfl⟩, ?_⟩
  refine Prog.sat_await (stable_taken done d rest) ⟨hmanned₂, hdone, hpublished⟩
    (fun i host₃ hinv₃ h₃ _ => ⟨hinv₃, ⟨⟨0, guarantee_refl _ _⟩, fun _ => rfl⟩, ?_⟩)
  exact sat_publishRecord ⟨ids, i.uuid, i.now, rfl⟩ h₃

/-- Every pass of the sink leads to its next point, or has published one command for each of the
destinations, or reports that a publication failed. -/
theorem sat_sink (point : PersistPoint)
    (h : R.Persisting stations serial message earlier point host) :
    (R.sink.pass point).Sat (R.hostContract (stations.map Station.connection) true)
      (R.PassPost stations serial message earlier) host := by
  rcases point with message' | ⟨message', _ | ⟨d, rest⟩⟩
  · refine Prog.sat_access (stable_persisting (.matching message')) h (fun host' hinv' h' => ?_)
    obtain ⟨rfl, hcommands, hmanned⟩ := h'
    refine ⟨hinv', ⟨⟨0, guarantee_refl _ _⟩, fun _ => rfl⟩, Prog.sat_ret (stable_passPost _) ?_⟩
    refine ⟨rfl, hmanned, [], rfl, [], ?_, .nil⟩
    rw [List.append_nil]
    exact hcommands
  · obtain ⟨rfl, hmanned, done, hdone, hpublished⟩ := h
    refine Prog.sat_ret (stable_passPost _) ⟨⟨hmanned.destinations, hmanned.arranged,
      hmanned.unused, fun st hst => ?_⟩, ?_⟩
    · have hloaded := hmanned.stationed st hst
      rwa [Loaded, if_neg List.not_mem_nil] at hloaded
    · rw [List.append_nil] at hdone
      rwa [← hdone]
  · obtain rfl : message' = message := h.1
    exact sat_persistNext h

end WebhookRuntime
end KafkaEdgeRouter.Webhook
