import KafkaEdgeRouter.WebhookSessions

/-!
# The threads of the server

A stream with one subscription and a gRPC stream in both directions, each from the request to its
end, and what a request to publish and an ingested record do. A thread that is not admitted never
has a connection; one that is admitted gives its connection back, however it ends.
-/

namespace KafkaEdgeRouter.Stream

open Api Router

section Streams

variable {S : Service} {t n : ℕ} {order : HashOrder} {L : Ledger} {c : ConnectionId}
  {principal : Principal} {w : Server}

/-! ### Streams with one subscription -/

theorem sat_streamTurn {event : Delivery → Frame}
    (hevent : ∀ delivery, (event delivery).news = .delivered delivery) (turn : StreamTurn)
    (hw : Waiting t c principal n w) :
    (Service.streamTurn t event c () turn).Sat (S.protocol.contract t)
      (Prog.LoopPost (fun _ => Waiting t c principal n)
        (fun _ => Leaving t c principal False n)) w := by
  cases turn with
  | dropped => exact sat_over (stable_leaving t c principal False n) (hw.leaving False)
  | delivery =>
    obtain ⟨L, hL, hs⟩ := hw
    refine sat_recv hL.opened hL.shown hL.idle hs (fun w₁ _ hs₁ => ?_)
      (fun delivery w₁ _ hs₁ => ?_)
    · exact sat_over (stable_leaving t c principal False n)
        ⟨L.note .drained, L.held, hL.opened, excused_of_idle hL.idle False, hs₁⟩
    · exact sat_deliver hL (hevent delivery) hs₁
        (fun w₂ _ hw₂ => sat_waiting (stable_waiting t c principal n) hw₂)

theorem sat_streamSession {arrival : Arrival} {protocol : DeliveryProtocol}
    {response : SubscriptionId → Frame} {event : Delivery → Frame} {plan : ApiState.StreamPlan}
    {fields : FilterFields} (hadmits : S.Admits plan.principal arrival)
    (hclient : ∀ destination, arrival ≠ .webhook destination)
    (hplan : plan.filter = fields.forTenant plan.principal.tenantId)
    (hresponse : ∀ sid, (response sid).news = .added sid)
    (hevent : ∀ delivery, (event delivery).news = .delivered delivery) (script : List StreamTurn)
    (hinv : S.protocol.inv w) (hs : Stands t 0 (Ledger.arrive arrival) (Landless t) w) :
    (S.streamSession t order protocol response event plan fields script).Sat
      (S.protocol.contract t) (fun _ => Parted t False) w := by
  have hend : ∀ {c : ConnectionId} {w' : Server} (result : Except CoreError Unit),
      S.protocol.inv w' → Leaving t c plan.principal False 2 w' →
      (S.leaveStream t order 2 c >>= fun _ => pure result).Sat (S.protocol.contract t)
        (fun _ => Parted t False) w' := by
    intro c w' result hinv' hw'
    exact Prog.sat_bind hinv' (Prog.sat_mono (sat_leaveStream hinv' hw')
      (fun _ w₁ _ hw₁ => Prog.sat_ret (stable_parted t False) hw₁))
  refine Prog.sat_bind hinv (Prog.sat_mono (sat_register _ _ _ rfl rfl hs)
    (fun answer w₁ hinv₁ hopening => ?_))
  cases hregistration : registration answer with
  | error e =>
    rw [hregistration] at hopening
    exact Prog.sat_ret (stable_parted t False) hopening
  | ok c =>
    rw [hregistration] at hopening
    have hhead := atHead_opened hclient c plan.principal
    refine sat_note lasting_tenure (fun s htenure _ => faithful_opened hadmits htenure)
      (Or.inl rfl) hopening (fun w₂ hinv₂ hs₂ => ?_)
    refine sat_note lasting_tenure (fun _ _ hfaithful => hfaithful.takes (.stream fields))
      (Or.inl rfl) hs₂ (fun w₃ hinv₃ hs₃ => ?_)
    refine Prog.sat_bind hinv₃ (Prog.sat_mono (sat_change rfl (by simp [Ledger.note]) rfl
      (fun s hs => tended_subscribe hs plan.subscriptionId plan.filter) hs₃ rfl)
      (fun answer w₄ hinv₄ hs₄ => ?_))
    cases hsettled : settlement answer with
    | error e =>
      exact hend (.error e) hinv₄ ⟨_, ∅, (hhead.takes (.stream fields)).1,
        by simp [Ledger.Excused, Ledger.note], hs₄.unsettled hsettled⟩
    | ok result =>
      have hrequested := requested_eq (hhead.takes (.stream fields)).1
        (hhead.takes (.stream fields)).2 rfl
      rw [← hplan] at hrequested
      refine sat_reply hhead (fun delivery => ?_) (answered_added (response plan.subscriptionId)
        hrequested (hresponse _) (hs₄.settled hsettled)) (fun w₅ hinv₅ hw₅ => ?_)
      · rw [hresponse]
        simp
      · refine Prog.sat_bind hinv₅ (Prog.sat_mono (Prog.sat_follow
          (I := fun _ => Waiting t c plan.principal 2)
          (Q := fun _ => Leaving t c plan.principal False 2)
          (fun _ => stable_leaving t c plan.principal False 2)
          (fun _ turn w' _ hw' => sat_streamTurn hevent turn hw') script () hinv₅ hw₅)
          (fun _ w₆ hinv₆ hw₆ => ?_))
        exact hend (.ok ()) hinv₆ hw₆

/-! ### gRPC streams in both directions -/

/-- After a gRPC command: the client will be told what has changed, or nothing has changed. -/
def Replied (t n : ℕ) (c : ConnectionId) (principal : Principal) (L : Ledger) :
    Except Status ServerEvent → Server → Prop
  | .ok event => fun w => Answered t n c principal L (.grpc (.event event)) w ∧
      ∀ delivery, event ≠ .message delivery
  | .error _ => Stands t n L (Tenure t c principal.tenantId L.held L.taken false)

theorem stable_replied (result : Except Status ServerEvent) :
    (S.protocol.contract t).Stable (Replied t n c principal L result) := by
  cases result with
  | ok event =>
    exact fun w w' hi hi' hd h => ⟨stable_stands lasting_tenure w w' hi hi' hd h.1, h.2⟩
  | error status => exact stable_stands lasting_tenure

theorem sat_refuse (status : Status) {n' : ℕ} (hn : n' ≤ n)
    (hs : Stands t n' L (Tenure t c principal.tenantId L.held L.taken false) w) :
    (pure (.error status) : ServerProg (Except Status ServerEvent)).Sat (S.protocol.contract t)
      (Replied t n c principal L) w :=
  Prog.sat_ret (stable_replied _) (hs.mono hn)

theorem news_ack_subscribed (sid : SubscriptionId) :
    (Frame.grpc (.event (.ack "subscribed" sid.value))).news = .added sid := rfl

theorem news_ack_unsubscribed (sid : SubscriptionId) :
    (Frame.grpc (.event (.ack "unsubscribed" sid.value))).news = .removed sid := rfl

theorem news_ne_delivered {event : ServerEvent} (h : ∀ delivery, event ≠ .message delivery)
    (delivery : Delivery) : (Frame.grpc (.event event)).news ≠ .delivered delivery := by
  cases event with
  | message delivery => exact absurd rfl (h delivery)
  | ack operation subscriptionId =>
    simp only [Frame.news]
    split_ifs <;> simp
  | pong opaqueText => simp [Frame.news]

theorem sat_grpcSubscribe {subscriptionId : String} {filter : Option ProtoRouteFilter}
    (hopened : L.opened = some (c, principal))
    (hhandling : L.handling = some (.grpc (.subscribe subscriptionId filter)))
    (hserving : L.drained = false) (hinv : S.protocol.inv w)
    (hs : Stands t n L (Tenure t c principal.tenantId L.held L.taken false) w) :
    (S.grpcSubscribe t order n principal c subscriptionId filter).Sat (S.protocol.contract t)
      (Replied t (n + 1) c principal L) w := by
  have hbusy : L.handling ≠ none := by
    rw [hhandling]
    simp
  unfold Service.grpcSubscribe
  cases SubscriptionId.new subscriptionId with
  | error e => exact sat_refuse _ (Nat.le_succ n) hs
  | ok sid =>
    cases filter with
    | none => exact sat_refuse _ (Nat.le_succ n) hs
    | some input =>
      dsimp only
      cases hfilter : protoFilter input principal with
      | error e => exact sat_refuse _ (Nat.le_succ n) hs
      | ok filter =>
        have hrequested : L.requested = some filter := by
          rw [protoFilter_eq_ok hfilter]
          exact requested_eq hopened hhandling rfl
        refine Prog.sat_bind hinv (Prog.sat_mono (sat_change hopened hbusy hserving
          (fun s hs => tended_subscribe hs sid filter) hs rfl) (fun response w₁ _ hs₁ => ?_))
        cases hsettled : settlement response with
        | error e => exact sat_refuse _ (Nat.le_refl _) (hs₁.unsettled hsettled)
        | ok result =>
          exact Prog.sat_ret (stable_replied _) ⟨answered_added _ hrequested
            (news_ack_subscribed sid) (hs₁.settled hsettled), by simp⟩

theorem sat_grpcUnsubscribe {subscriptionId : String}
    (hopened : L.opened = some (c, principal)) (hhandling : L.handling ≠ none)
    (hserving : L.drained = false) (hinv : S.protocol.inv w)
    (hs : Stands t n L (Tenure t c principal.tenantId L.held L.taken false) w) :
    (S.grpcUnsubscribe t order n c subscriptionId).Sat (S.protocol.contract t)
      (Replied t (n + 1) c principal L) w := by
  unfold Service.grpcUnsubscribe
  cases SubscriptionId.new subscriptionId with
  | error e => exact sat_refuse _ (Nat.le_succ n) hs
  | ok sid =>
    refine Prog.sat_bind hinv (Prog.sat_mono (sat_change hopened hhandling hserving
      (fun s hs => tended_unsubscribe hs sid) hs rfl) (fun response w₁ _ hs₁ => ?_))
    cases hsettled : settlement response with
    | error e => exact sat_refuse _ (Nat.le_refl _) (hs₁.unsettled hsettled)
    | ok result =>
      exact Prog.sat_ret (stable_replied _) ⟨answered_removed _ (news_ack_unsubscribed sid)
        (hs₁.settled hsettled), by simp⟩

theorem sat_connectCommand {command : ClientCommand} (hopened : L.opened = some (c, principal))
    (hhandling : L.handling = some (.grpc command)) (hserving : L.drained = false)
    (hinv : S.protocol.inv w)
    (hs : Stands t n L (Tenure t c principal.tenantId L.held L.taken false) w) :
    (S.connectCommand t order n principal c command).Sat (S.protocol.contract t)
      (Replied t (n + 1) c principal L) w := by
  refine Prog.sat_bind hinv (Prog.sat_mono (sat_allowRate lasting_tenure _ _ hs)
    (fun allowed w₁ hinv₁ hs₁ => ?_))
  cases allowed with
  | false => exact sat_refuse _ (Nat.le_succ n) hs₁
  | true =>
    cases command with
    | subscribe subscriptionId filter =>
      exact sat_grpcSubscribe hopened hhandling hserving hinv₁ hs₁
    | unsubscribe subscriptionId =>
      exact sat_grpcUnsubscribe hopened (by simp [hhandling]) hserving hinv₁ hs₁
    | ping opaqueText =>
      exact Prog.sat_ret (stable_replied (.ok (.pong opaqueText)))
        ⟨hs₁.mono (Nat.le_succ n), by simp⟩
    | none => exact sat_refuse _ (Nat.le_succ n) hs₁

def Failed (result : Except Status Unit) : Prop := ∃ status, result = .error status

theorem sat_connectTurn (n : ℕ) (turn : ConnectTurn) (hw : Waiting t c principal n w) :
    (S.connectTurn t order principal c n turn).Sat (S.protocol.contract t)
      (Prog.LoopPost (Waiting t c principal) (fun (result : ℕ × Except Status Unit) =>
        Leaving t c principal (Failed result.2) result.1)) w := by
  have hover : ∀ (result : Except Status Unit) {n' : ℕ} {w' : Server},
      Leaving t c principal (Failed result) n' w' →
      (pure (.done (n', result)) : ServerProg (Next ℕ (ℕ × Except Status Unit))).Sat
        (S.protocol.contract t) (Prog.LoopPost (Waiting t c principal)
          (fun (result : ℕ × Except Status Unit) =>
            Leaving t c principal (Failed result.2) result.1)) w' :=
    fun result {n'} _ hw' => sat_over (stable_leaving t c principal (Failed result) n') hw'
  have hw₀ := hw
  obtain ⟨L, hL, hs⟩ := hw
  cases turn with
  | finished => exact hover _ (hw₀.leaving _)
  | failed status => exact hover _ (hw₀.leaving _)
  | dropped => exact hover _ (hw₀.leaving _)
  | delivery =>
    refine sat_recv hL.opened hL.shown hL.idle hs (fun w₁ _ hs₁ => ?_)
      (fun delivery w₁ _ hs₁ => ?_)
    · exact hover _ ⟨L.note .drained, L.held, hL.opened, excused_of_idle hL.idle _, hs₁⟩
    · exact sat_deliver hL rfl hs₁
        (fun w₂ _ hw₂ => sat_waiting (stable_waiting t c principal n) hw₂)
  | command command =>
    refine sat_note lasting_tenure (fun _ _ hfaithful => hfaithful.takes (.grpc command))
      (Or.inl hL.idle) hs (fun w₁ hinv₁ hs₁ => ?_)
    refine Prog.sat_bind hinv₁ (Prog.sat_mono (sat_connectCommand
      (L := L.note (.takes (.grpc command))) hL.opened rfl hL.serving hinv₁ hs₁)
      (fun result w₂ _ hw₂ => ?_))
    cases result with
    | error status =>
      exact hover _ ⟨L.note (.takes (.grpc command)), _, hL.opened, fun _ _ => ⟨status, rfl⟩, hw₂⟩
    | ok event =>
      exact sat_reply hL (news_ne_delivered hw₂.2) hw₂.1
        (fun w₃ _ hw₃ => sat_waiting (stable_waiting t c principal (n + 1)) hw₃)

theorem sat_connectSession {arrival : Arrival} (hadmits : S.Admits principal arrival)
    (hclient : ∀ destination, arrival ≠ .webhook destination) (script : List ConnectTurn)
    (hinv : S.protocol.inv w)
    (hs : Stands t 0 (Ledger.arrive arrival) (Landless t) w) :
    (S.connectSession t order principal script).Sat (S.protocol.contract t)
      (fun result => Parted t (Failed result)) w := by
  refine Prog.sat_bind hinv (Prog.sat_mono (sat_register _ _ _ rfl rfl hs)
    (fun answer w₁ hinv₁ hopening => ?_))
  cases hregistration : registration answer with
  | error e =>
    rw [hregistration] at hopening
    exact Prog.sat_ret (stable_parted t _) (hopening.mono False.elim)
  | ok c =>
    rw [hregistration] at hopening
    refine sat_note lasting_tenure (fun s htenure _ => faithful_opened hadmits htenure)
      (Or.inl rfl) hopening (fun w₂ hinv₂ hs₂ => ?_)
    refine Prog.sat_bind hinv₂ (Prog.sat_mono (Prog.sat_follow
      (fun result : ℕ × Except Status Unit =>
        stable_leaving t c principal (Failed result.2) result.1)
      (fun n turn w' _ hw' => sat_connectTurn n turn hw') script 1 hinv₂
      ⟨_, atHead_opened hclient c principal, hs₂⟩) (fun result w₃ hinv₃ hw₃ => ?_))
    exact Prog.sat_bind hinv₃ (Prog.sat_mono (sat_leaveStream hinv₃ hw₃)
      (fun _ w₄ _ hw₄ => Prog.sat_ret (stable_parted t _) hw₄))

end Streams

/-! ### Requests -/

section Requests

variable {state : ApiState} {now : ℕ} {plan : ApiState.StreamPlan}

theorem sse_filter {headers : Credentials} {lastEventId : HeaderValue} {query : SseQuery}
    (h : state.sse now headers lastEventId query = .ok plan) :
    plan.filter = query.toFilterFields.forTenant plan.principal.tenantId := by
  obtain ⟨principal, _, h⟩ := bind_eq_ok.mp h
  obtain ⟨_, h⟩ := check_eq_ok.mp h
  obtain ⟨_, h⟩ := check_eq_ok.mp h
  obtain ⟨⟨filter, subscriptionId, capacity⟩, hfilter, h⟩ := bind_eq_ok.mp h
  obtain ⟨sid, _, h⟩ := bind_eq_ok.mp h
  obtain ⟨queueCapacity, _, h⟩ := bind_eq_ok.mp h
  obtain ⟨filter', hfilter', hrest⟩ := bind_eq_ok.mp hfilter
  obtain ⟨rfl, _⟩ := Prod.mk.inj (Except.ok.inj hrest)
  rw [← Except.ok.inj h]
  exact intoFilter_eq_ok hfilter'

theorem subscribe_filter {metadata : Credentials} {request : SubscribeRequest}
    (h : state.subscribe now metadata request = .ok plan) :
    plan.filter =
      (request.filter.getD {}).toFilterFields.forTenant plan.principal.tenantId := by
  obtain ⟨principal, _, h⟩ := bind_eq_ok.mp h
  obtain ⟨_, h⟩ := check_eq_ok.mp h
  cases hrequest : request.filter with
  | none =>
    rw [hrequest] at h
    cases h
  | some input =>
    rw [hrequest] at h
    obtain ⟨_, hinput, h⟩ := bind_eq_ok.mp h
    obtain ⟨filter, hfilter, h⟩ := bind_eq_ok.mp h
    obtain ⟨sid, _, h⟩ := bind_eq_ok.mp h
    obtain ⟨queueCapacity, _, h⟩ := bind_eq_ok.mp h
    rw [← Except.ok.inj h]
    rw [← Except.ok.inj hinput] at hfilter
    exact protoFilter_eq_ok (mapError_eq_ok.mp hfilter)

end Requests

/-! ### Threads -/

section Threads

variable {S : Service} {t : ℕ} {order : HashOrder} {w : Server}

theorem stands_fresh (hfresh : S.protocol.fresh t w) : Stands t 0 {} (Landless t) w := by
  obtain ⟨hlock, hevents, htranscript⟩ := hfresh
  refine ⟨by rw [htranscript]; rfl, ⟨hlock, fun e he ht => absurd ht (hevents e he)⟩, ?_⟩
  rintro c ⟨serial, tenantId, hmem⟩
  exact hevents _ hmem rfl

theorem sat_arrive {α : Type} {Q : α → Server → Prop} {k : Unit → ServerProg α}
    (arrival : Arrival) (hfresh : S.protocol.fresh t w)
    (h : ∀ w', S.protocol.inv w' → Stands t 0 (Ledger.arrive arrival) (Landless t) w' →
      (k ()).Sat (S.protocol.contract t) Q w') :
    (note t (.arrived arrival) >>= k).Sat (S.protocol.contract t) Q w := by
  refine sat_note lasting_landless (fun s _ _ => ?_) (Or.inl rfl) (stands_fresh hfresh) h
  refine ⟨⟨fun _ _ hopened => ?_, fun _ _ hl => ?_, Or.inl rfl, fun _ => rfl,
    orderly_arrive arrival⟩, fun _ _ hopened => ?_⟩
  · cases hopened
  · cases hl
  · cases hopened

theorem sat_landless {α : Type} {L : Ledger} {n : ℕ} {failed : α → Prop} (a : α)
    (hidle : L.handling = none) (hs : Stands t n L (Landless t) w) :
    (pure a : ServerProg α).Sat (S.protocol.contract t) (fun a => Parted t (failed a)) w :=
  Prog.sat_ret (stable_parted t (failed a))
    (hs.parted (fun _ h => h.retired) (excused_of_idle hidle (failed a)))

/-- What is stored for a request was published for it. -/
theorem sat_publish {now : ℕ} {uuid : String} {credentials : Credentials}
    {publication : Publication} (placed : Option (KafkaPosition × Option ℤ))
    (answer : Except Kafka.KafkaError Kafka.Delivery) (hs : Stands t 0 {} (Landless t) w) :
    (S.publish now uuid credentials publication placed answer).Sat (S.protocol.contract t)
      (fun _ => Parted t False) w := by
  refine sat_aside lasting_landless (fun draw w' => ⟨rfl, rfl, id, rfl⟩) hs
    (fun result w₁ hresult _ hs₁ => ?_)
  cases result with
  | error e =>
    cases e with
    | rateLimited =>
      exact sat_aside lasting_landless
        (fun _ w' => ⟨rfl, rfl, Counters.recordSecurityLimitRejection, rfl⟩) hs₁
        (fun _ w₂ _ _ hs₂ => sat_landless _ rfl hs₂)
    | _ => exact sat_landless _ rfl hs₁
  | ok handed =>
    obtain ⟨draw, w₀, hhanded⟩ := hresult
    dsimp only
    cases hsending : handed.publisher.publish S.api.parseMime handed.command with
    | error e => exact sat_landless _ rfl hs₁
    | ok sending =>
      cases placed with
      | none => exact sat_landless _ rfl hs₁
      | some place =>
        have hpublished : S.Published ⟨place.1, sending.record.consumed place.2, true⟩ :=
          ⟨_, credentials, publication, _, handed, sending, place.2, hhanded, hsending, rfl⟩
        exact sat_store lasting_landless (fun _ => hpublished) hs₁
          (fun w₂ _ hs₂ => sat_landless _ rfl hs₂)

/-- What is dispatched was decoded from a record. -/
theorem sat_ingest (index : ℕ) (hs : Stands t 0 {} (Landless t) w) :
    (S.ingest t order index).Sat (S.protocol.contract t) (fun _ => Parted t False) w := by
  refine sat_fetch lasting_landless hs (fun w₁ _ hs₁ => sat_landless _ rfl hs₁)
    (fun stored w₁ hinv₁ hs₁ hstored => ?_)
  dsimp only
  cases hdecode : S.decode stored with
  | error e => exact sat_landless _ rfl hs₁
  | ok message =>
    have hsourced : S.Sourced w₁.topic (.dispatch message) := by
      intro message' heq
      cases heq
      exact ⟨stored, hstored, hdecode⟩
    refine Prog.sat_bind hinv₁ (Prog.sat_mono (sat_plain (fun s hs => tended_dispatch hs) hs₁
      (fun _ _ => trivial) (by simp) (fun _ => id) (by simp) hsourced)
      (fun response w₂ _ hs₂ => ?_))
    exact sat_landless _ rfl hs₂

def Ending.Failed (ending : Ending) : Prop := ∃ status, ending = .grpc (.error status)

/-- Every thread keeps the protocol of the server and leaves no connection behind. -/
theorem sat_thread (task : HashOrder × Task) (hinv : S.protocol.inv w)
    (hfresh : S.protocol.fresh t w) :
    (S.thread t task).Sat (S.protocol.contract t) (fun ending => Parted t ending.Failed) w := by
  obtain ⟨order, task⟩ := task
  have hover : ∀ {α : Type} {p : ServerProg α} {f : α → Ending} {w' : Server},
      S.protocol.inv w' → p.Sat (S.protocol.contract t) (fun _ => Parted t False) w' →
      (p >>= fun a => pure (f a)).Sat (S.protocol.contract t)
        (fun ending => Parted t ending.Failed) w' :=
    fun hinv' hp => Prog.sat_bind hinv' (Prog.sat_mono hp
      (fun _ _ _ hw => Prog.sat_ret (stable_parted t _) (hw.mono False.elim)))
  cases task with
  | websocket now headers query script =>
    refine sat_arrive _ hfresh (fun w₁ hinv₁ hs₁ => ?_)
    cases hplan : S.api.websocket now headers query with
    | error e => exact sat_landless _ rfl hs₁
    | ok plan =>
      have hadmits : S.Admits plan.1 (.websocket now headers query) := ⟨plan.2, hplan⟩
      exact hover hinv₁ (sat_websocketSession hadmits (by simp) plan.2 script hinv₁ hs₁)
  | sse now headers lastEventId query script =>
    refine sat_arrive _ hfresh (fun w₁ hinv₁ hs₁ => ?_)
    cases hplan : S.api.sse now headers lastEventId query with
    | error e => exact sat_landless _ rfl hs₁
    | ok plan =>
      have hadmits : S.Admits plan.principal (.sse now headers lastEventId query) :=
        ⟨plan, hplan, rfl⟩
      refine hover hinv₁ (Prog.sat_bind hinv₁ (Prog.sat_mono (sat_streamSession hadmits
        (by simp) (sse_filter hplan) ?_ ?_ script hinv₁ hs₁) ?_))
      · exact fun _ => rfl
      · exact fun _ => rfl
      · exact fun _ _ _ hw => Prog.sat_ret (stable_parted t False) hw
  | subscribe now metadata request script =>
    refine sat_arrive _ hfresh (fun w₁ hinv₁ hs₁ => ?_)
    cases hplan : S.api.subscribe now metadata request with
    | error e => exact sat_landless _ rfl hs₁
    | ok plan =>
      have hadmits : S.Admits plan.principal (.subscribe now metadata request) :=
        ⟨plan, hplan, rfl⟩
      refine hover hinv₁ (Prog.sat_bind hinv₁ (Prog.sat_mono (sat_streamSession hadmits
        (by simp) (subscribe_filter hplan) ?_ ?_ script hinv₁ hs₁) ?_))
      · exact fun _ => rfl
      · exact fun _ => rfl
      · exact fun _ _ _ hw => Prog.sat_ret (stable_parted t False) hw
  | connect now metadata script =>
    refine sat_arrive _ hfresh (fun w₁ hinv₁ hs₁ => ?_)
    cases hplan : S.api.connect now metadata with
    | error e => exact sat_landless _ rfl hs₁
    | ok principal =>
      have hadmits : S.Admits principal (.connect now metadata) := hplan
      refine Prog.sat_bind hinv₁ (Prog.sat_mono (sat_connectSession hadmits (by simp) script
        hinv₁ hs₁) (fun result w₂ _ hw₂ => Prog.sat_ret (stable_parted t _) (hw₂.mono ?_)))
      rintro ⟨status, rfl⟩
      exact ⟨status, rfl⟩
  | webhook destination checked script =>
    refine sat_arrive _ hfresh (fun w₁ hinv₁ hs₁ => ?_)
    cases checked with
    | error e => exact sat_landless _ rfl hs₁
    | ok => exact hover hinv₁ (sat_webhookSession script hinv₁ hs₁)
  | publish now uuid credentials publication placed answer =>
    exact hover hinv (sat_publish placed answer (stands_fresh hfresh))
  | produce position record =>
    exact sat_store lasting_landless (by simp) (stands_fresh hfresh)
      (fun w₁ _ hs₁ => sat_landless _ rfl hs₁)
  | ingest index => exact hover hinv (sat_ingest index (stands_fresh hfresh))

end Threads
end KafkaEdgeRouter.Stream
