import KafkaEdgeRouter.ConcurrentDispatch

/-!
# Every call keeps the protocol

From its beginning to its return every call of the router keeps the protocol of concurrent calls, so
the invariant holds in every state that a pool of any number of calls reaches.
-/

namespace KafkaEdgeRouter.Router

open History InvertedIndex

section Calls

variable {config : RouterConfig} {touches : ℕ → ConnectionId → Prop} {call : CallId}
  {reserved D : ConnectionId → Prop} {s₀ s : Shared} {own : List Event}
  {message : RoutedMessage} {order : HashOrder}

theorem sat_dispatch (hothers : ∀ u c, u ≠ call.thread → D c → ¬ touches u c)
    (htouch : ∀ c, touches call.thread c) (hbegan : .began call (.dispatch message) ∈ own)
    (hown : ∀ c, offersTo c own = []) (hs : Ready call own s)
    (hk : Kept D s₀ s) :
    (dispatch config call order message).Sat (contract config touches reserved call)
      (DispatchPost config call message D s₀ own) s := by
  refine sat_ready_count hothers hs hk (fun s₁ hinv₁ hs₁ hk₁ => ?_)
  refine sat_collectCandidates hothers hbegan _ (fun _ hk => hk) hinv₁ hs₁ hk₁ collected_empty ?_
  intro found s₂ hinv₂ hs₂ hk₂ hc₂
  rw [List.nil_append] at hc₂
  have hperm := order.connections.perm found.pairs
  have hnodup : ((order.connections.arrange found.pairs).map Prod.fst).Nodup :=
    (hperm.map Prod.fst).nodup_iff.mpr found.nodup_pairs_fst
  have hcount : ([] : List (ConnectionId × List SubscriptionId)).length +
      (order.connections.arrange found.pairs).length = found.size := by
    rw [hperm.length_eq, AList.pairs_length]
    exact Nat.zero_add _
  have hstart : Progress config call message D s₀ (matchedSubscriptions found) [] []
      { matchedSubscriptions := matchedSubscriptions found } [] s₀ := progress_start
  refine sat_offerAll hothers htouch hbegan hown (order.connections.arrange found.pairs) hcount
    hnodup (fun _ => rfl) hinv₂ (by rwa [List.append_nil]) hk₂ ?_ hstart ?_
  · rintro ⟨c, ids⟩ he
    have hl := AList.mem_pairs.mp (hperm.mem_iff.mp he)
    exact ⟨hc₂.nonempty c ids hl, hc₂.served c ids hl⟩
  intro report disconnect offers s₃ s₁' hinv₃ hs₃ hk₃ hp
  rw [List.nil_append] at hp
  refine sat_disconnectAll (D := fun c => D c ∧ c ∉ disconnect)
    (fun u c hu hD => hothers u c hu hD.1) htouch order disconnect (fun c hc hD => hD.2 hc) hinv₃
    hs₃ (fun c hD => hk₃ c hD.1) ?_
  intro removals s₄ hremovals hinv₄ hs₄ hk₄
  refine sat_ready_count (fun u c hu hD => hothers u c hu hD.1) hs₄ hk₄ (fun s₅ _ hs₅ hk₅ => ?_)
  exact Prog.sat_ret (stable_dispatchPost hothers _) ⟨report, _, found, rfl, hs₅,
    fanout_of_progress hperm hc₂ hown hp hremovals hk₅⟩

theorem channel_step (hinv : Inv config reserved s) {c : ConnectionId}
    (htouch : touches call.thread c) {f : Channel Delivery → Channel Delivery}
    (hlog : ∀ channel, s.channels.lookup c = some channel → (f channel).log = channel.log) :
    Inv config reserved { s with channels := s.channels.modify c f } ∧
      Guarantee touches call.thread s { s with channels := s.channels.modify c f } := by
  have hB := hinv.base
  have hkeys : ∀ c', c' ∈ s.channels.modify c f ↔ c' ∈ s.channels := fun c' => AList.mem_modify ..
  refine ⟨⟨⟨fun c' hc => (hkeys c').mpr (hB.channel_of_connection c' hc),
    fun registrar c' tenantId h =>
      (hkeys c').mpr (hB.channel_of_registered registrar c' tenantId h),
    hB.registered, hB.filled, hB.live, hB.justified, fun c' channel' hl => ?_⟩, hinv.reachable,
    fun c' hc => (hkeys c').mpr (hinv.reserved c' hc)⟩, Or.inl rfl, fun _ => rfl,
    ⟨[], by simp, by simp, by simp⟩, fun c' hc => (hkeys c').mpr hc, fun c' hnt => ?_⟩
  · rw [AList.lookup_modify] at hl
    obtain ⟨channel, hl', rfl⟩ := Option.map_eq_some_iff.mp hl
    rw [← hB.log c' channel hl']
    split_ifs with hcc
    · subst c'
      exact hlog channel hl'
    · rfl
  · have hne : c' ≠ c := fun heq => hnt (heq ▸ htouch)
    exact ⟨rfl, AList.lookup_modify_ne hne _ _, fun _ => rfl⟩

theorem stable_returns (hothers : ∀ u c, u ≠ call.thread → D c → ¬ touches u c) {α : Type}
    (Post : α → List Event → Prop) (a : α) :
    (contract config touches reserved call).Stable (Returns call D s₀ Post a) := by
  rintro s s' hi hi' hd ⟨own', hs, hk, hp⟩
  exact ⟨own', stable_ready _ _ _ hi hi' hd hs, stable_kept s₀ hothers _ _ hi hi' hd hk, hp⟩

/-- The thread may touch what its request is about. -/
def Permitted (touches : ℕ → ConnectionId → Prop) (reserved : ConnectionId → Prop) (t : ℕ) :
    Request → Prop
  | .register _ _ _ => ∀ id, ¬ reserved id → touches t id
  | .subscribe c _ _ => touches t c
  | .unsubscribe c _ => touches t c
  | .unregister c => touches t c
  | .dispatch _ => ∀ c, touches t c
  | .receive c => touches t c
  | .close c => touches t c

/-- A call that has subscribed reports success. -/
def Reports (call : CallId) (response : Response) (own : List Event) : Prop :=
  ∀ c sid filter, .subscribed call c sid filter ∈ own → response = .settled (.ok ())

theorem sat_perform (order : HashOrder) {request : Request}
    (hp : Permitted touches reserved call.thread request) (hinv : Inv config reserved s)
    (hs : Ready call [.began call request] s) :
    (perform config call order request).Sat (contract config touches reserved call)
      (Returns call (fun _ => False) s (Reports call)) s := by
  have hothers : ∀ u c, u ≠ call.thread → False → ¬ touches u c := fun _ _ _ h => h.elim
  have hk : Kept (fun _ => False) s s := fun _ h => h.elim
  have hrights : ∀ c, touches call.thread c →
      Rights touches call (fun _ => False) (fun c' => c' = c) :=
    fun c htouch => ⟨hothers, fun c' heq => heq ▸ htouch, fun _ h => h.elim⟩
  have hreturn : ∀ response s' own', Ready call own' s' → Reports call response own' →
      (Prog.ret response : RouterProg Response).Sat (contract config touches reserved call)
        (Returns call (fun _ => False) s (Reports call)) s' :=
    fun response s' own' hs' hr => Prog.sat_ret (stable_returns hothers _ _)
      ⟨own', hs', fun _ h => h.elim, hr⟩
  cases request with
  | register tenantId protocol queueCapacity =>
    refine Prog.sat_bind hinv (Prog.sat_mono (sat_registerConnection
      ⟨hothers, fun _ h => h.elim, fun _ h => h.elim⟩ hp (fun _ h => h.elim) queueCapacity hs hk)
      ?_)
    rintro result s' _ ⟨own', hs', _, rfl⟩
    refine hreturn _ s' _ hs' (fun c sid filter hmem => ?_)
    cases result <;> simp [registerEvents] at hmem
  | subscribe c sid filter =>
    refine Prog.sat_bind hinv (Prog.sat_mono (sat_subscribe (hrights c hp) hs hk
      (List.mem_singleton.mpr rfl) (by simp)) ?_)
    rintro result s' _ ⟨own', hs', _, rfl⟩
    refine hreturn _ s' _ hs' (fun c' sid' filter' hmem => ?_)
    cases result with
    | error e => simp [subscribeEvents] at hmem
    | ok _ => rfl
  | unsubscribe c sid =>
    refine Prog.sat_bind hinv (Prog.sat_mono (sat_unsubscribe (hrights c hp) hs hk) ?_)
    rintro result s' _ ⟨own', hs', _, rfl⟩
    refine hreturn _ s' _ hs' (fun c' sid' filter' hmem => ?_)
    cases result <;> simp [unsubscribeEvents] at hmem
  | unregister c =>
    refine Prog.sat_bind hinv (Prog.sat_mono
      (sat_unregisterConnection (hrights c hp) order hs hk) ?_)
    rintro removed s' _ ⟨own', hs', _, rfl⟩
    refine hreturn _ s' _ hs' (fun c' sid' filter' hmem => ?_)
    cases removed <;> simp [unregisterEvents] at hmem
  | dispatch message =>
    refine Prog.sat_bind hinv (Prog.sat_mono (sat_dispatch (D := fun _ => False) hothers hp
      (List.mem_singleton.mpr rfl) (fun c => rfl) hs hk) ?_)
    rintro result s' _ ⟨report, own', found, rfl, hs', hf⟩
    refine hreturn _ s' _ hs' (fun c sid filter hmem => ?_)
    simpa using hf.unsubscribed _ c sid filter hmem
  | receive c =>
    refine Prog.sat_await (stable_ready [.began call (.receive c)]) hs ?_
    intro _ s' hinv' hs' _
    have hreports : ∀ delivery, Reports call (.received delivery) [.began call (.receive c)] :=
      fun _ c' sid filter hmem => by simp at hmem
    cases hrecv : (s'.channels.lookup c).bind Channel.recv with
    | none => exact ⟨hinv', guarantee_refl _ s', hreturn _ s' _ hs' (hreports _)⟩
    | some result =>
      obtain ⟨channel, hl, hch⟩ := Option.bind_eq_some_iff.mp hrecv
      obtain ⟨hinv'', hguar⟩ := channel_step (f := fun _ => result.2) hinv' hp (by
        intro channel' hl'
        rw [hl] at hl'
        rw [← Option.some.inj hl']
        exact Channel.log_recv hch)
      exact ⟨hinv'', hguar, hreturn _ _ _ ⟨hs'.lock, hs'.own⟩ (hreports _)⟩
  | close c =>
    refine Prog.sat_access (stable_ready [.began call (.close c)]) hs ?_
    intro s' hinv' hs'
    obtain ⟨hinv'', hguar⟩ := channel_step (f := Channel.close) hinv' hp
      (fun channel _ => Channel.log_close channel)
    exact ⟨hinv'', hguar, hreturn _ _ _ ⟨hs'.lock, hs'.own⟩ (fun c' sid filter hmem => by
      simp at hmem)⟩

theorem record_step (touches : ℕ → ConnectionId → Prop) (hinv : Inv config reserved s)
    {e : Event} (hcall : e.call = call) (haccount : Account s.history e)
    (hends : ∀ c sid, ¬ e.ends c sid)
    (hregistered : ∀ registrar c tenantId, e ≠ .registered registrar c tenantId)
    (haccepted : ∀ c, e.acceptedBy c = none) :
    Inv config reserved (s.log [e]) ∧ Guarantee touches call.thread s (s.log [e]) := by
  refine ⟨⟨hinv.base.record haccount (fun _ c sid _ => hends c sid)
    (fun registrar c tenantId heq => absurd heq (hregistered registrar c tenantId)) haccepted,
    hinv.reachable, hinv.reserved⟩, Or.inl rfl, fun _ => rfl, ⟨[e], rfl, ?_, ?_⟩, fun _ h => h,
    fun c _ => ⟨rfl, rfl, fun _ => rfl⟩⟩
  · intro e' he'
    rw [List.mem_singleton.mp he', hcall]
  · intro _ e' he'
    rw [List.mem_singleton.mp he']
    exact hends

theorem ready_record {e : Event} (hs : Ready call own s) (hcall : e.call = call) :
    Ready call (own ++ [e]) (s.log [e]) := by
  refine ⟨hs.lock, ?_⟩
  rw [← hs.own]
  exact ownEvents_append rfl (by simpa using hcall)

theorem account_began (request : Request) (hs : Ready call [] s) :
    Account s.history (.began call request) := by
  intro e he heq
  have hmem : e ∈ ownEvents call s := List.mem_filter.mpr ⟨he, by simpa using heq⟩
  rw [hs.own] at hmem
  cases hmem

theorem sat_serve_ready {request : Request}
    (hp : Permitted touches reserved call.thread request) (hs : Ready call [] s) :
    (serve config call order request).Sat (contract config touches reserved call)
      (fun _ s' => ∃ own, Ready call own s') s := by
  refine Prog.sat_access (stable_ready []) hs (fun s₁ hinv₁ hs₁ => ?_)
  obtain ⟨hinv₂, hguar₂⟩ := record_step touches hinv₁ rfl (account_began request hs₁)
    (fun _ _ h => h) (by simp) (fun _ => rfl)
  refine ⟨hinv₂, hguar₂, ?_⟩
  refine Prog.sat_bind hinv₂ (Prog.sat_mono
    (sat_perform order hp hinv₂ (ready_record hs₁ rfl)) ?_)
  rintro response s₃ _ ⟨own₃, hs₃, _, hreports⟩
  refine Prog.sat_access (stable_ready own₃) hs₃ (fun s₄ hinv₄ hs₄ => ?_)
  have haccount : Account s₄.history (.returned call response) := by
    intro c sid filter hmem
    refine hreports c sid filter ?_
    rw [← hs₄.own]
    exact List.mem_filter.mpr ⟨hmem, by simp [Event.call]⟩
  obtain ⟨hinv₅, hguar₅⟩ := record_step touches hinv₄ rfl haccount
    (fun _ _ h => h) (by simp) (fun _ => rfl)
  refine ⟨hinv₅, hguar₅, Prog.sat_ret ?_ ⟨_, ready_record hs₄ rfl⟩⟩
  rintro s s' hi hi' hd ⟨own, hown⟩
  exact ⟨own, stable_ready own s s' hi hi' hd hown⟩

theorem sat_serve {request : Request} (hp : Permitted touches reserved call.thread request)
    (hs : Ready call [] s) :
    (serve config call order request).Sat (contract config touches reserved call)
      (fun _ _ => True) s :=
  Prog.sat_mono (sat_serve_ready hp hs) (fun _ _ _ _ => trivial)

/-- A whole dispatch call, with what it leaves of the connections that nobody else touches. -/
theorem sat_serve_dispatch (hothers : ∀ u c, u ≠ call.thread → D c → ¬ touches u c)
    (htouch : ∀ c, touches call.thread c) (hs : Ready call [] s) (hk : Kept D s₀ s) :
    (serve config call order (.dispatch message)).Sat (contract config touches reserved call)
      (fun response s' => ∃ report own' found, response = .dispatched (.ok report) ∧
        Ready call (own' ++ [.returned call response]) s' ∧
        Fanout config call message D s₀ [.began call (.dispatch message)] own' report found s')
      s := by
  refine Prog.sat_access ((stable_ready []).and (stable_kept s₀ hothers)) ⟨hs, hk⟩ ?_
  rintro s₁ hinv₁ ⟨hs₁, hk₁⟩
  obtain ⟨hinv₂, hguar₂⟩ := record_step touches hinv₁ rfl
    (account_began (.dispatch message) hs₁) (fun _ _ h => h) (by simp) (fun _ => rfl)
  refine ⟨hinv₂, hguar₂, ?_⟩
  change ((dispatch config call order message >>= fun result =>
    (pure (.dispatched result) : RouterProg Response)) >>= _).Sat _ _ _
  rw [Prog.bind_assoc]
  have hs₂ : Ready call [.began call (.dispatch message)]
      (s₁.log [.began call (.dispatch message)]) :=
    ready_record hs₁ rfl
  have hk₂ : Kept D s₀ (s₁.log [.began call (.dispatch message)]) :=
    fun c hc => (hk₁ c hc).trans ⟨rfl, rfl, fun _ => rfl⟩
  refine Prog.sat_bind hinv₂ (Prog.sat_mono (sat_dispatch hothers htouch
    (List.mem_singleton.mpr rfl) (fun _ => rfl) hs₂ hk₂) ?_)
  rintro result s₃ _ ⟨report, own', found, rfl, hs₃, hf₃⟩
  refine Prog.sat_access (stable_dispatchPost hothers (.ok report))
    ⟨report, own', found, rfl, hs₃, hf₃⟩ ?_
  rintro s₄ hinv₄ ⟨report₄, own₄, found₄, hreport, hs₄, hf₄⟩
  have haccount : Account s₄.history (.returned call (.dispatched (.ok report))) := by
    intro c sid filter hmem
    have hmem' : .subscribed call c sid filter ∈ own₄ := by
      rw [← hs₄.own]
      exact List.mem_filter.mpr ⟨hmem, by simp [Event.call]⟩
    simpa using hf₄.unsubscribed call c sid filter hmem'
  obtain ⟨hinv₅, hguar₅⟩ := record_step touches hinv₄ rfl haccount
    (fun _ _ h => h) (by simp) (fun _ => rfl)
  refine ⟨hinv₅, hguar₅, Prog.sat_ret ?_ ⟨report₄, own₄, found₄, by rw [Except.ok.inj hreport],
    ready_record hs₄ rfl, hf₄.same (fun c _ => ⟨rfl, rfl, fun _ => rfl⟩)⟩⟩
  rintro s s' hi hi' ⟨u, hu, hg⟩ ⟨report', own'', found', hresp, hs', hf'⟩
  exact ⟨report', own'', found', hresp, stable_ready _ s s' hi hi' ⟨u, hu, hg⟩ hs',
    hf'.same (fun c hD => hg.untouched c (hothers u c hu hD))⟩

end Calls

theorem ready_of_fresh {config : RouterConfig} {touches : ℕ → ConnectionId → Prop}
    {reserved : ConnectionId → Prop} {t : ℕ} {s : Shared}
    (h : (protocol config touches reserved).fresh t s) : Ready ⟨t, 0⟩ [] s := by
  refine ⟨h.1, ?_⟩
  rw [ownEvents, List.filter_eq_nil_iff]
  intro e he heq
  exact h.2 e he (by rw [of_decide_eq_true heq])

theorem base_new : Base Shared.new :=
  ⟨by simp [Shared.new], by simp [Shared.new], by simp [Shared.new], tidy_empty.filled,
    by simp [Shared.new, items], justified_nil _, by simp [Shared.new]⟩

theorem inv_new (config : RouterConfig) : Inv config (fun _ => False) Shared.new :=
  ⟨base_new, fun _ => Registry.Reachable.new, fun _ h => h.elim⟩

/-- A pool of router calls, starting with no call on an empty router. -/
abbrev Calls := Pool Shared ConnectionId Response

def Calls.start : Calls := ⟨Shared.new, []⟩

/-- The states of the router under any number of calls in any interleaving. -/
def Reachable (config : RouterConfig) (s : Shared) : Prop :=
  ∃ P : Calls, Calls.start.Reaches (thread config) P ∧ P.shared = s

theorem holds_of_reaches {config : RouterConfig} {P : Calls}
    (hP : Calls.start.Reaches (thread config) P) :
    (protocol config (fun _ _ => True) (fun _ => False)).Holds id
      (fun _ (_ : Response) _ => True) P := by
  have hholds : (protocol config (fun _ _ => True) (fun _ => False)).Holds id
      (fun _ (_ : Response) _ => True) Calls.start :=
    ⟨inv_new config, by simp [Calls.start], fun t _ => ⟨by simp [Calls.start, Shared.new], by
      simp [Calls.start, Shared.new]⟩⟩
  refine Protocol.holds_run Function.injective_id stable_fresh (fun t task s _ hfresh => ?_)
    hholds hP
  have hp : Permitted (fun _ _ => True) (fun _ => False) t task.2 := by
    cases task.2 <;> simp [Permitted]
  exact sat_serve hp (ready_of_fresh hfresh)

theorem Reachable.inv {config : RouterConfig} {s : Shared} (h : Reachable config s) :
    Inv config (fun _ => False) s := by
  obtain ⟨P, hP, rfl⟩ := h
  exact (holds_of_reaches hP).inv

end KafkaEdgeRouter.Router
