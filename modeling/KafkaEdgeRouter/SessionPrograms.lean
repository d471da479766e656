import KafkaEdgeRouter.SessionLedger

/-!
# Sessions keep the protocol

Every session keeps the protocol of the server, turn by turn: a call of the router changes what the
session knows of its connection as the answer says, and the line that is written next tells the
client the same. A session that has ended owns no connection that is left in the router.
-/

namespace KafkaEdgeRouter.Stream

open Api Router

section Rules

variable {S : Service} {t n : ℕ} {order : HashOrder} {L : Ledger} {c : ConnectionId}
  {principal : Principal} {w : Server} {A : Shared → Prop} {α β : Type}
  {Q : α → Server → Prop}

theorem sat_call {request : Request} {R : Response → Shared → Prop} (hmine : ∀ s, A s →
      Mine t s request)
    (hsolely : ∀ c principal, L.opened = some (c, principal) → Solely c request)
    (hquiet : ∀ c principal, L.opened = some (c, principal) → Alters c request →
      L.handling ≠ none ∧ L.drained = false) (hreceive : ∀ c, request ≠ .receive c)
    (hR : ∀ s, A s → (serve S.router ⟨t, n⟩ order request).Sat (tended t) R s)
    (hsourced : S.Sourced w.topic request) (hs : Stands t n L A w) :
    (S.call t order n request).Sat (S.protocol.contract t)
      (fun response w' => Stands t (n + 1) L (R response) w') w := by
  have hserve : (serve S.router ⟨t, n⟩ order request).Sat (calling S.router t request)
      (fun _ s' => Unspent t (n + 1) s') w.router :=
    sat_calling order (hmine _ hs.router) hs.unspent
  have hcall := Prog.sat_inform (fun _ => trivial) (fun s s' h => ?_) hserve (hR _ hs.router)
  · refine Prog.sat_mono (Prog.sat_zoom (V := routerView)
      (P := fun w' : Server => ledger (w'.transcripts t) = L ∧ S.Sourced w'.topic request)
      ?_ ?_ ?_ ?_ ⟨hs.ledger, hsourced⟩ hcall) ?_
    · rintro w w' _ _ ⟨u, hu, _, _, htranscripts, htopic, _⟩ ⟨hledger, hsourced⟩
      rw [htranscripts t hu.symm]
      exact ⟨hledger, hsourced.mono htopic⟩
    · intro w hinv _
      exact hinv.router
    · rintro w w' hinv hinv' _ ⟨u, hu, hg, hc, _, _, _⟩
      exact Relation.ReflTransGen.single ⟨hinv.router, hinv'.router, u, hu, hg, hc⟩
    · rintro w s' hinv ⟨hledger, hsourced⟩ hinv' ⟨hg, hc, hm, hannounces, helsewhere, hadditions⟩
      have hdiscreet : Discreet t w (routerView.set s' w) := by
        refine ⟨fun c principal hopened => ?_, fun _ => Or.inl rfl⟩
        rw [hledger] at hopened
        exact helsewhere c (hsolely c principal hopened)
      have hguar : S.protocol.guar t w (routerView.set s' w) :=
        ⟨hg, hc, fun _ _ => rfl, List.prefix_refl _, hdiscreet⟩
      have hfaithful : Faithful S t L w.router := hledger ▸ hinv.faithful t
      have hown : Faithful S t L s' := ⟨hfaithful.sound, fun c principal hopened =>
        (hfaithful.agrees c principal hopened).modest hg hm (hquiet c principal hopened)
          (hreceive c)⟩
      have htraced : Traced S w.topic s' := hinv.traced.announces hannounces hsourced
      refine ⟨inv_step hinv hinv' hguar ?_ (hinv.tenanted.additions hadditions) htraced, hguar,
        hledger, hsourced⟩
      change Faithful S t (ledger (w.transcripts t)) s'
      rwa [hledger]
    · rintro response w' _ ⟨⟨hledger, _⟩, hunspent, hpost⟩
      exact ⟨hledger, hunspent, hpost⟩
  · obtain ⟨_, _, u, hu, hg, hc⟩ := h
    exact tended_of_guarantee hg hc hu

/-- An access that leaves the router to itself or only counts something. -/
theorem sat_aside {f : Draw → Server → β × Server} {k : β → ServerProg α} (hA : Lasting t A)
    (hf : ∀ draw w, (f draw w).2.transcripts = w.transcripts ∧ (f draw w).2.topic = w.topic ∧
      ∃ m : Counters → Counters, (f draw w).2.router = w.router.count m)
    (hs : Stands t n L A w)
    (h : ∀ b w', (∃ draw w₀, (f draw w₀).1 = b) → S.protocol.inv w' → Stands t n L A w' →
      (k b).Sat (S.protocol.contract t) Q w') :
    (Prog.await (fun _ _ => true) f >>= k).Sat (S.protocol.contract t) Q w := by
  refine Prog.sat_await (stable_stands hA) hs (fun draw w' hinv hs' _ => ?_)
  obtain ⟨htranscripts, htopic, m, hrouter⟩ := hf draw w'
  have hinv' : Inv S.router (fun _ => False) (w'.router.count m) :=
    ⟨hinv.router.base.of_eq rfl rfl rfl rfl, hinv.router.reachable, hinv.router.reserved⟩
  have hg : Guarantee (fun _ _ => True) t w'.router (w'.router.count m) :=
    ⟨Or.inl rfl, fun _ => rfl, ⟨[], by simp [Shared.count], by simp, by simp⟩, fun _ h => h,
      fun c _ => ⟨rfl, rfl, fun _ => rfl⟩⟩
  have hguar : S.protocol.guar t w' (f draw w').2 := by
    refine ⟨?_, ?_, fun _ _ => by rw [htranscripts], htopic ▸ List.prefix_refl _,
      discreet_of_eq ?_ (by rw [htranscripts])⟩
    · rw [hrouter]
      exact hg
    · rw [hrouter]
      exact considerate_of_eq rfl rfl
    · rw [hrouter]
      rfl
  have hown : Faithful S t (ledger ((f draw w').2.transcripts t)) (f draw w').2.router := by
    rw [htranscripts, hrouter]
    refine ⟨(hinv.faithful t).sound, fun c principal hopened => ?_⟩
    exact ((hinv.faithful t).agrees c principal hopened).kept hg (.of_eq rfl) (.of_eq rfl)
  have htraced : Traced S (f draw w').2.topic (f draw w').2.router := by
    rw [htopic, hrouter]
    exact hinv.traced.kept rfl
  have hinv'' := inv_step hinv (by rw [hrouter]; exact hinv') hguar hown
    (by rw [hrouter]; exact hinv.tenanted) htraced
  refine ⟨hinv'', hguar, h _ _ ⟨draw, w', rfl⟩ hinv'' ⟨?_, ?_, ?_⟩⟩
  · rw [htranscripts]
    exact hs'.ledger
  · rw [hrouter]
    exact ⟨hs'.unspent.lock, hs'.unspent.serial⟩
  · rw [hrouter]
    exact hA.beside w'.router _ (beside_of_eq rfl rfl rfl) hs'.router

theorem inv_note {line : Line} {s' : Shared} (hinv : S.protocol.inv w)
    (hL : ledger (w.transcripts t) = L) (hrouter : Inv S.router (fun _ => False) s')
    (hg : Guarantee (fun _ _ => True) t w.router s') (hc : Considerate t w.router s')
    (hown : Faithful S t (L.note line) s') (hh : s'.history = w.router.history)
    (hconn : s'.connections = w.router.connections) (hprompt : L.handling = none ∨ line.Answers) :
    S.protocol.inv (({ w with router := s' } : Server).note t line) ∧
      S.protocol.guar t w (({ w with router := s' } : Server).note t line) ∧
      ledger ((({ w with router := s' } : Server).note t line).transcripts t) = L.note line := by
  have hledger :
      ledger ((({ w with router := s' } : Server).note t line).transcripts t) = L.note line := by
    simp only [Server.note, Function.update_self, ledger_concat, hL]
  have hdiscreet : Discreet t w (({ w with router := s' } : Server).note t line) := by
    refine ⟨fun _ _ _ _ _ => congrArg _ hconn, fun hbusy => Or.inr ⟨line, ?_, ?_⟩⟩
    · rw [hL] at hbusy
      exact hprompt.resolve_left hbusy
    · exact Function.update_self t _ _
  have hguar : S.protocol.guar t w (({ w with router := s' } : Server).note t line) :=
    ⟨hg, hc, fun u hu => Function.update_of_ne hu _ _, List.prefix_refl _, hdiscreet⟩
  have htenanted : Tenanted s' := by
    intro c connection hl
    rw [hconn] at hl
    exact hinv.tenanted c connection hl
  refine ⟨inv_step hinv hrouter hguar ?_ htenanted (hinv.traced.kept hh), hguar, hledger⟩
  rw [hledger]
  exact hown

theorem sat_note {line : Line} {k : Unit → ServerProg α} (hA : Lasting t A)
    (hline : ∀ s, A s → Faithful S t L s → Faithful S t (L.note line) s)
    (hprompt : L.handling = none ∨ line.Answers) (hs : Stands t n L A w)
    (h : ∀ w', S.protocol.inv w' → Stands t n (L.note line) A w' →
      (k ()).Sat (S.protocol.contract t) Q w') :
    (note t line >>= k).Sat (S.protocol.contract t) Q w := by
  refine Prog.sat_access (stable_stands hA) hs (fun w' hinv hs' => ?_)
  obtain ⟨hinv', hguar, hledger⟩ := inv_note hinv hs'.ledger hinv.router (guarantee_refl _ _)
    (considerate_of_eq rfl rfl) (hline _ hs'.router (hs'.ledger ▸ hinv.faithful t)) rfl rfl hprompt
  exact ⟨hinv', hguar, h _ hinv' ⟨hledger, hs'.unspent, hs'.router⟩⟩

theorem sat_store {stored : Stored} {k : Unit → ServerProg α} (hA : Lasting t A)
    (hstored : stored.ours = true → S.Published stored) (hs : Stands t n L A w)
    (h : ∀ w', S.protocol.inv w' → Stands t n L A w' → (k ()).Sat (S.protocol.contract t) Q w') :
    (Service.store stored >>= k).Sat (S.protocol.contract t) Q w := by
  refine Prog.sat_access (stable_stands hA) hs (fun w' hinv hs' => ?_)
  have hguar : S.protocol.guar t w' { w' with topic := w'.topic ++ [stored] } :=
    ⟨guarantee_refl _ _, considerate_of_eq rfl rfl, fun _ _ => rfl, List.prefix_append _ _,
      discreet_of_eq rfl rfl⟩
  have hinv' : S.protocol.inv { w' with topic := w'.topic ++ [stored] } :=
    inv_step hinv hinv.router hguar (hinv.faithful t) hinv.tenanted (hinv.traced.store hstored)
  exact ⟨hinv', hguar, h _ hinv' ⟨hs'.ledger, hs'.unspent, hs'.router⟩⟩

theorem sat_fetch {index : ℕ} {k : Option Stored → ServerProg α} (hA : Lasting t A)
    (hs : Stands t n L A w)
    (hnone : ∀ w', S.protocol.inv w' → Stands t n L A w' →
      (k none).Sat (S.protocol.contract t) Q w')
    (hsome : ∀ stored w', S.protocol.inv w' → Stands t n L A w' → stored ∈ w'.topic →
      (k (some stored)).Sat (S.protocol.contract t) Q w') :
    (Service.fetch index >>= k).Sat (S.protocol.contract t) Q w := by
  refine Prog.sat_await (stable_stands hA) hs (fun _ w' hinv hs' _ => ?_)
  refine ⟨hinv, ⟨guarantee_refl _ _, considerate_of_eq rfl rfl, fun _ _ => rfl,
    List.prefix_refl _, discreet_of_eq rfl rfl⟩, ?_⟩
  cases hfetched : w'.topic[index]? with
  | none => exact hnone w' hinv hs'
  | some stored => exact hsome stored w' hinv hs' (List.mem_of_getElem? hfetched)

/-! ### The receiver's end of the queue -/

theorem Faithful.drained (hopened : L.opened = some (c, principal)) (hshown : L.taken = L.shown)
    {s : Shared} (h : Faithful S t L s) {channel : Channel Delivery}
    (hl : s.channels.lookup c = some channel) (hqueue : channel.queue = [])
    (hgone : c ∉ s.connections) : Faithful S t (L.note .drained) s := by
  refine ⟨⟨h.sound.admitted, h.sound.tenant, h.sound.shown, fun _ => hshown, h.sound.orderly⟩,
    fun c' principal' hopened' => ?_⟩
  have hagrees := h.agrees c' principal' hopened'
  cases hopened.symm.trans hopened'
  obtain ⟨channel', hl', hreceived, _⟩ := hagrees.taken
  cases hl.symm.trans hl'
  exact ⟨hagrees.registered, hagrees.held, channel, hl, hreceived, fun _ => ⟨hgone, hqueue⟩⟩

theorem Faithful.got (hopened : L.opened = some (c, principal)) (hshown : L.taken = L.shown)
    {s : Shared} (h : Faithful S t L s) {delivery : Delivery} {channel channel' : Channel Delivery}
    (hl : s.channels.lookup c = some channel) (hrecv : channel.recv = some (delivery, channel')) :
    Faithful S t (L.note (.got delivery)) (taking c channel' s) := by
  obtain ⟨queue, hqueue, rfl⟩ := recv_cases hrecv
  have hserving : L.drained = true → False := by
    intro hd
    obtain ⟨channel₁, hl₁, _, hdrained⟩ := (h.agrees c principal hopened).taken
    cases hl.symm.trans hl₁
    rw [(hdrained hd).2] at hqueue
    cases hqueue
  have hsound : Sound S (L.note (.got delivery)) :=
    ⟨h.sound.admitted, h.sound.tenant, Or.inr ⟨delivery, congrArg (· ++ [delivery]) hshown⟩,
      fun hd => (hserving hd).elim, h.sound.orderly⟩
  refine ⟨hsound, fun c₁ principal₁ hopened₁ => ?_⟩
  have hagrees := h.agrees c₁ principal₁ hopened₁
  cases hopened.symm.trans hopened₁
  obtain ⟨channel₁, hl₁, hreceived, _⟩ := hagrees.taken
  cases hl.symm.trans hl₁
  exact ⟨hagrees.registered, hagrees.held, _, (AList.lookup_modify_self ..).trans (by
    rw [hl]
    rfl), congrArg (· ++ [delivery]) hreceived, fun hd => (hserving hd).elim⟩

/-- The queue is empty and has no sender left, or a delivery is taken from it. -/
theorem sat_recv {m : Subscriptions} {k : Option Delivery → ServerProg α}
    (hopened : L.opened = some (c, principal)) (hshown : L.taken = L.shown)
    (hidle : L.handling = none)
    (hs : Stands t n L (Tenure t c principal.tenantId m L.taken false) w)
    (hnone : ∀ w', S.protocol.inv w' →
      Stands t n (L.note .drained) (Tenure t c principal.tenantId m L.taken false) w' →
      (k none).Sat (S.protocol.contract t) Q w')
    (hsome : ∀ delivery w', S.protocol.inv w' → Stands t n (L.note (.got delivery))
        (Tenure t c principal.tenantId m (L.taken ++ [delivery]) false) w' →
      (k (some delivery)).Sat (S.protocol.contract t) Q w') :
    (recv t c >>= k).Sat (S.protocol.contract t) Q w := by
  rw [recv, Router.receive, Prog.annotate_await]
  refine Prog.sat_await (stable_stands lasting_tenure) hs (fun _ w' hinv hs' henabled => ?_)
  obtain ⟨channel, hl, _, hopen⟩ := hs'.router.channel
  have hfaithful : Faithful S t L w'.router := hs'.ledger ▸ hinv.faithful t
  simp only [routerView, hl, Option.bind_some] at henabled ⊢
  cases hrecv : channel.recv with
  | none =>
    have hqueue : channel.queue = [] := by
      unfold Channel.recv at hrecv
      split at hrecv
      · assumption
      · cases hrecv
    have hgone : c ∉ w'.router.connections := by
      rw [hqueue, hopen] at henabled
      exact of_decide_eq_true henabled
    obtain ⟨hinv', hguar, hledger⟩ := inv_note hinv hs'.ledger hinv.router (guarantee_refl _ _)
      (considerate_of_eq rfl rfl) (hfaithful.drained hopened hshown hl hqueue hgone) rfl rfl
      (Or.inl hidle)
    exact ⟨hinv', hguar, hnone _ hinv' ⟨hledger, hs'.unspent, hs'.router⟩⟩
  | some result =>
    obtain ⟨delivery, channel'⟩ := result
    obtain ⟨hrouter, hg⟩ : Inv S.router (fun _ => False) (taking c channel' w'.router) ∧
        Guarantee (fun _ _ => True) (⟨t, n⟩ : CallId).thread w'.router
          (taking c channel' w'.router) :=
      channel_step hinv.router trivial (fun channel₁ hl₁ => by
        cases hl.symm.trans hl₁
        exact Channel.log_recv hrecv)
    obtain ⟨hinv', hguar, hledger⟩ := inv_note hinv hs'.ledger hrouter hg
      (considerate_modify hinv.router.base hs'.router.owns _)
      (hfaithful.got hopened hshown hl hrecv) rfl rfl (Or.inl hidle)
    exact ⟨hinv', hguar, hsome delivery _ hinv' ⟨hledger,
      ⟨hs'.unspent.lock, hs'.unspent.serial⟩, hs'.router.got hl hrecv⟩⟩

end Rules

/-! ### Telling the client -/

section Telling

variable {S : Service} {t n : ℕ} {L : Ledger} {c : ConnectionId} {principal : Principal}
  {news : News} {m : Subscriptions} {l : List Delivery} {closed : Bool} {s : Shared}

theorem tell_fields (L : Ledger) (news : News) : (L.tell news).arrival = L.arrival ∧
    (L.tell news).opened = L.opened ∧ (L.tell news).taken = L.taken ∧
    (L.tell news).drained = L.drained := by
  cases news with
  | added sid =>
    unfold Ledger.tell
    dsimp only
    cases L.requested <;> exact ⟨rfl, rfl, rfl, rfl⟩
  | removed => exact ⟨rfl, rfl, rfl, rfl⟩
  | delivered => exact ⟨rfl, rfl, rfl, rfl⟩
  | nothing => exact ⟨rfl, rfl, rfl, rfl⟩

theorem tell_answer (L : Ledger) (hnews : ∀ delivery, news ≠ .delivered delivery) :
    (L.tell news).handling = none ∧ (L.tell news).shown = L.shown := by
  cases news with
  | added sid =>
    unfold Ledger.tell
    dsimp only
    cases L.requested <;> exact ⟨rfl, rfl⟩
  | removed => exact ⟨rfl, rfl⟩
  | delivered delivery => exact absurd rfl (hnews delivery)
  | nothing => exact ⟨rfl, rfl⟩

theorem tell_posts (L : Ledger) (news : News) : (L.tell news).posts = L.posts := by
  cases news with
  | added sid =>
    unfold Ledger.tell
    dsimp only
    cases L.requested <;> rfl
  | removed => rfl
  | delivered => rfl
  | nothing => rfl

theorem requested_tenant {filter : RouteFilter} (h : L.requested = some filter) :
    ∃ c principal, L.opened = some (c, principal) ∧ filter.tenantId = principal.tenantId := by
  unfold Ledger.requested at h
  split at h
  · rename_i c principal command hopened _
    obtain ⟨fields, _, rfl⟩ := Option.map_eq_some_iff.mp h
    exact ⟨c, principal, hopened, rfl⟩
  · cases h

theorem Sound.tell (h : Sound S L) (hnews : ∀ delivery, news ≠ .delivered delivery) :
    Sound S (L.tell news) := by
  obtain ⟨harrival, hopened, htaken, hdrained⟩ := tell_fields L news
  have hshown := (tell_answer L hnews).2
  refine ⟨?_, ?_, ?_, ?_, h.orderly.congr harrival hshown (tell_posts L news)⟩
  · rw [hopened, harrival]
    exact h.admitted
  · rw [hopened]
    intro sid filter hl
    cases news with
    | added sid' =>
      unfold Ledger.tell at hl
      dsimp only at hl
      cases hrequested : L.requested with
      | none =>
        rw [hrequested] at hl
        exact h.tenant sid filter hl
      | some filter' =>
        rw [hrequested] at hl
        by_cases hsid : sid = sid'
        · rw [hsid, AList.lookup_insert] at hl
          cases hl
          exact requested_tenant hrequested
        · rw [AList.lookup_insert_ne hsid] at hl
          exact h.tenant sid filter hl
    | removed sid' =>
      have hl' : (L.held.erase sid').lookup sid = some filter := hl
      by_cases hsid : sid = sid'
      · rw [hsid, AList.lookup_erase] at hl'
        cases hl'
      · rw [AList.lookup_erase_ne hsid] at hl'
        exact h.tenant sid filter hl'
    | delivered delivery => exact absurd rfl (hnews delivery)
    | nothing => exact h.tenant sid filter hl
  · rw [htaken, hshown]
    exact h.shown
  · rw [htaken, hshown, hdrained]
    exact h.caught

theorem Faithful.tell (hopened : L.opened = some (c, principal)) (h : Faithful S t L s)
    (hnews : ∀ delivery, news ≠ .delivered delivery)
    (htenure : Tenure t c principal.tenantId (L.tell news).held l closed s) :
    Faithful S t (L.tell news) s := by
  obtain ⟨_, hopened', htaken, hdrained⟩ := tell_fields L news
  refine ⟨h.sound.tell hnews, fun c' principal' hopened₁ => ?_⟩
  rw [hopened', hopened] at hopened₁
  cases hopened₁
  have hagrees := h.agrees c principal hopened
  refine ⟨hagrees.registered, fun _ => htenure.held, ?_⟩
  rw [htaken, hdrained]
  exact hagrees.taken

/-- A delivery that was taken from the queue is shown to the client. -/
theorem Faithful.deliver {delivery : Delivery} (h : Faithful S t L s)
    (hclient : ∀ destination, L.arrival ≠ some (.webhook destination))
    (htaken : L.taken = L.shown ++ [delivery]) : Faithful S t (L.tell (.delivered delivery)) s := by
  refine ⟨⟨h.sound.admitted, h.sound.tenant, Or.inl htaken, fun _ => htaken,
    h.sound.orderly.client hclient rfl rfl⟩, fun c principal hopened => ?_⟩
  have hagrees := h.agrees c principal hopened
  exact ⟨hagrees.registered, hagrees.held, hagrees.taken⟩

theorem Faithful.takes (command : Command) (h : Faithful S t L s) :
    Faithful S t (L.note (.takes command)) s := by
  refine ⟨⟨h.sound.admitted, h.sound.tenant, h.sound.shown, h.sound.caught, h.sound.orderly⟩,
    fun c principal hopened => ?_⟩
  have hagrees := h.agrees c principal hopened
  refine ⟨hagrees.registered, fun hidle => ?_, hagrees.taken⟩
  cases hidle

theorem settledPost_ok {m' : Subscriptions} {response : Response} {result : Unit}
    (hresult : settlement response = .ok result)
    (h : SettledPost t c principal.tenantId m m' l closed response s) :
    Tenure t c principal.tenantId m' l closed s := by
  unfold settlement at hresult
  split at hresult
  · rw [hresult] at h
    exact h
  · cases hresult

theorem settledPost_error {m' : Subscriptions} {response : Response} {e : CoreError}
    (hresult : settlement response = .error e)
    (h : SettledPost t c principal.tenantId m m' l closed response s) :
    Tenure t c principal.tenantId m l closed s := by
  unfold settlement at hresult
  split at hresult
  · rw [hresult] at h
    exact h
  · rename_i hother
    unfold SettledPost at h
    split at h
    · exact absurd rfl (hother _)
    · exact h

end Telling
end KafkaEdgeRouter.Stream
