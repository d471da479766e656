import KafkaEdgeRouter.SessionPrograms

/-!
# The sessions, turn by turn

At the head of its loop a session has no command open, has shown all it took and knows the
subscriptions of its connection from its own ledger. Every turn comes back to such a state or leaves
the loop, and whoever leaves the loop takes the connection out of the router.
-/

namespace KafkaEdgeRouter.Stream

open Api Router

/-- The ledger of a client's session at the head of its loop. -/
structure AtHead (c : ConnectionId) (principal : Principal) (L : Ledger) : Prop where
  client : ∀ destination, L.arrival ≠ some (.webhook destination)
  opened : L.opened = some (c, principal)
  idle : L.handling = none
  shown : L.taken = L.shown
  serving : L.drained = false

def Waiting (t : ℕ) (c : ConnectionId) (principal : Principal) (n : ℕ) (w : Server) : Prop :=
  ∃ L, AtHead c principal L ∧
    Stands t n L (Tenure t c principal.tenantId L.held L.taken false) w

/-- A gRPC command is left without an answer only if the stream has failed. -/
def Ledger.Excused (failed : Prop) (L : Ledger) : Prop :=
  ∀ command, L.handling = some (.grpc command) → failed

/-- Out of the loop, with the connection still to be unregistered. -/
def Leaving (t : ℕ) (c : ConnectionId) (principal : Principal) (failed : Prop) (n : ℕ)
    (w : Server) : Prop :=
  ∃ L m, L.opened = some (c, principal) ∧ L.Excused failed ∧
    Stands t n L (Tenure t c principal.tenantId m L.taken false) w

/-- The thread has ended and left nothing behind. -/
def Ended (t : ℕ) (w : Server) : Prop :=
  w.router.mutationLock ≠ some t ∧ Retired t w.router

def Parted (t : ℕ) (failed : Prop) (w : Server) : Prop :=
  Ended t w ∧ (ledger (w.transcripts t)).Excused failed

section Sessions

variable {S : Service} {t n : ℕ} {order : HashOrder} {L : Ledger} {c : ConnectionId}
  {principal : Principal} {m : Subscriptions} {w : Server} {A : Shared → Prop} {failed : Prop}

theorem stable_waiting (t : ℕ) (c : ConnectionId) (principal : Principal) (n : ℕ) :
    (S.protocol.contract t).Stable (Waiting t c principal n) := by
  rintro w w' hi hi' hd ⟨L, hL, hs⟩
  exact ⟨L, hL, stable_stands lasting_tenure w w' hi hi' hd hs⟩

theorem stable_leaving (t : ℕ) (c : ConnectionId) (principal : Principal) (failed : Prop) (n : ℕ) :
    (S.protocol.contract t).Stable (Leaving t c principal failed n) := by
  rintro w w' hi hi' hd ⟨L, m, hL, hexcused, hs⟩
  exact ⟨L, m, hL, hexcused, stable_stands lasting_tenure w w' hi hi' hd hs⟩

theorem stable_parted (t : ℕ) (failed : Prop) :
    (S.protocol.contract t).Stable (Parted t failed) := by
  rintro w w' _ _ ⟨u, hu, hg, hc, htranscripts, _, _⟩ ⟨⟨hlock, hretired⟩, hexcused⟩
  refine ⟨⟨fun h => hlock ((hg.lock_of_ne hu).mp h),
    lasting_retired.stable _ _ trivial trivial (tended_of_guarantee hg hc hu) hretired⟩, ?_⟩
  rw [htranscripts t hu.symm]
  exact hexcused

theorem excused_of_idle (h : L.handling = none) (failed : Prop) : L.Excused failed := by
  intro command hhandling
  rw [h] at hhandling
  cases hhandling

theorem Parted.mono {failed' : Prop} (h : Parted t failed w) (himp : failed → failed') :
    Parted t failed' w :=
  ⟨h.1, fun command hhandling => himp (h.2 command hhandling)⟩

theorem Stands.mono {n' : ℕ} (h : Stands t n L A w) (hn : n ≤ n') : Stands t n' L A w :=
  ⟨h.ledger, h.unspent.mono hn, h.router⟩

theorem Waiting.leaving (h : Waiting t c principal n w) (failed : Prop) :
    Leaving t c principal failed n w := by
  obtain ⟨L, hL, hs⟩ := h
  exact ⟨L, L.held, hL.opened, excused_of_idle hL.idle failed, hs⟩

theorem sat_waiting {τ α : Type} {point : τ} {I : τ → Server → Prop} {Q : α → Server → Prop}
    (hI : (S.protocol.contract t).Stable (I point)) (h : I point w) :
    (pure (.again point) : ServerProg (Next τ α)).Sat (S.protocol.contract t)
      (Prog.LoopPost I Q) w :=
  Prog.sat_ret hI h

theorem sat_over {τ α : Type} {a : α} {I : τ → Server → Prop} {Q : α → Server → Prop}
    (hQ : (S.protocol.contract t).Stable (Q a)) (h : Q a w) :
    (pure (.done a) : ServerProg (Next τ α)).Sat (S.protocol.contract t)
      (Prog.LoopPost I Q) w :=
  Prog.sat_ret hQ h

/-! ### Limits -/

theorem sat_allowRate (hA : Lasting t A) (tenantId : String) (kind : RateKind)
    (hs : Stands t n L A w) :
    (S.allowRate tenantId kind).Sat (S.protocol.contract t) (fun _ => Stands t n L A) w := by
  refine sat_aside hA (fun draw w' => ⟨rfl, rfl, id, rfl⟩) hs (fun allowed w₁ _ _ hs₁ => ?_)
  cases allowed with
  | true => exact Prog.sat_ret (stable_stands hA) hs₁
  | false =>
    exact sat_aside hA (fun _ w' => ⟨rfl, rfl, Counters.recordSecurityLimitRejection, rfl⟩) hs₁
      (fun _ w₂ _ _ hs₂ => Prog.sat_ret (stable_stands hA) hs₂)

theorem sat_allowCommand (hA : Lasting t A) (limiter : CommandRateLimiter)
    (hs : Stands t n L A w) :
    (S.allowCommand principal limiter).Sat (S.protocol.contract t)
      (fun _ => Stands t n L A) w := by
  refine sat_aside hA (fun draw w' => ⟨rfl, rfl, id, rfl⟩) hs (fun clock w₁ _ hinv₁ hs₁ => ?_)
  dsimp only
  split_ifs
  · refine Prog.sat_bind hinv₁ (Prog.sat_mono (sat_allowRate hA _ _ hs₁)
      (fun allowed w₂ _ hs₂ => Prog.sat_ret (stable_stands hA) hs₂))
  · exact Prog.sat_ret (stable_stands hA) hs₁

/-! ### Commands -/

theorem intoFilter_eq_ok {input : FilterInput} {filter : RouteFilter}
    (h : input.intoFilter principal = .ok filter) :
    filter = input.forTenant principal.tenantId := by
  obtain ⟨_, hok⟩ := check_eq_ok.mp h
  exact (Except.ok.inj hok).symm

theorem protoFilter_eq_ok {input : ProtoRouteFilter} {filter : RouteFilter}
    (h : protoFilter input principal = .ok filter) :
    filter = input.forTenant principal.tenantId := by
  obtain ⟨_, hok⟩ := check_eq_ok.mp h
  exact (Except.ok.inj hok).symm

theorem Ledger.opened_unique (hopened : L.opened = some (c, principal)) {c' : ConnectionId}
    {principal' : Principal} (hopened' : L.opened = some (c', principal')) : c = c' := by
  cases hopened.symm.trans hopened'
  rfl

theorem sat_change {request : Request} {m' : Subscriptions}
    (hopened : L.opened = some (c, principal)) (hhandling : L.handling ≠ none)
    (hserving : L.drained = false)
    (hR : ∀ s, Tenure t c principal.tenantId m L.taken false s →
      (serve S.router ⟨t, n⟩ order request).Sat (tended t)
        (SettledPost t c principal.tenantId m m' L.taken false) s)
    (hs : Stands t n L (Tenure t c principal.tenantId m L.taken false) w)
    (halters : Alters c request) :
    (S.call t order n request).Sat (S.protocol.contract t) (fun response => Stands t (n + 1) L
      (SettledPost t c principal.tenantId m m' L.taken false response)) w := by
  refine sat_call (fun s hs => ?_) (fun c' principal' hopened' => ?_)
    (fun _ _ _ _ => ⟨hhandling, hserving⟩) (fun c' heq => ?_) hR (fun message heq => ?_) hs
  · cases request with
    | subscribe c' => exact halters ▸ hs.owns
    | unsubscribe c' => exact halters ▸ hs.owns
    | _ => exact halters.elim
  · cases request with
    | subscribe c₁ => exact Eq.trans halters (Ledger.opened_unique hopened hopened')
    | unsubscribe c₁ => exact Eq.trans halters (Ledger.opened_unique hopened hopened')
    | _ => exact halters.elim
  · rw [heq] at halters
    exact halters
  · rw [heq] at halters
    exact halters.elim

/-- After the answer the connection has the subscriptions that the client will be told. -/
def Answered (t n : ℕ) (c : ConnectionId) (principal : Principal) (L : Ledger) (frame : Frame) :
    Server → Prop :=
  Stands t n L (Tenure t c principal.tenantId (L.tell frame.news).held L.taken false)

theorem tell_added {sid : SubscriptionId} {filter : RouteFilter} (h : L.requested = some filter) :
    (L.tell (.added sid)).held = L.held.insert sid filter := by
  simp only [Ledger.tell, h]

theorem requested_eq {command : Command} {fields : FilterFields}
    (hopened : L.opened = some (c, principal)) (hhandling : L.handling = some command)
    (hfields : command.fields = some fields) :
    L.requested = some (fields.forTenant principal.tenantId) := by
  simp only [Ledger.requested, hopened, hhandling, hfields, Option.map_some]

theorem answered_added {sid : SubscriptionId} {filter : RouteFilter} (frame : Frame)
    (hrequested : L.requested = some filter) (hnews : frame.news = .added sid)
    (hs : Stands t n L (Tenure t c principal.tenantId (L.held.insert sid filter) L.taken false) w) :
    Answered t n c principal L frame w := by
  rw [Answered, hnews, tell_added hrequested]
  exact hs

theorem answered_removed {sid : SubscriptionId} (frame : Frame) (hnews : frame.news = .removed sid)
    (hs : Stands t n L (Tenure t c principal.tenantId (L.held.erase sid) L.taken false) w) :
    Answered t n c principal L frame w := by
  rw [Answered, hnews]
  exact hs

theorem Stands.settled {m' : Subscriptions} {response : Response} {result : Unit}
    (hs : Stands t n L (SettledPost t c principal.tenantId m m' L.taken false response) w)
    (hresult : settlement response = .ok result) :
    Stands t n L (Tenure t c principal.tenantId m' L.taken false) w :=
  ⟨hs.ledger, hs.unspent, settledPost_ok hresult hs.router⟩

theorem Stands.unsettled {m' : Subscriptions} {response : Response} {e : CoreError}
    (hs : Stands t n L (SettledPost t c principal.tenantId m m' L.taken false response) w)
    (hresult : settlement response = .error e) :
    Stands t n L (Tenure t c principal.tenantId m L.taken false) w :=
  ⟨hs.ledger, hs.unspent, settledPost_error hresult hs.router⟩

theorem news_subscribeError (e : CoreError) :
    (Frame.ws (.reply (wsSubscribeError e))).news = .nothing := by
  cases e <;> rfl

theorem news_unsubscribeError (e : CoreError) :
    (Frame.ws (.reply (wsUnsubscribeError e))).news = .nothing := by
  cases e <;> rfl

theorem sat_handleWsCommand {text : WsText} (hopened : L.opened = some (c, principal))
    (hhandling : L.handling = some (.text text)) (hserving : L.drained = false)
    (hinv : S.protocol.inv w)
    (hs : Stands t n L (Tenure t c principal.tenantId L.held L.taken false) w) :
    (S.handleWsCommand t order n principal c text).Sat (S.protocol.contract t)
      (fun reply => Answered t (n + 1) c principal L (.ws (.reply reply))) w := by
  have hquiet : ∀ {reply : WsReply} {w' : Server} {n' : ℕ}, n' ≤ n + 1 →
      (Frame.ws (.reply reply)).news = .nothing →
      Stands t n' L (Tenure t c principal.tenantId L.held L.taken false) w' →
      (pure reply : ServerProg WsReply).Sat (S.protocol.contract t)
        (fun reply => Answered t (n + 1) c principal L (.ws (.reply reply))) w' := by
    intro reply w' n' hn hnews hs'
    refine Prog.sat_ret (stable_stands lasting_tenure) ?_
    rw [Answered, hnews]
    exact hs'.mono hn
  have hbusy : L.handling ≠ none := by
    rw [hhandling]
    simp
  cases text with
  | malformed => exact hquiet (Nat.le_succ n) rfl hs
  | mismatched => exact hquiet (Nat.le_succ n) rfl hs
  | command command =>
    cases command with
    | subscribe subscriptionId filter =>
      unfold Service.handleWsCommand
      dsimp only
      cases SubscriptionId.new subscriptionId with
      | error e => exact hquiet (Nat.le_succ n) rfl hs
      | ok sid =>
        cases filter with
        | none => exact hquiet (Nat.le_succ n) rfl hs
        | some input =>
          dsimp only
          cases hfilter : input.intoFilter principal with
          | error e => cases e <;> exact hquiet (Nat.le_succ n) rfl hs
          | ok filter =>
            have hrequested : L.requested = some filter := by
              rw [intoFilter_eq_ok hfilter]
              exact requested_eq hopened hhandling rfl
            refine Prog.sat_bind hinv (Prog.sat_mono (sat_change hopened hbusy hserving
              (fun s hs => tended_subscribe hs sid filter) hs rfl) (fun response w₁ _ hs₁ => ?_))
            cases hsettled : settlement response with
            | ok result =>
              exact Prog.sat_ret (stable_stands lasting_tenure)
                (answered_added (.ws (.reply (.subscribed sid))) hrequested rfl
                  (hs₁.settled hsettled))
            | error e =>
              exact hquiet (Nat.le_refl _) (news_subscribeError e) (hs₁.unsettled hsettled)
    | unsubscribe subscriptionId =>
      unfold Service.handleWsCommand
      dsimp only
      cases SubscriptionId.new subscriptionId with
      | error e => exact hquiet (Nat.le_succ n) rfl hs
      | ok sid =>
        refine Prog.sat_bind hinv (Prog.sat_mono (sat_change hopened hbusy hserving
          (fun s hs => tended_unsubscribe hs sid) hs rfl) (fun response w₁ _ hs₁ => ?_))
        cases hsettled : settlement response with
        | ok result =>
          exact Prog.sat_ret (stable_stands lasting_tenure)
            (answered_removed (.ws (.reply (.unsubscribed sid))) rfl
              (hs₁.settled hsettled))
        | error e =>
          exact hquiet (Nat.le_refl _) (news_unsubscribeError e) (hs₁.unsettled hsettled)
    | ping opaqueText => exact hquiet (Nat.le_succ n) rfl hs

theorem sat_answer {command : Command} (allowed : Bool) (hopened : L.opened = some (c, principal))
    (hhandling : L.handling = some command) (hserving : L.drained = false)
    (hinv : S.protocol.inv w)
    (hs : Stands t n L (Tenure t c principal.tenantId L.held L.taken false) w) :
    (S.answer t order n principal c allowed command).Sat (S.protocol.contract t)
      (fun reply => Answered t (n + 1) c principal L (.ws (.reply reply))) w := by
  have hlater := hs.mono (Nat.le_succ n)
  cases allowed with
  | false =>
    exact Prog.sat_ret (stable_stands lasting_tenure) (show Answered t (n + 1) c principal L
      (.ws (.reply wsRateLimited)) w from hlater)
  | true =>
    have hbinary : (pure wsBinary : ServerProg WsReply).Sat (S.protocol.contract t)
        (fun reply => Answered t (n + 1) c principal L (.ws (.reply reply))) w :=
      Prog.sat_ret (stable_stands lasting_tenure) (show Answered t (n + 1) c principal L
        (.ws (.reply wsBinary)) w from hlater)
    cases command with
    | text text => exact sat_handleWsCommand hopened hhandling hserving hinv hs
    | binary => exact hbinary
    | stream fields => exact hbinary
    | grpc command => exact hbinary

theorem AtHead.takes (hL : AtHead c principal L) (command : Command) :
    (L.note (.takes command)).opened = some (c, principal) ∧
      (L.note (.takes command)).handling = some command :=
  ⟨hL.opened, rfl⟩

theorem AtHead.answered (hL : AtHead c principal L) (command : Command) {news : News}
    (hnews : ∀ delivery, news ≠ .delivered delivery) :
    AtHead c principal ((L.note (.takes command)).tell news) := by
  obtain ⟨harrival, hopened, htaken, hdrained⟩ := tell_fields (L.note (.takes command)) news
  obtain ⟨hidle, hshown⟩ := tell_answer (L.note (.takes command)) hnews
  refine ⟨fun destination => harrival ▸ hL.client destination, hopened.trans hL.opened, hidle, ?_,
    hdrained.trans hL.serving⟩
  rw [htaken, hshown]
  exact hL.shown

theorem sat_reply {α : Type} {Q : α → Server → Prop} {command : Command} {frame : Frame}
    {k : Unit → ServerProg α} (hL : AtHead c principal L)
    (hnews : ∀ delivery, frame.news ≠ .delivered delivery)
    (hs : Answered t n c principal (L.note (.takes command)) frame w)
    (h : ∀ w', S.protocol.inv w' → Waiting t c principal n w' →
      (k ()).Sat (S.protocol.contract t) Q w') :
    (note t (.sends frame) >>= k).Sat (S.protocol.contract t) Q w := by
  refine sat_note lasting_tenure (fun s htenure hfaithful => ?_) (Or.inr hnews) hs
    (fun w₁ hinv₁ hs₁ => ?_)
  · exact hfaithful.tell hL.opened hnews htenure
  · refine h w₁ hinv₁ ⟨_, hL.answered command hnews, ?_⟩
    have htaken := (tell_fields (L.note (.takes command)) frame.news).2.2.1
    rw [htaken]
    exact hs₁

theorem sat_commandTurn (limiter : CommandRateLimiter) {command : Command} (taken : Bool)
    (hcommand : ∀ grpc, command ≠ .grpc grpc) (hw : Waiting t c principal n w) :
    (S.commandTurn t order principal c limiter n command taken).Sat (S.protocol.contract t)
      (Prog.LoopPost (fun point => Waiting t c principal point.2)
        (Leaving t c principal failed)) w := by
  obtain ⟨L, hL, hs⟩ := hw
  refine sat_note lasting_tenure (fun _ _ hfaithful => hfaithful.takes command) (Or.inl hL.idle) hs
    (fun w₁ hinv₁ hs₁ => ?_)
  refine Prog.sat_bind hinv₁ (Prog.sat_mono (sat_allowCommand lasting_tenure limiter hs₁)
    (fun result w₂ hinv₂ hs₂ => ?_))
  refine Prog.sat_bind hinv₂ (Prog.sat_mono
    (sat_answer (L := L.note (.takes command)) result.1 hL.opened rfl hL.serving hinv₂ hs₂)
    (fun reply w₃ _ hs₃ => ?_))
  have hnews : ∀ delivery, (Frame.ws (.reply reply)).news ≠ .delivered delivery := by
    intro delivery
    cases reply <;> simp [Frame.news]
  cases taken with
  | true =>
    exact sat_reply hL hnews hs₃
      (fun w₄ _ hw₄ => sat_waiting (stable_waiting t c principal (n + 1)) hw₄)
  | false =>
    exact sat_over (stable_leaving t c principal failed (n + 1))
      ⟨L.note (.takes command), _, hL.opened,
        fun grpc hhandling => absurd (Option.some.inj hhandling) (hcommand grpc), hs₃⟩

theorem sat_nothing {α : Type} {Q : α → Server → Prop} {frame : Frame} {k : Unit → ServerProg α}
    (hnews : frame.news = .nothing) (hidle : L.handling = none)
    (hs : Stands t n L (Tenure t c principal.tenantId L.held L.taken false) w)
    (h : ∀ w', S.protocol.inv w' →
      Stands t n L (Tenure t c principal.tenantId L.held L.taken false) w' →
      (k ()).Sat (S.protocol.contract t) Q w') :
    (note t (.sends frame) >>= k).Sat (S.protocol.contract t) Q w := by
  have hsame : L.note (.sends frame) = L := by
    change L.tell frame.news = L
    rw [hnews]
    change { L with handling := none } = L
    rw [← hidle]
  refine sat_note lasting_tenure (fun _ _ hfaithful => ?_) (Or.inl hidle) hs
    (fun w₁ hinv₁ hs₁ => ?_)
  · rwa [hsame]
  · rw [hsame] at hs₁
    exact h w₁ hinv₁ hs₁

theorem sat_farewell {n : ℕ} {frame : Frame} {τ : Type} {I : τ → Server → Prop} (taken : Bool)
    (hnews : frame.news = .nothing) (hopened : L.opened = some (c, principal))
    (hidle : L.handling = none)
    (hs : Stands t n L (Tenure t c principal.tenantId L.held L.taken false) w) :
    (send t taken frame >>= fun _ => (pure (.done n) : ServerProg (Next τ ℕ))).Sat
      (S.protocol.contract t) (Prog.LoopPost I (Leaving t c principal failed)) w := by
  have hleaving : ∀ w', Stands t n L (Tenure t c principal.tenantId L.held L.taken false) w' →
      (pure (.done n) : ServerProg (Next τ ℕ)).Sat (S.protocol.contract t)
        (Prog.LoopPost I (Leaving t c principal failed)) w' :=
    fun w' hs' => sat_over (stable_leaving t c principal failed n)
      ⟨L, L.held, hopened, excused_of_idle hidle failed, hs'⟩
  cases taken with
  | true => exact sat_nothing hnews hidle hs (fun w₁ _ hs₁ => hleaving w₁ hs₁)
  | false => exact hleaving w hs

/-- A delivery is shown, and the session is at the head of its loop again. -/
theorem sat_deliver {α : Type} {Q : α → Server → Prop} {delivery : Delivery} {frame : Frame}
    {k : Unit → ServerProg α} (hL : AtHead c principal L)
    (hnews : frame.news = .delivered delivery)
    (hs : Stands t n (L.note (.got delivery))
      (Tenure t c principal.tenantId L.held (L.taken ++ [delivery]) false) w)
    (h : ∀ w', S.protocol.inv w' → Waiting t c principal n w' →
      (k ()).Sat (S.protocol.contract t) Q w') :
    (note t (.sends frame) >>= k).Sat (S.protocol.contract t) Q w := by
  have hnote : (L.note (.got delivery)).note (.sends frame) =
      (L.note (.got delivery)).tell (.delivered delivery) := by
    rw [← hnews]
    rfl
  have htaken : L.taken ++ [delivery] = L.shown ++ [delivery] := by rw [hL.shown]
  refine sat_note (L := L.note (.got delivery)) lasting_tenure (fun _ _ hfaithful => ?_)
    (Or.inl hL.idle) hs (fun w₁ hinv₁ hs₁ => ?_)
  · rw [hnote]
    exact hfaithful.deliver hL.client htaken
  · rw [hnote] at hs₁
    exact h w₁ hinv₁ ⟨(L.note (.got delivery)).tell (.delivered delivery),
      ⟨hL.client, hL.opened, hL.idle, htaken, hL.serving⟩, hs₁⟩

theorem sat_websocketTurn (point : CommandRateLimiter × ℕ) (turn : WsTurn)
    (hw : Waiting t c principal point.2 w) :
    (S.websocketTurn t order principal c point turn).Sat (S.protocol.contract t)
      (Prog.LoopPost (fun point => Waiting t c principal point.2)
        (Leaving t c principal failed)) w := by
  obtain ⟨limiter, n⟩ := point
  have hover : ∀ w', Leaving t c principal failed n w' →
      (pure (.done n) : ServerProg (Next (CommandRateLimiter × ℕ) ℕ)).Sat (S.protocol.contract t)
        (Prog.LoopPost (fun point => Waiting t c principal point.2)
          (Leaving t c principal failed)) w' :=
    fun w' hw' => sat_over (stable_leaving t c principal failed n) hw'
  have hagain : ∀ w', Waiting t c principal n w' →
      (pure (.again (limiter, n)) : ServerProg (Next (CommandRateLimiter × ℕ) ℕ)).Sat
        (S.protocol.contract t)
        (Prog.LoopPost (fun point => Waiting t c principal point.2)
          (Leaving t c principal failed)) w' :=
    fun w' hw' => sat_waiting (stable_waiting t c principal n) hw'
  have hw₀ := hw
  obtain ⟨L, hL, hs⟩ := hw
  cases turn with
  | delivery taken =>
    refine sat_recv hL.opened hL.shown hL.idle hs (fun w₁ _ hs₁ => ?_)
      (fun delivery w₁ _ hs₁ => ?_)
    · exact sat_farewell (L := L.note .drained) taken rfl hL.opened hL.idle hs₁
    · cases taken with
      | true => exact sat_deliver hL rfl hs₁ (fun w₂ _ hw₂ => hagain w₂ hw₂)
      | false =>
        exact hover w₁ ⟨L.note (.got delivery), _, hL.opened, excused_of_idle hL.idle failed, hs₁⟩
  | incoming message taken =>
    cases message with
    | none => exact hover w (hw₀.leaving failed)
    | some message =>
      cases message with
      | text text => exact sat_commandTurn limiter taken (by simp) hw₀
      | binary => exact sat_commandTurn limiter taken (by simp) hw₀
      | ping payload =>
        cases taken with
        | true => exact sat_nothing rfl hL.idle hs (fun w₁ _ hs₁ => hagain w₁ ⟨L, hL, hs₁⟩)
        | false => exact hover w (hw₀.leaving failed)
      | pong => exact hagain w hw₀
      | close frame => exact sat_farewell taken rfl hL.opened hL.idle hs
      | failed oversized => exact sat_farewell taken rfl hL.opened hL.idle hs

/-! ### The end of a session -/

theorem sat_plain {request : Request} {R : Response → Shared → Prop}
    (hR : ∀ s, A s → (serve S.router ⟨t, n⟩ order request).Sat (tended t) R s)
    (hs : Stands t n L A w) (hmine : ∀ s, A s → Mine t s request)
    (hsolely : ∀ c principal, L.opened = some (c, principal) → Solely c request)
    (halters : ∀ c, ¬ Alters c request) (hreceive : ∀ c, request ≠ .receive c)
    (hsourced : S.Sourced w.topic request) :
    (S.call t order n request).Sat (S.protocol.contract t)
      (fun response w' => Stands t (n + 1) L (R response) w') w :=
  sat_call hmine hsolely (fun c _ _ ha => absurd ha (halters c)) hreceive hR hsourced hs

theorem Stands.parted {R : Shared → Prop} (h : Stands t n L R w)
    (hretired : ∀ s, R s → Retired t s) (hexcused : L.Excused failed) : Parted t failed w := by
  refine ⟨⟨h.unspent.lock, hretired _ h.router⟩, ?_⟩
  rw [h.ledger]
  exact hexcused

theorem sat_own {request : Request} {R : Response → Shared → Prop}
    (hR : ∀ s, A s → (serve S.router ⟨t, n⟩ order request).Sat (tended t) R s)
    (hs : Stands t n L A w) (hmine : ∀ s, A s → Mine t s request)
    (hopened : L.opened = some (c, principal))
    (hkind : request = .unregister c ∨ request = .close c) :
    (S.call t order n request).Sat (S.protocol.contract t)
      (fun response w' => Stands t (n + 1) L (R response) w') w := by
  rcases hkind with rfl | rfl
  · exact sat_plain hR hs hmine (fun _ _ => Ledger.opened_unique hopened) (fun _ => id) (by simp)
      (by simp [Service.Sourced])
  · exact sat_plain hR hs hmine (fun _ _ => Ledger.opened_unique hopened) (fun _ => id) (by simp)
      (by simp [Service.Sourced])

theorem sat_leaveWebsocket (hinv : S.protocol.inv w) (hw : Leaving t c principal failed n w) :
    (S.call t order n (.close c) >>= fun _ => S.call t order (n + 1) (.unregister c) >>=
      fun _ => (pure () : ServerProg Unit)).Sat (S.protocol.contract t)
        (fun _ => Parted t failed) w := by
  obtain ⟨L, m, hopened, hexcused, hs⟩ := hw
  refine Prog.sat_bind hinv (Prog.sat_mono (sat_own (fun s hs => tended_close hs) hs
    (fun s hs => hs.owns) hopened (Or.inr rfl)) (fun _ w₁ hinv₁ hs₁ => ?_))
  refine Prog.sat_bind hinv₁ (Prog.sat_mono (sat_own (fun s hs => tended_unregister hs) hs₁
    (fun s hs => hs.owns) hopened (Or.inl rfl)) (fun _ w₂ _ hs₂ => ?_))
  exact Prog.sat_ret (stable_parted t failed) (hs₂.parted (fun s hs => hs.2) hexcused)

theorem sat_leaveStream (hinv : S.protocol.inv w) (hw : Leaving t c principal failed n w) :
    (S.leaveStream t order n c).Sat (S.protocol.contract t) (fun _ => Parted t failed) w := by
  obtain ⟨L, m, hopened, hexcused, hs⟩ := hw
  refine Prog.sat_bind hinv (Prog.sat_mono (sat_own (fun s hs => tended_unregister hs) hs
    (fun s hs => hs.owns) hopened (Or.inl rfl)) (fun _ w₁ hinv₁ hs₁ => ?_))
  refine Prog.sat_bind hinv₁ (Prog.sat_mono (sat_own
    (fun s hs => tended_close_retired hs.1 hs.2) hs₁ (fun s hs => hs.1.owns) hopened (Or.inr rfl))
    (fun _ w₂ _ hs₂ => ?_))
  exact Prog.sat_ret (stable_parted t failed) (hs₂.parted (fun s hs => hs.2) hexcused)

/-! ### The beginning of a session -/

def Ledger.arrive (arrival : Arrival) : Ledger := { arrival := some arrival }

theorem orderly_arrive (arrival : Arrival) : Orderly (Ledger.arrive arrival) := by
  cases arrival with
  | webhook destination => exact ⟨.nil, by simp [Ledger.arrive], rfl⟩
  | _ => rfl

/-- The connection is registered for the principal of an admitted request. -/
theorem faithful_opened {arrival : Arrival} (hadmits : S.Admits principal arrival) {s : Shared}
    (htenure : Tenure t c principal.tenantId ∅ [] false s) :
    Faithful S t ((Ledger.arrive arrival).note (.opened c principal)) s := by
  refine ⟨⟨fun c' principal' hopened => ?_, fun sid filter hl => ?_, Or.inl rfl, fun _ => rfl,
    orderly_arrive arrival⟩, fun c' principal' hopened => ?_⟩
  · cases hopened
    exact ⟨arrival, rfl, hadmits⟩
  · cases hl
  · cases hopened
    obtain ⟨channel, hl, hreceived, _⟩ := htenure.channel
    exact ⟨htenure.registered, fun _ => htenure.held, channel, hl, hreceived, fun h => by cases h⟩

/-- What a session knows after its registration. -/
def Opening (t : ℕ) (principal : Principal) (L : Ledger) (w : Server) :
    Except CoreError ConnectionId → Prop
  | .error _ => Parted t False w
  | .ok c => Stands t 1 L (Tenure t c principal.tenantId ∅ [] false) w

theorem sat_register (principal : Principal) (protocol : DeliveryProtocol)
    (queueCapacity : Option ℕ) (hclosed : L.opened = none) (hidle : L.handling = none)
    (hs : Stands t 0 L (Landless t) w) :
    (S.call t order 0 (.register principal.tenantId protocol queueCapacity)).Sat
      (S.protocol.contract t)
      (fun response w' => Opening t principal L w' (registration response)) w := by
  refine Prog.sat_mono (sat_plain (fun s hs => tended_register hs) hs (fun _ _ => trivial)
    (by simp [hclosed]) (fun _ => id) (by simp) (by simp [Service.Sourced]))
    (fun response w₁ _ hs₁ => ?_)
  have hlandless : Landless t w₁.router → Parted t False w₁ := by
    refine fun hw₁ => ⟨⟨hs₁.unspent.lock, hw₁.retired⟩, ?_⟩
    rw [hs₁.ledger]
    exact excused_of_idle hidle False
  cases response with
  | registered result =>
    cases result with
    | ok c => exact hs₁
    | error e => exact hlandless hs₁.router
  | _ => exact hlandless hs₁.router

theorem atHead_opened {arrival : Arrival} (hclient : ∀ destination, arrival ≠ .webhook destination)
    (c : ConnectionId) (principal : Principal) :
    AtHead c principal ((Ledger.arrive arrival).note (.opened c principal)) :=
  ⟨fun destination h => hclient destination (Option.some.inj h), rfl, rfl, rfl, rfl⟩

theorem sat_websocketSession {arrival : Arrival} (hadmits : S.Admits principal arrival)
    (hclient : ∀ destination, arrival ≠ .webhook destination) (queueCapacity : ℕ)
    (script : List WsTurn) (hinv : S.protocol.inv w)
    (hs : Stands t 0 (Ledger.arrive arrival) (Landless t) w) :
    (S.websocketSession t order principal queueCapacity script).Sat (S.protocol.contract t)
      (fun _ => Parted t False) w := by
  refine Prog.sat_bind hinv (Prog.sat_mono (sat_register _ _ _ rfl rfl hs)
    (fun response w₁ hinv₁ hopening => ?_))
  cases hregistration : registration response with
  | error e =>
    rw [hregistration] at hopening
    exact Prog.sat_ret (stable_parted t False) hopening
  | ok c =>
    rw [hregistration] at hopening
    refine sat_note lasting_tenure (fun s htenure _ => faithful_opened hadmits htenure)
      (Or.inl rfl) hopening (fun w₂ hinv₂ hs₂ => ?_)
    refine sat_aside lasting_tenure (fun draw w' => ⟨rfl, rfl, id, rfl⟩) hs₂
      (fun clock w₃ _ hinv₃ hs₃ => ?_)
    refine Prog.sat_bind hinv₃ (Prog.sat_mono (Prog.sat_follow (stable_leaving t c principal False)
      (fun point turn w' _ hw' => sat_websocketTurn point turn hw') script _ hinv₃
      ⟨_, atHead_opened hclient c principal, hs₃⟩) (fun n w₄ hinv₄ hw₄ => ?_))
    exact sat_leaveWebsocket hinv₄ hw₄

end Sessions
end KafkaEdgeRouter.Stream
