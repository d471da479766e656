import Mathlib.Data.List.Chain
import KafkaEdgeRouter.SessionTurns

/-!
# Volatile webhooks, delivery by delivery

The worker of a volatile webhook attempts one delivery until it is over and only then takes the
next. Along the attempts only its posts change, and those keep their order line by line, so that it
holds wherever the worker is dropped.
-/

namespace KafkaEdgeRouter.Stream

open Api Router

/-! ### The order of the attempts -/

section Courses

variable {maxAttempts attempt : ℕ} {shown : List Delivery} {posts : List Post}
  {delivery : Delivery} {result : Webhook.AttemptResult}

theorem answerLast_concat (result : Webhook.AttemptResult) (posts : List Post) (post : Post) :
    answerLast result (posts ++ [post]) = posts ++ [{ post with answer := some result }] := by
  induction posts with
  | nil => rfl
  | cons first rest ih =>
    cases rest with
    | nil => rfl
    | cons next rest => exact congrArg (first :: ·) ih

/-- The attempt may come next. -/
structure Poised (maxAttempts : ℕ) (delivery : Delivery) (attempt : ℕ) (posts : List Post) :
    Prop where
  first : attempt = 1 → ∀ post ∈ posts.getLast?, post.Ended maxAttempts
  later : attempt ≠ 1 → ∃ post, posts.getLast? = some post ∧ post.delivery = delivery ∧
    post.attempt + 1 = attempt ∧ post.answer = some .retryable ∧ post.attempt < maxAttempts

theorem Poised.follows (h : Poised maxAttempts delivery attempt posts) :
    ∀ post ∈ posts.getLast?, Follows maxAttempts post ⟨delivery, attempt, none⟩ := by
  intro post hpost
  by_cases hattempt : attempt = 1
  · exact Or.inr ⟨hattempt, h.first hattempt post hpost⟩
  · obtain ⟨last, hlast, hdelivery, hnumber, hanswer, hlimit⟩ := h.later hattempt
    rw [hlast] at hpost
    cases hpost
    exact Or.inl ⟨hdelivery.symm, hnumber.symm, hanswer, hlimit⟩

theorem Courses.post (h : Courses maxAttempts shown posts)
    (hpoised : Poised maxAttempts delivery attempt posts) :
    Courses maxAttempts (if attempt = 1 then shown ++ [delivery] else shown)
      (posts ++ [⟨delivery, attempt, none⟩]) := by
  refine ⟨?_, ?_, ?_⟩
  · refine h.chain.append (.singleton _) (fun post hpost next hnext => ?_)
    cases hnext
    exact hpoised.follows post hpost
  · intro post hpost
    cases hposts : posts with
    | nil =>
      rw [hposts] at hpost
      cases hpost
      by_contra hattempt
      obtain ⟨last, hlast, _⟩ := hpoised.later hattempt
      rw [hposts] at hlast
      cases hlast
    | cons head rest =>
      rw [hposts] at hpost
      cases hpost
      exact h.first post (by rw [hposts]; rfl)
  · rw [List.filter_append, List.map_append, h.shown]
    by_cases hattempt : attempt = 1
    · simp [hattempt]
    · simp [hattempt]

theorem Courses.answer (h : Courses maxAttempts shown (posts ++ [⟨delivery, attempt, none⟩]))
    (result : Webhook.AttemptResult) :
    Courses maxAttempts shown (posts ++ [⟨delivery, attempt, some result⟩]) := by
  obtain ⟨hchain, hfirst, hshown⟩ := h
  rw [List.isChain_append] at hchain
  refine ⟨?_, ?_, ?_⟩
  · refine List.isChain_append.mpr ⟨hchain.1, .singleton _, fun post hpost next hnext => ?_⟩
    cases hnext
    exact hchain.2.2 post hpost ⟨delivery, attempt, none⟩ rfl
  · intro post hpost
    cases posts with
    | nil =>
      cases hpost
      exact hfirst ⟨delivery, attempt, none⟩ rfl
    | cons first rest => exact hfirst post hpost
  · rw [← hshown, List.filter_append, List.filter_append, List.map_append, List.map_append]
    by_cases hattempt : attempt = 1
    · simp [hattempt]
    · simp [hattempt]

/-- What holds of first attempts and passes from an attempt to the one that repeats it holds of all
attempts. -/
theorem Courses.forall {p : Post → Prop} (h : Courses maxAttempts shown posts)
    (hfirst : ∀ post ∈ posts, post.attempt = 1 → p post)
    (hnext : ∀ post next, p post → next.delivery = post.delivery →
      next.attempt = post.attempt + 1 → post.attempt < maxAttempts → p next) :
    ∀ post ∈ posts, p post := by
  have hchain := h.chain
  have hstart : ∀ post ∈ posts.head?, p post :=
    fun post hpost => hfirst post (List.mem_of_mem_head? hpost) (h.first post hpost)
  clear h
  induction posts with
  | nil => simp
  | cons post rest ih =>
    rw [List.isChain_cons] at hchain
    have hpost := hstart post rfl
    refine List.forall_mem_cons.mpr ⟨hpost, ih ?_ hchain.2 (fun next hmem => ?_)⟩
    · exact fun next hmem => hfirst next (List.mem_cons_of_mem post hmem)
    · rcases hchain.1 next hmem with ⟨hdelivery, hattempt, _, hlimit⟩ | ⟨hattempt, _⟩
      · exact hnext post next hpost hdelivery hattempt hlimit
      · exact hfirst next (List.mem_cons_of_mem post (List.mem_of_mem_head? hmem)) hattempt

theorem over_concat {result : Webhook.AttemptResult}
    (hover : result = .retryable → maxAttempts ≤ attempt) :
    ∀ post ∈ (posts ++ [(⟨delivery, attempt, some result⟩ : Post)]).getLast?,
      post.Ended maxAttempts := by
  intro post hpost
  rw [List.getLast?_concat] at hpost
  cases hpost
  exact ⟨result, rfl, hover⟩

end Courses

/-! ### Lines about attempts -/

/-- The ledgers differ in the attempts and in what was shown at most. -/
structure Alike (L L' : Ledger) : Prop where
  arrival : L'.arrival = L.arrival
  opened : L'.opened = L.opened
  handling : L'.handling = L.handling
  held : L'.held = L.held
  taken : L'.taken = L.taken
  drained : L'.drained = L.drained

/-- Lines about attempts that leave the ledger sound one by one. -/
def Paced (S : Service) (L : Ledger) : List Line → Prop
  | [] => True
  | line :: rest => Alike L (L.note line) ∧ Sound S (L.note line) ∧ Paced S (L.note line) rest

section Paced

variable {S : Service} {t n : ℕ} {L L' L'' : Ledger} {lines : List Line} {s : Shared} {w : Server}
  {A : Shared → Prop} {α : Type} {Q : α → Server → Prop}

theorem Alike.trans (h : Alike L L') (h' : Alike L' L'') : Alike L L'' :=
  ⟨h'.arrival.trans h.arrival, h'.opened.trans h.opened, h'.handling.trans h.handling,
    h'.held.trans h.held, h'.taken.trans h.taken, h'.drained.trans h.drained⟩

theorem Alike.faithful (h : Alike L L') (hsound : Sound S L') (hL : Faithful S t L s) :
    Faithful S t L' s := by
  refine ⟨hsound, fun c principal hopened => ?_⟩
  obtain ⟨hregistered, hheld, htaken⟩ := hL.agrees c principal (h.opened ▸ hopened)
  refine ⟨hregistered, ?_, ?_⟩
  · rw [h.handling, h.held]
    exact hheld
  · rw [h.taken, h.drained]
    exact htaken

theorem Paced.alike (h : Paced S L lines) : Alike L (lines.foldl Ledger.note L) := by
  induction lines generalizing L with
  | nil => exact ⟨rfl, rfl, rfl, rfl, rfl, rfl⟩
  | cons line rest ih => exact h.1.trans (ih h.2.2)

theorem Paced.take (h : Paced S L lines) (count : ℕ) : Paced S L (lines.take count) := by
  induction lines generalizing L count with
  | nil => simp [Paced]
  | cons line rest ih =>
    cases count with
    | zero => trivial
    | succ count => exact ⟨h.1, h.2.1, ih h.2.2 count⟩

theorem sat_noteAll {k : Unit → ServerProg α} (hA : Lasting t A) (hpaced : Paced S L lines)
    (hidle : L.handling = none) (hinv : S.protocol.inv w) (hs : Stands t n L A w)
    (h : ∀ w', S.protocol.inv w' → Stands t n (lines.foldl Ledger.note L) A w' →
      (k ()).Sat (S.protocol.contract t) Q w') :
    (Service.noteAll t lines >>= k).Sat (S.protocol.contract t) Q w := by
  induction lines generalizing L w with
  | nil => exact h w hinv hs
  | cons line rest ih =>
    obtain ⟨halike, hsound, hrest⟩ := hpaced
    exact sat_note (k := fun _ => Service.noteAll t rest >>= k) hA
      (fun _ _ hfaithful => halike.faithful hsound hfaithful) (Or.inl hidle) hs
      (fun w₁ hinv₁ hs₁ => ih hrest (halike.handling.trans hidle) hinv₁ hs₁ h)

end Paced

/-! ### One delivery -/

/-- The ledger of a webhook outside of its startup. -/
structure Engaged (destination : Webhook.WebhookDestinationConfig) (c : ConnectionId)
    (L : Ledger) : Prop where
  arrival : L.arrival = some (.webhook destination)
  opened : L.opened = some (c, webhookPrincipal destination)
  idle : L.handling = none
  serving : L.drained = false

structure AtRest (destination : Webhook.WebhookDestinationConfig) (c : ConnectionId) (L : Ledger) :
    Prop extends Engaged destination c L where
  shown : L.taken = L.shown
  ended : ∀ post ∈ L.posts.getLast?,
    post.Ended (Webhook.WebhookWorker.new destination).maxAttempts

structure Attempting (S : Service) (destination : Webhook.WebhookDestinationConfig)
    (c : ConnectionId) (delivery : Delivery) (attempt : ℕ) (L : Ledger) : Prop
    extends Engaged destination c L where
  sound : Sound S L
  poised : Poised (Webhook.WebhookWorker.new destination).maxAttempts delivery attempt L.posts
  taken : L.taken = if attempt = 1 then L.shown ++ [delivery] else L.shown

section Attempts

variable {S : Service} {destination : Webhook.WebhookDestinationConfig} {c : ConnectionId}
  {delivery : Delivery} {attempt : ℕ} {L : Ledger}

theorem Engaged.courses (h : Engaged destination c L) (hsound : Sound S L) :
    Courses (Webhook.WebhookWorker.new destination).maxAttempts L.shown L.posts := by
  have horderly := hsound.orderly
  rwa [Orderly, h.arrival] at horderly

theorem Engaged.sound {L' : Ledger} (h : Engaged destination c L) (hsound : Sound S L)
    (halike : Alike L L') (hshown : L'.taken = L'.shown)
    (hcourses : Courses (Webhook.WebhookWorker.new destination).maxAttempts L'.shown L'.posts) :
    Sound S L' := by
  refine ⟨?_, ?_, Or.inl hshown, fun _ => hshown, ?_⟩
  · rw [halike.opened, halike.arrival]
    exact hsound.admitted
  · rw [halike.held, halike.opened]
    exact hsound.tenant
  · rw [Orderly, halike.arrival, h.arrival]
    exact hcourses

theorem Attempting.made (h : Attempting S destination c delivery attempt L)
    (result : Webhook.AttemptResult) :
    Paced S L [.posts delivery attempt, .answered result] ∧
    ((L.note (.posts delivery attempt)).note (.answered result)).posts =
      L.posts ++ [⟨delivery, attempt, some result⟩] ∧
    ((L.note (.posts delivery attempt)).note (.answered result)).shown = L.taken := by
  have hshown : (L.note (.posts delivery attempt)).shown = L.taken := h.taken.symm
  have hposts : ((L.note (.posts delivery attempt)).note (.answered result)).posts =
      L.posts ++ [⟨delivery, attempt, some result⟩] := answerLast_concat _ _ _
  have hcourses := (h.courses h.sound).post h.poised
  refine ⟨⟨⟨rfl, rfl, rfl, rfl, rfl, rfl⟩, ?_, ⟨rfl, rfl, rfl, rfl, rfl, rfl⟩, ?_, trivial⟩,
    hposts, hshown⟩
  · exact h.toEngaged.sound h.sound ⟨rfl, rfl, rfl, rfl, rfl, rfl⟩ hshown.symm hcourses
  · refine h.toEngaged.sound h.sound ⟨rfl, rfl, rfl, rfl, rfl, rfl⟩ hshown.symm ?_
    rw [hposts]
    exact hcourses.answer result

theorem Attempting.last (h : Attempting S destination c delivery attempt L)
    {results : ℕ → Webhook.Transport} (hover : Webhook.attemptResult (results 0) = .retryable →
      (Webhook.WebhookWorker.new destination).maxAttempts ≤ attempt) :
    Paced S L (Service.course delivery [attempt] results) ∧
      AtRest destination c ((Service.course delivery [attempt] results).foldl Ledger.note L) := by
  obtain ⟨hpaced, hposts, hshown⟩ := h.made (Webhook.attemptResult (results 0))
  refine ⟨hpaced, ⟨h.arrival, h.opened, h.idle, h.serving⟩, hshown.symm, ?_⟩
  change ∀ post ∈ ((L.note (.posts delivery attempt)).note
    (.answered (Webhook.attemptResult (results 0)))).posts.getLast?, _
  rw [hposts]
  exact over_concat hover

theorem Attempting.again (h : Attempting S destination c delivery attempt L)
    (hpositive : 0 < attempt)
    (hlimit : attempt < (Webhook.WebhookWorker.new destination).maxAttempts) :
    Attempting S destination c delivery (attempt + 1)
      ((L.note (.posts delivery attempt)).note (.answered .retryable)) := by
  obtain ⟨⟨_, _, _, hsound, _⟩, hposts, hshown⟩ := h.made .retryable
  refine ⟨⟨h.arrival, h.opened, h.idle, h.serving⟩, hsound, ⟨fun hone => ?_, fun _ => ?_⟩, ?_⟩
  · omega
  · rw [hposts, List.getLast?_concat]
    exact ⟨_, rfl, rfl, rfl, rfl, hlimit⟩
  · rw [if_neg (by omega), hshown]
    rfl

/-- The whole loop over the attempts. The induction is on the numbers that are left: they run up to
the limit, so the last one is not repeated. -/
theorem Attempting.course (left delay : ℕ) (results : ℕ → Webhook.Transport)
    (h : Attempting S destination c delivery attempt L) (hpositive : 0 < attempt)
    (hleft : attempt + left = (Webhook.WebhookWorker.new destination).maxAttempts) :
    let lines := Service.course delivery ((Webhook.WebhookWorker.new destination).deliverFrom
      (left + 1) attempt delay results).attempts results
    Paced S L lines ∧ AtRest destination c (lines.foldl Ledger.note L) := by
  intro lines
  induction left generalizing attempt delay results L with
  | zero =>
    have hattempts : ((Webhook.WebhookWorker.new destination).deliverFrom 1 attempt delay
        results).attempts = [attempt] := by
      rw [Webhook.WebhookWorker.deliverFrom]
      split
      · rfl
      · rfl
      · rw [if_neg (by omega)]
        rfl
    simp only [lines, hattempts]
    exact h.last (fun _ => by omega)
  | succ left ih =>
    simp only [lines]
    rw [Webhook.WebhookWorker.deliverFrom]
    cases hresult : Webhook.attemptResult (results 0) with
    | delivered status => exact h.last (fun hretryable => by simp [hresult] at hretryable)
    | permanent => exact h.last (fun hretryable => by simp [hresult] at hretryable)
    | retryable =>
      have hlimit : attempt < (Webhook.WebhookWorker.new destination).maxAttempts := by omega
      obtain ⟨⟨halike, hsound, halike', hsound', _⟩, _⟩ := h.made .retryable
      obtain ⟨hpaced, hrest⟩ := ih _ (fun n => results (n + 1)) (h.again hpositive hlimit)
        (Nat.succ_pos _) (by omega)
      simp only [if_pos hlimit, Webhook.Report.before, Service.course, hresult]
      exact ⟨⟨halike, hsound, halike', hsound', hpaced⟩, hrest⟩

end Attempts

/-! ### The worker -/

def Resting (t : ℕ) (destination : Webhook.WebhookDestinationConfig) (c : ConnectionId)
    (w : Server) : Prop :=
  ∃ L, AtRest destination c L ∧
    Stands t 2 L (Tenure t c destination.filter.tenantId L.held L.taken false) w

section Worker

variable {S : Service} {t : ℕ} {order : HashOrder} {c : ConnectionId} {w : Server}
  {destination : Webhook.WebhookDestinationConfig}

theorem stable_resting (t : ℕ) (destination : Webhook.WebhookDestinationConfig)
    (c : ConnectionId) : (S.protocol.contract t).Stable (Resting t destination c) := by
  rintro w w' hi hi' hd ⟨L, hL, hs⟩
  exact ⟨L, hL, stable_stands lasting_tenure w w' hi hi' hd hs⟩

theorem sat_webhookTurn (turn : WebhookTurn) (hw : Resting t destination c w) :
    (Service.webhookTurn t (Webhook.WebhookWorker.new destination) c () turn).Sat
      (S.protocol.contract t) (Prog.LoopPost (fun _ => Resting t destination c)
        (fun _ => Leaving t c (webhookPrincipal destination) False 2)) w := by
  have hleave : ∀ (result : Except String Unit) {L : Ledger} {m : Subscriptions} {w' : Server},
      L.opened = some (c, webhookPrincipal destination) → L.handling = none →
      Stands t 2 L (Tenure t c destination.filter.tenantId m L.taken false) w' →
      (pure (.done result) : ServerProg (Next Unit (Except String Unit))).Sat
        (S.protocol.contract t) (Prog.LoopPost (fun _ => Resting t destination c)
          (fun _ => Leaving t c (webhookPrincipal destination) False 2)) w' :=
    fun _ {L m _} hopened hidle hs =>
      sat_over (stable_leaving t c (webhookPrincipal destination) False 2)
        ⟨L, m, hopened, excused_of_idle hidle False, hs⟩
  obtain ⟨L, hL, hs⟩ := hw
  cases turn with
  | stopped => exact hleave _ hL.opened hL.idle hs
  | delivery shutdown results dropped =>
    refine sat_recv hL.opened hL.shown hL.idle hs
      (fun w₁ _ hs₁ => ?_) (fun delivery w₁ hinv₁ hs₁ => ?_)
    · exact hleave _ (L := L.note .drained) hL.opened hL.idle hs₁
    · have hfaithful : Faithful S t (L.note (.got delivery)) w₁.router :=
        hs₁.ledger ▸ hinv₁.faithful t
      have hattempting : Attempting S destination c delivery 1 (L.note (.got delivery)) :=
        ⟨⟨hL.arrival, hL.opened, hL.idle, hL.serving⟩, hfaithful.sound,
          ⟨fun _ => hL.ended, fun h => absurd rfl h⟩, congrArg (· ++ [delivery]) hL.shown⟩
      have hmax : 1 ≤ (Webhook.WebhookWorker.new destination).maxAttempts := Nat.le_max_right _ _
      obtain ⟨hpaced, hrest⟩ := hattempting.course
        ((Webhook.WebhookWorker.new destination).maxAttempts - 1)
        (Webhook.WebhookWorker.new destination).initialBackoff results Nat.one_pos (by omega)
      rw [Nat.sub_add_cancel hmax] at hpaced hrest
      cases dropped with
      | none =>
        refine sat_noteAll lasting_tenure hpaced hL.idle hinv₁ hs₁ (fun w₂ _ hs₂ => ?_)
        refine sat_waiting (stable_resting t destination c) ⟨_, hrest, ?_⟩
        rw [hpaced.alike.held, hpaced.alike.taken]
        exact hs₂
      | some count =>
        have htaken := (hpaced.take count).alike
        refine sat_noteAll lasting_tenure (hpaced.take count) hL.idle hinv₁ hs₁
          (fun w₂ _ hs₂ => ?_)
        refine hleave _ (htaken.opened.trans hL.opened) (htaken.handling.trans hL.idle)
          (m := L.held) ?_
        rw [htaken.taken]
        exact hs₂

theorem Faithful.subscribed {L : Ledger} {principal : Principal} {sid : SubscriptionId}
    {l : List Delivery} {closed : Bool} {s : Shared} (hopened : L.opened = some (c, principal))
    (h : Faithful S t L s)
    (htenure : Tenure t c principal.tenantId (L.note (.subscribed sid)).held l closed s) :
    Faithful S t (L.note (.subscribed sid)) s :=
  h.tell hopened (by simp) htenure

theorem sat_webhookSession (script : List WebhookTurn) (hinv : S.protocol.inv w)
    (hs : Stands t 0 (Ledger.arrive (.webhook destination)) (Landless t) w) :
    (S.webhookSession t order destination script).Sat (S.protocol.contract t)
      (fun _ => Parted t False) w := by
  have hend : ∀ {c : ConnectionId} {n : ℕ} {w' : Server} (result : Except String Unit),
      S.protocol.inv w' → Leaving t c (webhookPrincipal destination) False n w' →
      (S.leaveStream t order n c >>= fun _ => pure result).Sat (S.protocol.contract t)
        (fun _ => Parted t False) w' := by
    intro c n w' result hinv' hw'
    exact Prog.sat_bind hinv' (Prog.sat_mono (sat_leaveStream hinv' hw')
      (fun _ w₁ _ hw₁ => Prog.sat_ret (stable_parted t False) hw₁))
  refine Prog.sat_bind hinv (Prog.sat_mono
    (sat_register (webhookPrincipal destination) _ _ rfl rfl hs)
    (fun answer w₁ hinv₁ hopening => ?_))
  cases hregistration : registration answer with
  | error e =>
    rw [hregistration] at hopening
    exact Prog.sat_ret (stable_parted t False) hopening
  | ok c =>
    rw [hregistration] at hopening
    have hadmits : S.Admits (webhookPrincipal destination) (.webhook destination) := rfl
    refine sat_note lasting_tenure (fun s htenure _ => faithful_opened hadmits htenure)
      (Or.inl rfl) hopening (fun w₂ hinv₂ hs₂ => ?_)
    cases SubscriptionId.new (Webhook.WebhookRuntime.subscriptionName destination.id) with
    | error e => exact hend _ hinv₂ ⟨_, ∅, rfl, excused_of_idle rfl False, hs₂⟩
    | ok sid =>
      refine sat_note lasting_tenure (fun _ _ hfaithful =>
        hfaithful.takes (.stream (filterFields destination.filter))) (Or.inl rfl) hs₂
        (fun w₃ hinv₃ hs₃ => ?_)
      refine Prog.sat_bind hinv₃ (Prog.sat_mono (sat_change rfl (by simp [Ledger.note]) rfl
        (fun s hs => tended_subscribe hs sid destination.filter) hs₃ rfl)
        (fun answer w₄ hinv₄ hs₄ => ?_))
      cases hsettled : settlement answer with
      | error e =>
        exact hend _ hinv₄ ⟨_, ∅, rfl, by simp [Ledger.Excused, Ledger.note],
          hs₄.unsettled hsettled⟩
      | ok result =>
        refine sat_note lasting_tenure ?_ (Or.inr trivial) (hs₄.settled hsettled)
          (fun w₅ hinv₅ hs₅ => ?_)
        · intro s htenure hfaithful
          exact hfaithful.subscribed rfl htenure
        · refine Prog.sat_bind hinv₅ (Prog.sat_mono (Prog.sat_follow
            (I := fun _ => Resting t destination c)
            (Q := fun _ => Leaving t c (webhookPrincipal destination) False 2)
            (fun _ => stable_leaving t c (webhookPrincipal destination) False 2)
            (fun _ turn w' _ hw' => sat_webhookTurn turn hw') script () hinv₅ ⟨_, ?_, hs₅⟩)
            (fun _ w₆ hinv₆ hw₆ => hend _ hinv₆ hw₆))
          exact ⟨⟨rfl, rfl, rfl, rfl⟩, rfl,
            fun post hpost => absurd hpost (Option.not_mem_none post)⟩

end Worker
end KafkaEdgeRouter.Stream
