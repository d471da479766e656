import KafkaEdgeRouter.RateLimits
import KafkaEdgeRouter.StepRuns

/-!
# The windows of the abuse limiter

A call of the limiter looks at the window of the process first and at the window of the tenant
later, with the clock read anew. What the process accepts in one of its windows is within the limits
of the process. What it accepts from one tenant is within the limits of a tenant unless a call comes
so late that the window of the process is not yet over when it looks and that of the tenant is: the
tenant's counters start again, although its earlier calls count in the same window of the process.
After such a call the window of the process is over, so there is one more call at most.
-/

namespace KafkaEdgeRouter.Api

structure LimitedCall where
  clock : Readings
  tenantId : String
  kind : RateKind

/-- The limiter, the calls it has accepted in the present window of the process, and the latest
reading of the clock. -/
structure ObservedLimiter where
  state : RateState
  accepted : List (String × RateKind)
  clock : ℕ

def ApiConfig.globalLimit (config : ApiConfig) : RateKind → ℕ
  | .command => config.globalCommandsPerSecond
  | .publish => config.globalPublishesPerSecond

def ApiConfig.principalLimit (config : ApiConfig) : RateKind → ℕ
  | .command => config.principalCommandsPerSecond
  | .publish => config.principalPublishesPerSecond

def RateState.count (state : RateState) : RateKind → ℕ
  | .command => state.commands
  | .publish => state.publishes

def PrincipalRate.count (principal : PrincipalRate) : RateKind → ℕ
  | .command => principal.commands
  | .publish => principal.publishes

namespace AbuseLimiter

def new (now : ℕ) : RateState := ⟨now, 0, 0, ∅⟩

/-- The window of the process is over when the call looks at it. -/
def Renews (call : LimitedCall) (state : RateState) : Prop :=
  call.clock.window - state.windowStarted ≥ second

instance (call : LimitedCall) (state : RateState) : Decidable (Renews call state) :=
  inferInstanceAs (Decidable (_ ≥ _))

/-- A call whose readings of the clock come one after the other, and after those before it. -/
def step (config : ApiConfig) (s : ObservedLimiter) (call : LimitedCall) :
    Option ObservedLimiter :=
  if s.clock ≤ call.clock.now ∧ call.clock.now ≤ call.clock.window ∧
      call.clock.window ≤ call.clock.principalWindow then
    let (ok, state) := allow config call.clock call.tenantId call.kind s.state
    let accepted := if Renews call s.state then [] else s.accepted
    some ⟨state, if ok then accepted ++ [(call.tenantId, call.kind)] else accepted,
      call.clock.principalWindow⟩
  else none

def start (now : ℕ) : ObservedLimiter := ⟨new now, [], now⟩

/-- The limits that the configuration promises for a window of the process, and for the table and
the counters at any time. -/
structure Within (config : ApiConfig) (s : ObservedLimiter) : Prop where
  total : ∀ kind, s.accepted.countP (fun call => call.2 = kind) ≤ config.globalLimit kind
  principal : ∀ tenantId kind,
    s.accepted.count (tenantId, kind) ≤ config.principalLimit kind
  table : s.state.principals.size ≤ config.maxRateLimitPrincipals
  counters : ∀ kind, s.state.count kind < 2 ^ 32 ∧
    ∀ tenantId principal, s.state.principals.lookup tenantId = some principal →
      principal.count kind < 2 ^ 32

/-- The call finds the window of the process open and the window of its tenant over, after the
tenant has used up its limit, and the process has not. -/
def Straddles (config : ApiConfig) (s : ObservedLimiter) (call : LimitedCall) : Prop :=
  ¬ Renews call s.state ∧ s.state.count call.kind < config.globalLimit call.kind ∧
    ∃ principal, s.state.principals.lookup call.tenantId = some principal ∧
      call.clock.principalWindow - principal.windowStarted ≥ second ∧
      config.principalLimit call.kind ≤ principal.count call.kind

/-! ### One call -/

def entry (clock : Readings) (tenantId : String) (state : RateState) : PrincipalRate :=
  renewPrincipal clock ((state.principals.lookup tenantId).getD ⟨clock.now, 0, 0⟩)

end AbuseLimiter

def RateState.add (kind : RateKind) (state : RateState) : RateState :=
  match kind with
  | .command => { state with commands := state.commands + 1 }
  | .publish => { state with publishes := state.publishes + 1 }

namespace AbuseLimiter

/-- What `allow` does with a window that is not over. -/
inductive Judged (config : ApiConfig) (call : LimitedCall) (state : RateState) :
    Bool → RateState → Prop
  | refused : config.globalLimit call.kind ≤ state.count call.kind ∨
        call.tenantId ∉ state.principals → Judged config call state false state
  | exhausted : call.tenantId ∈ state.principals ∨
        state.principals.size < config.maxRateLimitPrincipals →
      config.principalLimit call.kind ≤ (entry call.clock call.tenantId state).count call.kind →
      Judged config call state false { state with
        principals := state.principals.insert call.tenantId
          (entry call.clock call.tenantId state) }
  | accepted : state.count call.kind < config.globalLimit call.kind →
      call.tenantId ∈ state.principals ∨
        state.principals.size < config.maxRateLimitPrincipals →
      (entry call.clock call.tenantId state).count call.kind < config.principalLimit call.kind →
      Judged config call state true (RateState.add call.kind { state with
        principals := state.principals.insert call.tenantId
          (accept call.kind (entry call.clock call.tenantId state)) })

variable {config : ApiConfig} {call : LimitedCall} {state state' : RateState}
  {s s' : ObservedLimiter}

theorem room_of_not (h : ¬ (call.tenantId ∉ state.principals ∧
    state.principals.size ≥ config.maxRateLimitPrincipals)) :
    call.tenantId ∈ state.principals ∨ state.principals.size < config.maxRateLimitPrincipals := by
  by_cases hmem : call.tenantId ∈ state.principals
  · exact Or.inl hmem
  · exact Or.inr (Nat.lt_of_not_le (fun hle => h ⟨hmem, hle⟩))

theorem judged_allow (config : ApiConfig) (call : LimitedCall) (state : RateState) :
    Judged config call (renew call.clock state)
      (allow config call.clock call.tenantId call.kind state).1
      (allow config call.clock call.tenantId call.kind state).2 := by
  obtain ⟨clock, tenantId, kind⟩ := call
  cases kind with
  | command =>
    simp only [allow]
    split_ifs with hglobal hroom hprincipal
    · exact .refused (Or.inl hglobal)
    · exact .refused (Or.inr hroom.1)
    · exact .exhausted (room_of_not hroom) hprincipal
    · exact .accepted (Nat.lt_of_not_le hglobal) (room_of_not hroom) (Nat.lt_of_not_le hprincipal)
  | publish =>
    simp only [allow]
    split_ifs with hglobal hroom hprincipal
    · exact .refused (Or.inl hglobal)
    · exact .refused (Or.inr hroom.1)
    · exact .exhausted (room_of_not hroom) hprincipal
    · exact .accepted (Nat.lt_of_not_le hglobal) (room_of_not hroom) (Nat.lt_of_not_le hprincipal)

theorem count_accept (kind kind' : RateKind) (principal : PrincipalRate) :
    (accept kind principal).count kind' =
      principal.count kind' + if kind' = kind then 1 else 0 := by
  cases kind <;> cases kind' <;> rfl

theorem windowStarted_accept (kind : RateKind) (principal : PrincipalRate) :
    (accept kind principal).windowStarted = principal.windowStarted := by
  cases kind <;> rfl

theorem count_add (kind kind' : RateKind) (state : RateState) :
    (state.add kind).count kind' = state.count kind' + if kind' = kind then 1 else 0 := by
  cases kind <;> cases kind' <;> rfl

theorem add_fields (kind : RateKind) (state : RateState) :
    (state.add kind).windowStarted = state.windowStarted ∧
      (state.add kind).principals = state.principals := by
  cases kind <;> exact ⟨rfl, rfl⟩

/-! ### What the counters count -/

def recorded (state : RateState) (tenantId : String) (kind : RateKind) : ℕ :=
  ((state.principals.lookup tenantId).getD ⟨0, 0, 0⟩).count kind

structure Account (config : ApiConfig) (s : ObservedLimiter) : Prop where
  started : s.state.windowStarted ≤ s.clock
  total : ∀ kind, s.accepted.countP (fun call => call.2 = kind) = s.state.count kind
  total_le : ∀ kind, s.state.count kind ≤ config.globalLimit kind
  entries : ∀ tenantId principal, s.state.principals.lookup tenantId = some principal →
    s.state.windowStarted ≤ principal.windowStarted ∧
      ∀ kind, principal.count kind ≤ config.principalLimit kind
  table : s.state.principals.size ≤ config.maxRateLimitPrincipals
  principal : ∀ tenantId kind,
    s.accepted.count (tenantId, kind) ≤ config.principalLimit kind

def Tracks (s : ObservedLimiter) : Prop :=
  ∀ tenantId kind, s.accepted.count (tenantId, kind) = recorded s.state tenantId kind

/-- The table may disagree only when the window of the process is over for all calls to come. -/
structure Books (config : ApiConfig) (s : ObservedLimiter) : Prop where
  account : Account config s
  tracks : s.clock - s.state.windowStarted < second → Tracks s

theorem Account.within (h : Account config s)
    (hrange : ∀ kind, config.globalLimit kind < 2 ^ 32 ∧ config.principalLimit kind < 2 ^ 32) :
    Within config s where
  total kind := by
    rw [h.total]
    exact h.total_le kind
  principal := h.principal
  table := h.table
  counters kind := ⟨Nat.lt_of_le_of_lt (h.total_le kind) (hrange kind).1,
    fun tenantId principal hlookup =>
      Nat.lt_of_le_of_lt ((h.entries tenantId principal hlookup).2 kind) (hrange kind).2⟩

theorem count_zero (now : ℕ) (kind : RateKind) : PrincipalRate.count ⟨now, 0, 0⟩ kind = 0 := by
  cases kind <;> rfl

theorem recorded_empty (now : ℕ) (tenantId : String) (kind : RateKind) :
    recorded (new now) tenantId kind = 0 := by
  simp [recorded, new, count_zero]

theorem books_new {now clock : ℕ} (hle : now ≤ clock) : Books config ⟨new now, [], clock⟩ := by
  refine ⟨⟨hle, fun kind => ?_, fun kind => ?_, fun tenantId principal hlookup => ?_,
    Nat.zero_le _, fun _ _ => Nat.zero_le _⟩, fun _ tenantId kind => ?_⟩
  · cases kind <;> rfl
  · cases kind <;> exact Nat.zero_le _
  · simp [new] at hlookup
  · exact (recorded_empty now tenantId kind).symm

theorem renew_of_renews (h : Renews call state) : renew call.clock state = new call.clock.now :=
  if_pos h

theorem renew_of_not_renews (h : ¬ Renews call state) : renew call.clock state = state :=
  if_neg h

theorem Books.renewed (h : Books config s) (hnow : s.clock ≤ call.clock.now)
    (hwindow : call.clock.now ≤ call.clock.window) :
    Account config ⟨renew call.clock s.state, if Renews call s.state then [] else s.accepted,
        call.clock.now⟩ ∧
      Tracks ⟨renew call.clock s.state, if Renews call s.state then [] else s.accepted,
        call.clock.now⟩ := by
  by_cases hrenews : Renews call s.state
  · rw [renew_of_renews hrenews, if_pos hrenews]
    have hbooks : Books config ⟨new call.clock.now, [], call.clock.now⟩ := books_new (Nat.le_refl _)
    refine ⟨hbooks.account, hbooks.tracks ?_⟩
    rw [new, Nat.sub_self]
    decide
  · have hopen : call.clock.window - s.state.windowStarted < second := Nat.lt_of_not_le hrenews
    rw [renew_of_not_renews hrenews, if_neg hrenews]
    have hstarted := h.account.started
    refine ⟨⟨by dsimp only; omega, h.account.total, h.account.total_le, h.account.entries,
      h.account.table, h.account.principal⟩, h.tracks (by omega)⟩

theorem entry_cases (h : Account config s) (hclock : s.clock ≤ call.clock.now) :
    s.state.windowStarted ≤ (entry call.clock call.tenantId s.state).windowStarted ∧
      ((∀ kind, (entry call.clock call.tenantId s.state).count kind =
          recorded s.state call.tenantId kind) ∨
        call.clock.principalWindow - s.state.windowStarted ≥ second ∧
          (∀ kind, (entry call.clock call.tenantId s.state).count kind = 0) ∧
          ∃ principal, s.state.principals.lookup call.tenantId = some principal ∧
            call.clock.principalWindow - principal.windowStarted ≥ second) := by
  have hstarted := h.started
  unfold entry recorded
  cases hlookup : s.state.principals.lookup call.tenantId with
  | none =>
    have hsame : renewPrincipal call.clock ⟨call.clock.now, 0, 0⟩ = ⟨call.clock.now, 0, 0⟩ := by
      unfold renewPrincipal
      split_ifs <;> rfl
    rw [Option.getD_none, Option.getD_none, hsame]
    refine ⟨by dsimp only; omega, Or.inl fun kind => ?_⟩
    rw [count_zero, count_zero]
  | some principal =>
    have hentry := (h.entries call.tenantId principal hlookup).1
    rw [Option.getD_some, Option.getD_some]
    unfold renewPrincipal
    split_ifs with hover
    · exact ⟨by dsimp only; omega,
        Or.inr ⟨by omega, fun kind => count_zero _ kind, principal, rfl, hover⟩⟩
    · exact ⟨hentry, Or.inl fun kind => rfl⟩

theorem recorded_insert (state : RateState) (tenantId : String) (principal : PrincipalRate)
    (tenantId' : String) (kind : RateKind) :
    recorded { state with principals := state.principals.insert tenantId principal } tenantId'
        kind =
      if tenantId' = tenantId then principal.count kind else recorded state tenantId' kind := by
  unfold recorded
  split_ifs with heq
  · rw [heq, AList.lookup_insert]
    rfl
  · rw [AList.lookup_insert_ne heq]

theorem Account.write (h : Account config s) {principal : PrincipalRate} {tenantId : String}
    (hroom : tenantId ∈ s.state.principals ∨
      s.state.principals.size < config.maxRateLimitPrincipals)
    (hstarted : s.state.windowStarted ≤ principal.windowStarted)
    (hcount : ∀ kind, principal.count kind ≤ config.principalLimit kind) {clock : ℕ}
    (hclock : s.clock ≤ clock) :
    Account config ⟨{ s.state with principals := s.state.principals.insert tenantId principal },
      s.accepted, clock⟩ where
  started := Nat.le_trans h.started hclock
  total := h.total
  total_le := h.total_le
  entries tenantId' principal' hlookup := by
    by_cases heq : tenantId' = tenantId
    · rw [heq, AList.lookup_insert] at hlookup
      cases hlookup
      exact ⟨hstarted, hcount⟩
    · rw [AList.lookup_insert_ne heq] at hlookup
      exact h.entries tenantId' principal' hlookup
  table := by
    by_cases hmem : tenantId ∈ s.state.principals
    · exact Nat.le_trans (Nat.le_of_eq (AList.size_insert_of_mem hmem principal)) h.table
    · rcases hroom with hmem' | hlt
      · exact absurd hmem' hmem
      · exact Nat.le_trans (Nat.le_of_eq (AList.size_insert hmem principal)) hlt
  principal := h.principal

theorem count_append_singleton (accepted : List (String × RateKind)) (tenantId tenantId' : String)
    (kind kind' : RateKind) :
    (accepted ++ [(tenantId, kind)]).count (tenantId', kind') =
      accepted.count (tenantId', kind') +
        if tenantId = tenantId' ∧ kind = kind' then 1 else 0 := by
  rw [List.count_append, List.count_singleton]
  simp only [beq_iff_eq, Prod.mk.injEq]

theorem Account.add (h : Account config s) {tenantId : String} {kind : RateKind}
    (hglobal : s.state.count kind < config.globalLimit kind)
    (hprincipal : s.accepted.count (tenantId, kind) < config.principalLimit kind) :
    Account config ⟨s.state.add kind, s.accepted ++ [(tenantId, kind)], s.clock⟩ where
  started := by
    rw [(add_fields kind s.state).1]
    exact h.started
  total kind' := by
    rw [count_add, List.countP_append, h.total]
    simp [List.countP_cons, eq_comm]
  total_le kind' := by
    rw [count_add]
    have := h.total_le kind'
    split_ifs with heq
    · subst heq
      omega
    · omega
  entries tenantId' principal hlookup := by
    rw [(add_fields kind s.state).2] at hlookup
    rw [(add_fields kind s.state).1]
    exact h.entries tenantId' principal hlookup
  table := by
    rw [(add_fields kind s.state).2]
    exact h.table
  principal tenantId' kind' := by
    rw [count_append_singleton]
    have := h.principal tenantId' kind'
    split_ifs with heq
    · obtain ⟨rfl, rfl⟩ := heq
      omega
    · omega

theorem tracks_write (h : Tracks s) {principal : PrincipalRate} {tenantId : String} {clock : ℕ}
    (hcount : ∀ kind, principal.count kind = recorded s.state tenantId kind) :
    Tracks ⟨{ s.state with principals := s.state.principals.insert tenantId principal },
      s.accepted, clock⟩ := by
  intro tenantId' kind
  rw [recorded_insert]
  split_ifs with heq
  · rw [h, heq, hcount]
  · exact h tenantId' kind

theorem recorded_add (kind : RateKind) (state : RateState) (tenantId : String) (kind' : RateKind) :
    recorded (state.add kind) tenantId kind' = recorded state tenantId kind' := by
  rw [recorded, recorded, (add_fields kind state).2]

/-- From a window that is open, every call keeps the books that does not let its tenant begin again
after its limit. -/
theorem Judged.books {ok : Bool} (hjudged : Judged config call s.state ok state')
    (haccount : Account config s) (htracks : Tracks s) (hclock : s.clock ≤ call.clock.now)
    (horder : call.clock.now ≤ call.clock.principalWindow)
    (hgood : ok = true → ∀ principal,
      s.state.principals.lookup call.tenantId = some principal →
      call.clock.principalWindow - principal.windowStarted ≥ second →
        principal.count call.kind < config.principalLimit call.kind) :
    Books config ⟨state',
      if ok then s.accepted ++ [(call.tenantId, call.kind)] else s.accepted,
      call.clock.principalWindow⟩ := by
  have hle : s.clock ≤ call.clock.principalWindow := Nat.le_trans hclock horder
  obtain ⟨hstarted, hentry⟩ := entry_cases haccount hclock
  have hcount : ∀ kind, (entry call.clock call.tenantId s.state).count kind ≤
      config.principalLimit kind := by
    intro kind
    rcases hentry with hsame | ⟨_, hzero, _⟩
    · rw [hsame, ← htracks]
      exact haccount.principal call.tenantId kind
    · rw [hzero]
      exact Nat.zero_le _
  cases hjudged with
  | refused =>
    exact ⟨⟨Nat.le_trans haccount.started hle, haccount.total, haccount.total_le,
      haccount.entries, haccount.table, haccount.principal⟩, fun _ => htracks⟩
  | exhausted hroom =>
    refine ⟨haccount.write hroom hstarted hcount hle, fun hopen => ?_⟩
    rcases hentry with hsame | ⟨hover, _⟩
    · exact tracks_write htracks hsame
    · exact absurd hover (Nat.not_le.mpr hopen)
  | accepted hglobal hroom hprincipal =>
    have hcount' : ∀ kind, (accept call.kind (entry call.clock call.tenantId s.state)).count kind ≤
        config.principalLimit kind := by
      intro kind
      have := hcount kind
      rw [count_accept]
      split_ifs with heq
      · subst heq
        exact hprincipal
      · omega
    have hlimit : s.accepted.count (call.tenantId, call.kind) <
        config.principalLimit call.kind := by
      rw [htracks]
      rcases hentry with hsame | ⟨_, _, principal, hlookup, hover⟩
      · rwa [← hsame]
      · rw [recorded, hlookup]
        exact hgood rfl principal hlookup hover
    rw [← windowStarted_accept call.kind] at hstarted
    have hwrite := haccount.write hroom hstarted hcount' hle
    refine ⟨hwrite.add hglobal hlimit, fun hopen tenantId kind => ?_⟩
    rw [(add_fields _ _).1] at hopen
    rcases hentry with hsame | ⟨hover, _⟩
    · simp only [if_true]
      rw [count_append_singleton, recorded_add, recorded_insert, count_accept, hsame, htracks]
      by_cases htenant : tenantId = call.tenantId
      · subst htenant
        simp [eq_comm]
      · simp [htenant, Ne.symm htenant]
    · exact absurd hover (Nat.not_le.mpr hopen)

theorem step_cases (h : step config s call = some s') :
    s.clock ≤ call.clock.now ∧ call.clock.now ≤ call.clock.window ∧
      call.clock.window ≤ call.clock.principalWindow ∧
      ∃ ok state', Judged config call (renew call.clock s.state) ok state' ∧
        s' = ⟨state',
          if ok then
            (if Renews call s.state then [] else s.accepted) ++ [(call.tenantId, call.kind)]
          else if Renews call s.state then [] else s.accepted,
          call.clock.principalWindow⟩ := by
  have hjudged := judged_allow config call s.state
  by_cases horder : s.clock ≤ call.clock.now ∧ call.clock.now ≤ call.clock.window ∧
      call.clock.window ≤ call.clock.principalWindow
  · rw [step, if_pos horder] at h
    generalize allow config call.clock call.tenantId call.kind s.state = result at h hjudged
    cases h
    exact ⟨horder.1, horder.2.1, horder.2.2, result.1, result.2, hjudged, rfl⟩
  · rw [step, if_neg horder] at h
    cases h

theorem Books.step (h : Books config s) (hgood : ¬ Straddles config s call)
    (hstep : step config s call = some s') : Books config s' := by
  obtain ⟨hnow, hwindow, hprincipal, ok, state', hjudged, rfl⟩ := step_cases hstep
  obtain ⟨haccount, htracks⟩ := h.renewed hnow hwindow
  refine hjudged.books haccount htracks (Nat.le_refl _) (Nat.le_trans hwindow hprincipal) ?_
  rintro rfl principal hlookup hover
  by_cases hrenews : Renews call s.state
  · rw [renew_of_renews hrenews] at hlookup
    simp [new] at hlookup
  · rw [renew_of_not_renews hrenews] at hlookup hjudged
    by_contra hlimit
    cases hjudged with
    | accepted hglobal _ _ =>
      exact hgood ⟨hrenews, hglobal, principal, hlookup, hover, Nat.le_of_not_lt hlimit⟩

/-- A call that straddles two windows is accepted beyond the limit of its tenant. -/
theorem Books.not_straddles (h : Books config s)
    (hpositive : ∀ kind, 0 < config.principalLimit kind)
    (hstep : AbuseLimiter.step config s call = some s') (hwithin : Within config s') :
    ¬ Straddles config s call := by
  rintro ⟨hrenews, hglobal, principal, hlookup, hover, hlimit⟩
  obtain ⟨hnow, hwindow, _, ok, state', hjudged, rfl⟩ := step_cases hstep
  have htracks := (h.renewed hnow hwindow).2
  rw [renew_of_not_renews hrenews] at htracks hjudged
  rw [if_neg hrenews] at htracks
  have hentry : (entry call.clock call.tenantId s.state).count call.kind = 0 := by
    rw [entry, hlookup, Option.getD_some, renewPrincipal, if_pos hover, count_zero]
  cases hjudged with
  | refused hreason =>
    rcases hreason with hreason | hreason
    · omega
    · exact hreason (AList.lookup_isSome.mp (by rw [hlookup]; rfl))
  | exhausted _ hreason =>
    have := hpositive call.kind
    omega
  | accepted =>
    have hcount := hwithin.principal call.tenantId call.kind
    simp only [if_neg hrenews, if_true] at hcount
    rw [count_append_singleton, htracks, recorded, hlookup, Option.getD_some,
      if_pos ⟨rfl, rfl⟩] at hcount
    omega

/-- Along every run of calls, each window of the process is within all limits if and only if no call
straddles two windows. -/
theorem within_limits_iff (config : ApiConfig)
    (hpositive : ∀ kind, 0 < config.principalLimit kind)
    (hrange : ∀ kind, config.globalLimit kind < 2 ^ 32 ∧ config.principalLimit kind < 2 ^ 32)
    (now : ℕ) {calls : List LimitedCall} {s : ObservedLimiter}
    (hrun : Steps.run (step config) (start now) calls = some s) :
    (∀ k s₁, Steps.run (step config) (start now) (calls.take k) = some s₁ → Within config s₁) ↔
      Steps.Along (step config) (fun s call => ¬ Straddles config s call) (start now) calls := by
  refine (Steps.along_iff_holds (fun s call s' hs hgood hstep => Books.step hs hgood hstep)
    (fun s hs => hs.account.within hrange)
    (fun s call s' hs hstep hwithin => hs.not_straddles hpositive hstep hwithin)
    (books_new (Nat.le_refl now)) hrun).symm

def oneCommand : ApiConfig := { principalCommandsPerSecond := 1 }

def lastInstant : List LimitedCall :=
  [⟨⟨0, 0, 0⟩, "acme", .command⟩,
    ⟨⟨999999998, 999999999, 1000000000⟩, "acme", .command⟩]

/-- The second command comes in the same window of the process, and is accepted. -/
theorem second_command_accepted :
    (∀ kind, 0 < oneCommand.globalLimit kind ∧ 0 < oneCommand.principalLimit kind) ∧
      0 < oneCommand.maxRateLimitPrincipals ∧
      (Steps.run (step oneCommand) (start 0) lastInstant).map
          (fun s => (s.state.windowStarted, s.accepted)) =
        some (0, [("acme", .command), ("acme", .command)]) := by
  refine ⟨fun kind => ?_, by decide, by decide⟩
  cases kind <;> decide

/-- A command, one too many in the same window, and one in the next. -/
def twoWindows : List LimitedCall :=
  [⟨⟨0, 0, 0⟩, "acme", .command⟩, ⟨⟨500000000, 500000001, 500000002⟩, "acme", .command⟩,
    ⟨⟨1000000000, 1000000001, 1000000002⟩, "acme", .command⟩]

theorem within_limits_iff_oneCommand :
    (∃ s, Steps.run (step oneCommand) (start 0) twoWindows = some s ∧
      s.state.windowStarted = 1000000000 ∧ s.accepted = [("acme", .command)]) ∧
    ∀ k s, Steps.run (step oneCommand) (start 0) (twoWindows.take k) = some s →
      Within oneCommand s := by
  have hpositive : ∀ kind, 0 < oneCommand.principalLimit kind := by
    intro kind
    cases kind <;> decide
  have hrange : ∀ kind, oneCommand.globalLimit kind < 2 ^ 32 ∧
      oneCommand.principalLimit kind < 2 ^ 32 := by
    intro kind
    cases kind <;> decide
  have hrun : (Steps.run (step oneCommand) (start 0) twoWindows).map (fun s =>
      (s.state.windowStarted, s.accepted)) = some (1000000000, [("acme", .command)]) := by decide
  obtain ⟨s, hs, hfacts⟩ := Option.map_eq_some_iff.mp hrun
  obtain ⟨hstarted, haccepted⟩ := Prod.mk.inj hfacts
  refine ⟨⟨s, hs, hstarted, haccepted⟩,
    (within_limits_iff oneCommand hpositive hrange 0 hs).mpr ⟨?_, ?_⟩⟩
  · rintro ⟨_, _, principal, hlookup, _⟩
    simp [start, new] at hlookup
  · intro s₁ hs₁
    obtain rfl : ⟨⟨0, 1, 0, AList.insert "acme" ⟨0, 1, 0⟩ ∅⟩, [("acme", .command)], 0⟩ = s₁ :=
      Option.some.inj hs₁
    refine ⟨?_, ?_⟩
    · rintro ⟨_, _, principal, hlookup, hover, _⟩
      rw [AList.lookup_insert] at hlookup
      obtain rfl := Option.some.inj hlookup
      exact absurd hover (by decide)
    · intro s₂ hs₂
      refine ⟨fun hstraddles => hstraddles.1 ?_, fun _ _ => trivial⟩
      have hwindow : (step oneCommand
          ⟨⟨0, 1, 0, AList.insert "acme" ⟨0, 1, 0⟩ ∅⟩, [("acme", .command)], 0⟩
          ⟨⟨500000000, 500000001, 500000002⟩, "acme", .command⟩).map (fun s =>
            s.state.windowStarted) = some 0 := by decide
      rw [hs₂] at hwindow
      have hstarted : s₂.state.windowStarted = 0 := Option.some.inj hwindow
      unfold Renews
      rw [hstarted]
      decide

end AbuseLimiter
end KafkaEdgeRouter.Api
