import KafkaEdgeRouter.BoundedChannel
import KafkaEdgeRouter.StepRuns

/-!
# Readiness and the gRPC health service

The readiness gate is an atomic flag with a `watch` channel beside it. Setting it stores the flag
and then sends the value, in two steps. The gRPC server reads the flag when it starts, reports it to
its health service, subscribes to the channel and from then on follows the channel; a new subscriber
counts the value that is there as seen. Any number of tasks may set the gate meanwhile. Health
service and flag can end up different; this module says exactly along which runs they do not.
-/

namespace KafkaEdgeRouter

structure HealthState where
  live : Bool := false
  ready : Bool := false
  readyChanges : Watch Bool := .new false

namespace HealthState

def setLive (value : Bool) (health : HealthState) : HealthState := { health with live := value }

/-- The first half of `set_ready`. -/
def storeReady (value : Bool) (health : HealthState) : HealthState := { health with ready := value }

/-- The second half of `set_ready`. -/
def sendReady (value : Bool) (health : HealthState) : HealthState :=
  { health with readyChanges := health.readyChanges.send value }

def isReady (health : HealthState) : Bool := health.ready

def readiness (health : HealthState) : HealthState :=
  { health with readyChanges := { health.readyChanges with unseen := false } }

end HealthState

namespace GrpcHealth

/-- How far a call of `set_ready` has come. -/
inductive SetReady
  | storing (value : Bool)
  | sending (value : Bool)
  | returned
  deriving DecidableEq

/-- What the gRPC task does next: read the flag, report it, subscribe, and then again and again wait
for a change, look at the value and report it. -/
inductive Server
  | starting
  | reporting (ready : Bool)
  | subscribing
  | waiting
  | woken
  | updating (ready : Bool)
  deriving DecidableEq

structure Daemon where
  health : HealthState := {}
  calls : List SetReady := []
  server : Server := .starting
  /-- The serving status that was last set on the reporter. -/
  reporter : Option Bool := none

inductive Move
  | call (value : Bool)
  | act (call : ℕ)
  | serve

namespace Daemon

def serve (d : Daemon) : Option Daemon :=
  match d.server with
  | .starting => some { d with server := .reporting d.health.isReady }
  | .reporting ready => some { d with server := .subscribing, reporter := some ready }
  | .subscribing => some { d with server := .waiting, health := d.health.readiness }
  | .waiting =>
    if d.health.readyChanges.unseen then
      some { d with server := .woken, health := d.health.readiness }
    else none
  | .woken =>
    some { d with server := .updating d.health.readyChanges.value, health := d.health.readiness }
  | .updating ready => some { d with server := .waiting, reporter := some ready }

def act (d : Daemon) (call : ℕ) : Option Daemon :=
  match d.calls[call]? with
  | some (.storing value) =>
    some { d with
      health := d.health.storeReady value
      calls := d.calls.set call (.sending value) }
  | some (.sending value) =>
    some { d with
      health := d.health.sendReady value
      calls := d.calls.set call .returned }
  | _ => none

def step (d : Daemon) : Move → Option Daemon
  | .call value => some { d with calls := d.calls ++ [.storing value] }
  | .act call => d.act call
  | .serve => d.serve

def AllReturned (d : Daemon) : Prop := ∀ c ∈ d.calls, c = .returned

def Quiet (d : Daemon) : Prop :=
  d.AllReturned ∧ d.server = .waiting ∧ d.health.readyChanges.unseen = false

/-- A call that sends `value` leaves the server on the way to the value of the flag. -/
def InStep (d : Daemon) (value : Bool) : Prop :=
  match d.server with
  | .starting => True
  | .reporting ready => d.health.ready = ready
  | .subscribing => d.reporter = some d.health.ready
  | .waiting | .woken | .updating _ => value = d.health.ready

/-- The condition on the moves: when the last call in progress sends, it is in step. -/
def Ordered (d : Daemon) : Move → Prop
  | .act call => ∀ value, d.calls[call]? = some (.sending value) →
      (∀ other c, other ≠ call → d.calls[other]? = some c → c = .returned) → d.InStep value
  | _ => True

/-- With no call in progress, the server is on the way to the value of the flag. -/
def Settled (d : Daemon) : Prop :=
  match d.server with
  | .starting => True
  | .reporting ready => d.health.ready = ready
  | .subscribing => d.reporter = some d.health.ready
  | .waiting =>
    if d.health.readyChanges.unseen then d.health.readyChanges.value = d.health.ready
    else d.reporter = some d.health.ready
  | .woken => d.health.readyChanges.value = d.health.ready
  | .updating ready =>
    if d.health.readyChanges.unseen then d.health.readyChanges.value = d.health.ready
    else ready = d.health.ready

def Inv (d : Daemon) : Prop := d.AllReturned → d.Settled

variable {d d' : Daemon} {m : Move}

theorem settled_serve (hsettled : d.Settled) (h : d.serve = some d') : d'.Settled := by
  obtain ⟨health, calls, server, reporter⟩ := d
  cases server with
  | starting =>
    cases h
    rfl
  | reporting ready =>
    cases h
    exact congrArg some hsettled.symm
  | subscribing =>
    cases h
    exact hsettled
  | waiting =>
    simp only [serve] at h
    split at h
    · rename_i hunseen
      cases h
      simp only [Settled, hunseen, if_true] at hsettled
      exact hsettled
    · cases h
  | woken =>
    cases h
    exact hsettled
  | updating ready =>
    cases h
    simp only [Settled] at hsettled ⊢
    split at hsettled
    · rename_i hunseen
      rwa [if_pos hunseen]
    · rename_i hunseen
      rw [if_neg hunseen, hsettled]

theorem calls_serve (h : d.serve = some d') : d'.calls = d.calls := by
  obtain ⟨health, calls, server, reporter⟩ := d
  cases server with
  | waiting =>
    simp only [serve] at h
    split at h
    · cases h
      rfl
    · cases h
  | _ =>
    cases h
    rfl

theorem act_cases {call : ℕ} (h : d.act call = some d') :
    ∃ value, (d.calls[call]? = some (.storing value) ∧
        d' = { d with
          health := d.health.storeReady value
          calls := d.calls.set call (.sending value) }) ∨
      (d.calls[call]? = some (.sending value) ∧
        d' = { d with
          health := d.health.sendReady value
          calls := d.calls.set call .returned }) := by
  unfold act at h
  split at h
  · rename_i value hcall
    exact ⟨value, Or.inl ⟨hcall, (Option.some.inj h).symm⟩⟩
  · rename_i value hcall
    exact ⟨value, Or.inr ⟨hcall, (Option.some.inj h).symm⟩⟩
  · cases h

theorem settled_send {value : Bool} {calls : List SetReady} :
    ({ d with health := d.health.sendReady value, calls } : Daemon).Settled ↔ d.InStep value := by
  obtain ⟨health, _, server, reporter⟩ := d
  cases server <;> simp [Settled, InStep, HealthState.sendReady, Watch.send]

theorem inv_step (hinv : d.Inv) (hordered : d.Ordered m) (h : d.step m = some d') : d'.Inv := by
  cases m with
  | call value =>
    cases h
    intro hreturned
    cases hreturned (.storing value) (by simp)
  | serve =>
    intro hreturned
    have hcalls : d'.calls = d.calls := calls_serve h
    have hsettled : d.Settled := hinv (by rwa [AllReturned, ← hcalls])
    exact settled_serve hsettled h
  | act call =>
    obtain ⟨value, ⟨hcall, rfl⟩ | ⟨hcall, rfl⟩⟩ := act_cases h
    · intro hreturned
      have hlt := (List.getElem?_eq_some_iff.mp hcall).1
      cases hreturned (.sending value) (List.mem_set hlt _)
    · intro hreturned
      apply settled_send.mpr
      apply hordered value hcall
      intro other c hne hother
      apply hreturned c
      apply List.mem_of_getElem? (i := other)
      rw [List.getElem?_set_ne (Ne.symm hne), hother]

def Agrees (d : Daemon) : Prop := d.Quiet → d.reporter = some d.health.isReady

theorem Inv.agrees (hinv : d.Inv) : d.Agrees := by
  intro hquiet
  have hsettled := hinv hquiet.1
  simp only [Settled, hquiet.2.1, hquiet.2.2, Bool.false_eq_true, if_false] at hsettled
  exact hsettled

theorem settled_of_persists (hreturned : d.AllReturned)
    (hfollows : Steps.Persists step .serve Agrees d) : d.Settled := by
  obtain ⟨health, calls, server, reporter⟩ := d
  cases server with
  | starting => trivial
  | reporting ready =>
    have hreporter := hfollows 2 _ rfl ⟨hreturned, rfl, rfl⟩
    exact (Option.some.inj hreporter).symm
  | subscribing =>
    have hreporter := hfollows 1 _ rfl ⟨hreturned, rfl, rfl⟩
    exact hreporter
  | waiting =>
    simp only [Settled]
    split
    · rename_i hunseen
      have hrun : Steps.run step ⟨health, calls, .waiting, reporter⟩ (List.replicate 3 .serve) =
          some ⟨health.readiness.readiness, calls, .waiting, some health.readyChanges.value⟩ := by
        simp [Steps.run, step, serve, List.replicate, hunseen, HealthState.readiness]
      exact Option.some.inj (hfollows 3 _ hrun ⟨hreturned, rfl, rfl⟩)
    · rename_i hunseen
      exact hfollows 0 _ rfl ⟨hreturned, rfl, Bool.of_not_eq_true hunseen⟩
  | woken =>
    exact Option.some.inj (hfollows 2 _ rfl ⟨hreturned, rfl, rfl⟩)
  | updating ready =>
    simp only [Settled]
    split
    · rename_i hunseen
      have hrun : Steps.run step ⟨health, calls, .updating ready, reporter⟩
          (List.replicate 4 .serve) =
          some ⟨health.readiness.readiness, calls, .waiting, some health.readyChanges.value⟩ := by
        simp [Steps.run, step, serve, List.replicate, hunseen, HealthState.readiness]
      exact Option.some.inj (hfollows 4 _ hrun ⟨hreturned, rfl, rfl⟩)
    · rename_i hunseen
      exact Option.some.inj (hfollows 1 _ rfl ⟨hreturned, rfl, Bool.of_not_eq_true hunseen⟩)

theorem ordered_of_persists (h : d.step m = some d')
    (hfollows : Steps.Persists step .serve Agrees d') : d.Ordered m := by
  cases m with
  | call value => trivial
  | serve => trivial
  | act call =>
    intro value hcall hothers
    obtain ⟨value', ⟨hcall', rfl⟩ | ⟨hcall', rfl⟩⟩ := act_cases h
    · rw [hcall] at hcall'
      cases hcall'
    · obtain rfl : value = value' := by simpa [hcall] using hcall'
      apply settled_send.mp
      apply settled_of_persists _ hfollows
      intro c hc
      obtain ⟨other, hother⟩ := List.mem_iff_getElem?.mp hc
      rcases eq_or_ne other call with rfl | hne
      · rw [List.getElem?_set_self (List.getElem?_eq_some_iff.mp hcall).1] at hother
        exact (Option.some.inj hother).symm
      · rw [List.getElem?_set_ne (Ne.symm hne)] at hother
        exact hothers other c hne hother

/-- The health service of the gRPC server agrees with the readiness gate whenever no step is
pending, at every point of a run and however the server goes on from there, if and only if the moves
of the run are ordered: a call of `set_ready` that sends while no other call is in progress does so
before the server has read the flag; or while the flag has the value that the server has read and
will report; or, once the server has subscribed, with the value that the flag has. -/
theorem health_agrees_iff {moves : List Move} (hrun : Steps.run step {} moves = some d) :
    Steps.Along step Ordered {} moves ↔
      ∀ k n d', Steps.run step {} (moves.take k ++ List.replicate n .serve) = some d' → d'.Quiet →
        d'.reporter = some d'.health.isReady := by
  have hinit : Inv {} := fun _ => trivial
  exact Steps.along_iff_persists (fun _ _ _ hinv hordered h => inv_step hinv hordered h)
    (fun _ => trivial) (fun _ hinv => hinv.agrees)
    (fun _ _ _ _ h hfollows => ordered_of_persists h hfollows) hinit hrun

def readyFirst : List Move := [.call true, .act 0, .act 0, .serve, .serve, .serve]

theorem health_agrees_readyFirst :
    ∃ d, Steps.run step {} readyFirst = some d ∧ d.Quiet ∧ d.health.isReady = true ∧
      d.reporter = some true := by
  have hordered : Steps.Along step Ordered {} readyFirst := by
    apply Steps.along_cons trivial rfl
    apply Steps.along_cons (fun _ _ _ => trivial) rfl
    apply Steps.along_cons (fun _ _ _ => trivial) rfl
    apply Steps.along_cons trivial rfl
    apply Steps.along_cons trivial rfl
    exact Steps.along_cons trivial rfl trivial
  have hquiet : Quiet ⟨⟨false, true, ⟨true, false, false⟩⟩, [.returned], .waiting, some true⟩ :=
    ⟨by simp [AllReturned], rfl, rfl⟩
  exact ⟨_, rfl, hquiet, rfl, (health_agrees_iff rfl).mp hordered 6 0 _ rfl hquiet⟩

def readyDuringStart : List Move := [.serve, .call true, .act 0, .act 0, .serve, .serve]

/-- The update is lost: nothing is pending any more, the flag is set and the health service reports
the opposite. -/
theorem health_disagrees_readyDuringStart :
    ∃ d, Steps.run step {} readyDuringStart = some d ∧ d.Quiet ∧ d.health.isReady = true ∧
      d.reporter = some false :=
  ⟨_, rfl, ⟨by simp [AllReturned], rfl, rfl⟩, rfl, rfl⟩

end Daemon
end GrpcHealth
end KafkaEdgeRouter
