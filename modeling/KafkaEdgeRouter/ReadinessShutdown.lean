import KafkaEdgeRouter.GrpcHealth

/-!
# Readiness during shutdown

With Kafka readiness enabled, a monitor observes the consumer's health at every tick of a timer and
stores in the readiness gate what its hysteresis makes of the observations. At shutdown the daemon
withdraws readiness, broadcasts the shutdown and drains its tasks. The two write the same flag
without coordination: a tick that comes after the withdrawal, or that has not stored yet, may
announce readiness again. This module says exactly along which runs that does not happen.
-/

namespace KafkaEdgeRouter

structure ReadinessHysteresis where
  ready : Bool
  successes : ℕ
  failures : ℕ
  successThreshold : ℕ
  failureThreshold : ℕ

namespace ReadinessHysteresis

def new (successThreshold failureThreshold : ℕ) : ReadinessHysteresis :=
  ⟨false, 0, 0, successThreshold, failureThreshold⟩

def saturatingSucc (n : ℕ) : ℕ := min (n + 1) 4294967295

/-- The code returns the field `ready` of the new state. -/
def observe (healthy : Bool) (h : ReadinessHysteresis) : ReadinessHysteresis :=
  if healthy then
    let successes := saturatingSucc h.successes
    { h with
      failures := 0
      successes
      ready := if successes ≥ h.successThreshold then true else h.ready }
  else
    let failures := saturatingSucc h.failures
    { h with
      successes := 0
      failures
      ready := if failures ≥ h.failureThreshold then false else h.ready }

def Withholds (h : ReadinessHysteresis) (healthy : Bool) : Prop :=
  if healthy then h.ready = false ∧ saturatingSucc h.successes < h.successThreshold
  else h.ready = false ∨ h.failureThreshold ≤ saturatingSucc h.failures

theorem ready_observe {h : ReadinessHysteresis} {healthy : Bool} :
    (h.observe healthy).ready = false ↔ h.Withholds healthy := by
  cases healthy with
  | false =>
    simp only [observe, Withholds, Bool.false_eq_true, if_false]
    split
    · rename_i hle
      simp [hle]
    · rename_i hlt
      simp [hlt]
  | true =>
    simp only [observe, Withholds, if_true]
    split
    · rename_i hle
      simp [Nat.not_lt.mpr hle]
    · rename_i hlt
      simp [Nat.not_le.mp hlt]

end ReadinessHysteresis

namespace ReadinessShutdown

/-- What the monitor does next: wait for a tick or for the shutdown, or store and send what it has
observed. -/
inductive Monitor
  | selecting
  | storing (value : Bool)
  | sending (value : Bool)
  | stopped
  deriving DecidableEq

inductive Drain
  | serving
  | withdrawing
  | notifying
  | broadcasting
  | draining
  | aborting
  | stopped
  deriving DecidableEq

structure Daemon where
  health : HealthState := {}
  hysteresis : ReadinessHysteresis
  monitor : Monitor := .selecting
  shutdown : Watch Bool := .new false
  drain : Drain := .serving

/-- The monitor's loop is moved by ticks with what they observe, by the notification of the shutdown
and by an abort after the deadline; a signal or the end of a task starts the shutdown. -/
inductive Move
  | tick (healthy : Bool)
  | monitor
  | notified
  | abort
  | shutdown
  | drain
  | deadline

namespace Daemon

def new (successThreshold failureThreshold : ℕ) : Daemon :=
  { hysteresis := .new successThreshold failureThreshold }

def monitorStep (d : Daemon) : Option Daemon :=
  match d.monitor with
  | .storing value =>
    some { d with health := d.health.storeReady value, monitor := .sending value }
  | .sending value => some { d with health := d.health.sendReady value, monitor := .selecting }
  | .selecting | .stopped => none

def drainStep (d : Daemon) : Option Daemon :=
  match d.drain with
  | .serving => none
  | .withdrawing => some { d with health := d.health.storeReady false, drain := .notifying }
  | .notifying => some { d with health := d.health.sendReady false, drain := .broadcasting }
  | .broadcasting => some { d with shutdown := d.shutdown.send true, drain := .draining }
  | .draining =>
    if d.monitor = .stopped then
      some { d with health := d.health.setLive false, drain := .stopped }
    else none
  | .aborting => some { d with health := d.health.setLive false, drain := .stopped }
  | .stopped => none

/-- Either branch of the monitor's `select!` may be taken when both are possible. -/
def step (d : Daemon) : Move → Option Daemon
  | .tick healthy =>
    if d.monitor = .selecting then
      let hysteresis := d.hysteresis.observe healthy
      some { d with hysteresis, monitor := .storing hysteresis.ready }
    else none
  | .monitor => d.monitorStep
  | .notified =>
    if d.monitor = .selecting ∧ d.shutdown.canChange then
      let (isErr, shutdown) := d.shutdown.changed
      some { d with
        shutdown
        monitor := if isErr || shutdown.value then .stopped else .selecting }
    else none
  | .abort =>
    if d.monitor = .selecting ∧ (d.drain = .aborting ∨ d.drain = .stopped) then
      some { d with monitor := .stopped }
    else none
  | .shutdown => if d.drain = .serving then some { d with drain := .withdrawing } else none
  | .drain => d.drainStep
  | .deadline => if d.drain = .draining then some { d with drain := .aborting } else none

def Withdrawn (d : Daemon) : Prop := d.drain ≠ .serving ∧ d.drain ≠ .withdrawing

/-- The condition on the moves: readiness is not withdrawn while the monitor is about to store that
it is given, and no tick after that leads to readiness. -/
def Withheld (d : Daemon) : Move → Prop
  | .tick healthy => d.Withdrawn → d.hysteresis.Withholds healthy
  | .drain => d.drain = .withdrawing → d.monitor ≠ .storing true
  | _ => True

def Inv (d : Daemon) : Prop :=
  d.Withdrawn → d.health.ready = false ∧ d.monitor ≠ .storing true

variable {d d' : Daemon} {m : Move}

theorem Inv.frame (hinv : d.Inv) (hready : d'.health.ready = d.health.ready)
    (hmonitor : d'.monitor = .storing true → d.monitor = .storing true)
    (hdrain : d'.Withdrawn → d.Withdrawn) : d'.Inv := by
  intro hwithdrawn
  obtain ⟨hfalse, hne⟩ := hinv (hdrain hwithdrawn)
  exact ⟨hready.trans hfalse, fun htrue => hne (hmonitor htrue)⟩

theorem inv_monitorStep (hinv : d.Inv) (h : d.monitorStep = some d') : d'.Inv := by
  unfold monitorStep at h
  split at h
  · rename_i value hmonitor
    cases h
    intro hwithdrawn
    have hvalue : value ≠ true := by
      intro htrue
      exact (hinv hwithdrawn).2 (by rw [hmonitor, htrue])
    exact ⟨Bool.of_not_eq_true hvalue, by simp⟩
  · cases h
    exact hinv.frame rfl (by simp) id
  · cases h
  · cases h

theorem inv_drainStep (hinv : d.Inv) (hwithheld : d.Withheld .drain) (h : d.drainStep = some d') :
    d'.Inv := by
  have hafter : d.drain ≠ .serving → d.drain ≠ .withdrawing → d'.Withdrawn → d.Withdrawn :=
    fun hserving hwithdrawing _ => ⟨hserving, hwithdrawing⟩
  unfold drainStep at h
  split at h
  · cases h
  · rename_i hdrain
    cases h
    exact fun _ => ⟨rfl, hwithheld hdrain⟩
  · cases h
    exact hinv.frame rfl id (hafter (by simp [*]) (by simp [*]))
  · cases h
    exact hinv.frame rfl id (hafter (by simp [*]) (by simp [*]))
  · split at h
    · cases h
      exact hinv.frame rfl id (hafter (by simp [*]) (by simp [*]))
    · cases h
  · cases h
    exact hinv.frame rfl id (hafter (by simp [*]) (by simp [*]))
  · cases h

theorem inv_step (hinv : d.Inv) (hwithheld : d.Withheld m) (h : d.step m = some d') : d'.Inv := by
  cases m with
  | tick healthy =>
    simp only [step] at h
    split at h
    · cases h
      intro hwithdrawn
      refine ⟨(hinv hwithdrawn).1, ?_⟩
      have hready := ReadinessHysteresis.ready_observe.mpr (hwithheld hwithdrawn)
      simp [hready]
    · cases h
  | monitor => exact inv_monitorStep hinv h
  | notified =>
    simp only [step] at h
    split at h
    · cases h
      refine Inv.frame hinv rfl (fun hstoring => ?_) id
      dsimp only at hstoring
      split at hstoring <;> cases hstoring
    · cases h
  | abort =>
    simp only [step] at h
    split at h
    · cases h
      exact hinv.frame rfl (by simp) id
    · cases h
  | shutdown =>
    simp only [step] at h
    split at h
    · cases h
      exact hinv.frame rfl id fun hwithdrawn => absurd rfl hwithdrawn.2
    · cases h
  | drain => exact inv_drainStep hinv hwithheld h
  | deadline =>
    simp only [step] at h
    split at h
    · rename_i hdrain
      cases h
      exact hinv.frame rfl id fun _ => ⟨by simp [hdrain], by simp [hdrain]⟩
    · cases h

def StaysFalse (d : Daemon) : Prop := d.Withdrawn → d.health.isReady = false

theorem not_storing_of_persists (hfalse : Steps.Persists step .monitor StaysFalse d)
    (hwithdrawn : d.Withdrawn) : d.monitor ≠ .storing true := by
  intro hmonitor
  have hrun : Steps.run step d (List.replicate 1 .monitor) =
      some { d with health := d.health.storeReady true, monitor := .sending true } := by
    simp [Steps.run, step, monitorStep, hmonitor]
  have hready := hfalse 1 _ hrun hwithdrawn
  cases hready

theorem withheld_of_persists (h : d.step m = some d')
    (hfalse : Steps.Persists step .monitor StaysFalse d') : d.Withheld m := by
  cases m with
  | tick healthy =>
    intro hwithdrawn
    simp only [step] at h
    split at h
    · cases h
      have hmonitor := not_storing_of_persists hfalse hwithdrawn
      apply ReadinessHysteresis.ready_observe.mp
      exact Bool.of_not_eq_true fun htrue => hmonitor (congrArg Monitor.storing htrue)
    · cases h
  | drain =>
    intro hdrain
    simp only [step, drainStep, hdrain] at h
    cases h
    have hmonitor := not_storing_of_persists hfalse ⟨by simp, by simp⟩
    exact hmonitor
  | _ => trivial

/-- Once `drain_components` has withdrawn readiness, the daemon stays not ready, at every point of a
run and however the monitor goes on from there, if and only if the moves of the run are withheld:
readiness is not withdrawn while a tick that announced it has not stored yet, and every tick after
the withdrawal finds the hysteresis in a state in which the observation does not lead to
readiness. -/
theorem readiness_withdrawn_iff {successThreshold failureThreshold : ℕ} {moves : List Move}
    (hrun : Steps.run step (new successThreshold failureThreshold) moves = some d) :
    Steps.Along step Withheld (new successThreshold failureThreshold) moves ↔
      ∀ k n d', Steps.run step (new successThreshold failureThreshold)
        (moves.take k ++ List.replicate n .monitor) = some d' → d'.Withdrawn →
          d'.health.isReady = false := by
  have hinit : Inv (new successThreshold failureThreshold) := fun h => absurd rfl h.1
  exact Steps.along_iff_persists (fun _ _ _ hinv hwithheld h => inv_step hinv hwithheld h)
    (fun _ => trivial) (fun _ hinv hwithdrawn => (hinv hwithdrawn).1)
    (fun _ _ _ _ h hfalse => withheld_of_persists h hfalse) hinit hrun

def unhealthyShutdown : List Move :=
  [.tick true, .monitor, .monitor, .shutdown, .drain, .tick false, .monitor]

theorem readiness_withdrawn_unhealthyShutdown :
    ∃ d, Steps.run step (new 1 1) unhealthyShutdown = some d ∧ d.Withdrawn ∧
      d.health.isReady = false := by
  have hbefore : ∀ {d : Daemon} {healthy : Bool}, d.drain = .serving →
      d.Withheld (.tick healthy) := fun hdrain hwithdrawn => absurd hdrain hwithdrawn.1
  have hwithheld : Steps.Along step Withheld (new 1 1) unhealthyShutdown := by
    apply Steps.along_cons (hbefore rfl) rfl
    apply Steps.along_cons trivial rfl
    apply Steps.along_cons trivial rfl
    apply Steps.along_cons trivial rfl
    apply Steps.along_cons (fun _ => by simp) rfl
    apply Steps.along_cons (fun _ => Or.inr (by decide)) rfl
    exact Steps.along_cons trivial rfl trivial
  exact ⟨_, rfl, ⟨by simp, by simp⟩,
    (readiness_withdrawn_iff rfl).mp hwithheld 7 0 _ rfl ⟨by simp, by simp⟩⟩

def lateTick : List Move :=
  [.tick true, .monitor, .monitor, .shutdown, .drain, .drain, .drain, .tick true, .monitor]

/-- The daemon withdraws readiness and broadcasts the shutdown, and then the monitor announces
readiness again. -/
theorem readiness_announced_lateTick :
    ∃ d, Steps.run step (new 1 1) lateTick = some d ∧ d.drain = .draining ∧
      d.health.isReady = true :=
  ⟨_, rfl, rfl, rfl⟩

end Daemon
end ReadinessShutdown
end KafkaEdgeRouter
