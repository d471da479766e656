import KafkaEdgeRouter.StepRuns
import KafkaEdgeRouter.WebhookDelivery
import KafkaEdgeRouter.WorkerEndings

/-!
# The webhook manager

`WebhookManager::run` runs the workers of all durable destinations as tasks and joins them as they
return. A worker that returns an error, or returns before the shutdown, makes the manager return an
error, and the tasks that are left are dropped wherever they are; the response to a request that is
under way is not read any more. Once the shutdown is signalled the manager always returns. What it
returns depends on whether the signal has reached a worker in the wait for a retry: `sleep_until`
reports that as an error.
-/

namespace KafkaEdgeRouter.Webhook

/-! ### The manager -/

structure WorkerError where
  id : String
  reason : String
  deriving DecidableEq

structure WorkerTask where
  worker : DurableWorker
  node : Node World Input Control (Except String Unit)
  joined : Bool

structure WebhookManager where
  shutdown : Bool
  tasks : List WorkerTask
  result : Option (Except WorkerError Unit)

namespace WorkerTask

def spawn (worker : DurableWorker) (w : World) : WorkerTask :=
  ⟨worker, ⟨DurableWorker.boot w, some (worker.attended.pass worker.attended.entry)⟩, false⟩

def move (task : WorkerTask) (m : NodeMove Outside Input) : Option WorkerTask :=
  (task.worker.attended.move task.node m).map (fun node => { task with node })

def signal (task : WorkerTask) : WorkerTask :=
  let w := task.node.durable
  { task with node := { task.node with
      durable := { w with shutdown := w.shutdown.send true }.log (.signalled true) } }

def drop (task : WorkerTask) : WorkerTask :=
  if task.node.returned.isSome then task else { task with node := ⟨task.node.durable, none⟩ }

def journal (task : WorkerTask) : Journal := task.worker.journal task.node.durable

/-- The task was dropped after the destination had taken a record whose offset is not committed. -/
def LostSuccess (task : WorkerTask) : Prop :=
  task.node.process = none ∧ ∃ cursor deliveryId request status,
    .attempted cursor deliveryId request ∈ task.node.durable.history ∧
      .answered deliveryId (.delivered status) ∈ task.node.durable.history ∧
      .committed cursor ∉ task.node.durable.history

end WorkerTask

/-- What others do around one worker, apart from the shutdown. -/
def Outside.isData : Outside → Bool
  | .signal _ | .dropSender => false
  | _ => true

inductive ManagerMove
  | signal
  | outside (task : ℕ) (event : Outside)
  | act (task : ℕ) (input : Input)
  | again (task : ℕ)
  | join (task : ℕ)
  | finish

namespace ManagerMove

def isOwn : ManagerMove → Bool
  | .signal | .outside _ _ => false
  | _ => true

def Offered : ManagerMove → Prop
  | .signal | .outside _ _ => False
  | .act _ input => DurableWorker.stopDemand.offered input
  | _ => True

end ManagerMove

namespace WebhookManager

def start (services : List (DurableWorker × World)) : WebhookManager :=
  ⟨false, services.map (fun s => WorkerTask.spawn s.1 s.2), none⟩

def moveTask (m : WebhookManager) (k : ℕ) (move : NodeMove Outside Input) :
    Option WebhookManager :=
  match m.tasks[k]? with
  | none => none
  | some task => (task.move move).map (fun task' => { m with tasks := m.tasks.set k task' })

/-- An early return drops the set of tasks. -/
def fail (m : WebhookManager) (e : WorkerError) : WebhookManager :=
  { m with tasks := m.tasks.map WorkerTask.drop, result := some (.error e) }

/-- `join_next` hands out the result of a task that has returned. -/
def join (m : WebhookManager) (k : ℕ) : Option WebhookManager :=
  match m.tasks[k]? with
  | none => none
  | some task =>
    if task.joined then none
    else
      match task.node.returned with
      | none => none
      | some (.ok ()) =>
        if m.shutdown then some { m with tasks := m.tasks.set k { task with joined := true } }
        else some (m.fail ⟨"unknown", "worker exited before shutdown"⟩)
      | some (.error reason) => some (m.fail ⟨task.worker.endpoint.id, reason⟩)

/-- Without any task, `run` waits for the shutdown. -/
def finish (m : WebhookManager) : Option WebhookManager :=
  if m.tasks.all WorkerTask.joined && (m.shutdown || !m.tasks.isEmpty) then
    some { m with result := some (.ok ()) }
  else none

def step (m : WebhookManager) : ManagerMove → Option WebhookManager
  | .signal => some { m with shutdown := true, tasks := m.tasks.map WorkerTask.signal }
  | .outside k e => if e.isData then m.moveTask k (.environment e) else none
  | .act k i => if m.result.isNone then m.moveTask k (.act i) else none
  | .again k => if m.result.isNone then m.moveTask k .again else none
  | .join k => if m.result.isNone then m.join k else none
  | .finish => if m.result.isNone then m.finish else none

inductive Stepped (m : WebhookManager) : ManagerMove → WebhookManager → Prop
  | signal : Stepped m .signal { m with shutdown := true, tasks := m.tasks.map WorkerTask.signal }
  | outside {k : ℕ} {e : Outside} {task task' : WorkerTask} : e.isData = true →
      m.tasks[k]? = some task → task.move (.environment e) = some task' →
      Stepped m (.outside k e) { m with tasks := m.tasks.set k task' }
  | act {k : ℕ} {i : Input} {task task' : WorkerTask} : m.result = none →
      m.tasks[k]? = some task → task.move (.act i) = some task' →
      Stepped m (.act k i) { m with tasks := m.tasks.set k task' }
  | again {k : ℕ} {task task' : WorkerTask} : m.result = none →
      m.tasks[k]? = some task → task.move .again = some task' →
      Stepped m (.again k) { m with tasks := m.tasks.set k task' }
  | joined {k : ℕ} {task : WorkerTask} : m.result = none → m.tasks[k]? = some task →
      task.joined = false → task.node.returned = some (.ok ()) → m.shutdown = true →
      Stepped m (.join k) { m with tasks := m.tasks.set k { task with joined := true } }
  | early {k : ℕ} {task : WorkerTask} {e : WorkerError} : m.result = none →
      m.tasks[k]? = some task → task.node.returned = some (.ok ()) → m.shutdown = false →
      Stepped m (.join k) (m.fail e)
  | failed {k : ℕ} {task : WorkerTask} {reason : String} {e : WorkerError} : m.result = none →
      m.tasks[k]? = some task → task.node.returned = some (.error reason) →
      Stepped m (.join k) (m.fail e)
  | finish : m.result = none → (∀ task ∈ m.tasks, task.joined = true) →
      (m.shutdown = true ∨ m.tasks ≠ []) → Stepped m .finish { m with result := some (.ok ()) }

variable {m m' : WebhookManager} {move : ManagerMove}

theorem moveTask_cases {k : ℕ} {nodeMove : NodeMove Outside Input}
    (h : m.moveTask k nodeMove = some m') :
    ∃ task task', m.tasks[k]? = some task ∧ task.move nodeMove = some task' ∧
      m' = { m with tasks := m.tasks.set k task' } := by
  unfold moveTask at h
  split at h
  · cases h
  · rename_i task hk
    obtain ⟨task', hmove, rfl⟩ := Option.map_eq_some_iff.mp h
    exact ⟨task, task', hk, hmove, rfl⟩

theorem stepped_join {k : ℕ} (hresult : m.result = none) (h : m.join k = some m') :
    Stepped m (.join k) m' := by
  unfold join at h
  split at h
  · cases h
  · rename_i task hk
    split_ifs at h with hjoined hshutdown
    · split at h
      · cases h
      · rename_i hreturned
        cases h
        exact .joined hresult hk (Bool.eq_false_of_not_eq_true hjoined) hreturned hshutdown
      · rename_i reason hreturned
        cases h
        exact .failed hresult hk hreturned
    · split at h
      · cases h
      · rename_i hreturned
        cases h
        exact .early hresult hk hreturned (Bool.eq_false_of_not_eq_true hshutdown)
      · rename_i reason hreturned
        cases h
        exact .failed hresult hk hreturned

theorem stepped_of_step (h : m.step move = some m') : Stepped m move m' := by
  cases move with
  | signal =>
    cases h
    exact .signal
  | outside k e =>
    simp only [step] at h
    split_ifs at h with hdata
    obtain ⟨task, task', hk, hmove, rfl⟩ := moveTask_cases h
    exact .outside hdata hk hmove
  | act k i =>
    simp only [step] at h
    split_ifs at h with hresult
    obtain ⟨task, task', hk, hmove, rfl⟩ := moveTask_cases h
    exact .act (Option.isNone_iff_eq_none.mp hresult) hk hmove
  | again k =>
    simp only [step] at h
    split_ifs at h with hresult
    obtain ⟨task, task', hk, hmove, rfl⟩ := moveTask_cases h
    exact .again (Option.isNone_iff_eq_none.mp hresult) hk hmove
  | join k =>
    simp only [step] at h
    split_ifs at h with hresult
    exact stepped_join (Option.isNone_iff_eq_none.mp hresult) h
  | finish =>
    simp only [step, finish] at h
    split_ifs at h with hresult hall
    cases h
    simp only [Bool.and_eq_true, List.all_eq_true, Bool.or_eq_true, Bool.not_eq_true',
      List.isEmpty_eq_false_iff] at hall
    exact .finish (Option.isNone_iff_eq_none.mp hresult) hall.1 hall.2

end WebhookManager

/-! ### Tasks -/

/-- The task can go on from where it is, and knows of the shutdown what the manager knows. -/
structure WorkerTask.Sane (shutdown : Bool) (running : Prop) (task : WorkerTask) : Prop where
  attempts : task.worker.endpoint.maxAttempts ≤ u32Max
  heeding : task.worker.attended.Heeding DurableWorker.Attended DurableWorker.stopDemand 8
    (fun c w => task.worker.Suits c (task.worker.journal w)) task.worker.Ended task.node
  value : task.node.durable.shutdown.value = shutdown
  alive : running → task.node.process.isSome = true
  joined : task.joined = true → shutdown = true ∧ task.node.returned = some (.ok ())

namespace WorkerTask

open DurableWorker

variable {task task' : WorkerTask} {shutdown : Bool} {running : Prop}

theorem move_cases {nodeMove : NodeMove Outside Input} (h : task.move nodeMove = some task') :
    ∃ node, task.worker.attended.move task.node nodeMove = some node ∧
      task' = { task with node } := by
  obtain ⟨node, hnode, rfl⟩ := Option.map_eq_some_iff.mp h
  exact ⟨node, hnode, rfl⟩

theorem sane_spawn {worker : DurableWorker} (hattempts : worker.endpoint.maxAttempts ≤ u32Max)
    (w : World) : (spawn worker w).Sane false running := by
  obtain ⟨hattended, hsuits⟩ := attended_boot (W := worker) w
  refine ⟨hattempts, ⟨hattended, fun p hp => ?_⟩, rfl, fun _ => rfl, fun h => by cases h⟩
  cases hp
  exact (obeys_attended hattempts).prompt_pass hattended hsuits

theorem Sane.mono {running' : Prop} (h : task.Sane shutdown running) (hr : running' → running) :
    task.Sane shutdown running' :=
  ⟨h.attempts, h.heeding, h.value, fun h' => h.alive (hr h'), h.joined⟩

theorem Sane.environment {e : Outside} (h : task.Sane shutdown running)
    (hmove : task.move (.environment e) = some task') {shutdown' : Bool}
    (hvalue : task'.node.durable.shutdown.value = shutdown')
    (hshutdown : shutdown = true → shutdown' = true) : task'.Sane shutdown' running := by
  obtain ⟨node, hnode, rfl⟩ := move_cases hmove
  have hheeding := System.heeding_move (obeys_attended h.attempts) h.heeding hnode
  obtain ⟨w, _, rfl⟩ := Option.map_eq_some_iff.mp hnode
  exact ⟨h.attempts, hheeding, hvalue, h.alive, fun hj =>
    ⟨hshutdown (h.joined hj).1, (h.joined hj).2⟩⟩

theorem Sane.signal (h : task.Sane shutdown running) : task.signal.Sane true running := by
  have hmove : task.move (.environment (.signal true)) = some task.signal := rfl
  exact h.environment hmove rfl (fun _ => rfl)

theorem Sane.outside {e : Outside} (h : task.Sane shutdown running) (hdata : e.isData = true)
    (hmove : task.move (.environment e) = some task') : task'.Sane shutdown running := by
  refine h.environment hmove ?_ id
  obtain ⟨node, hnode, rfl⟩ := move_cases hmove
  obtain ⟨w, hw, rfl⟩ := Option.map_eq_some_iff.mp hnode
  rcases (attended_cases hw).2 with hshutdown | ⟨rfl, _⟩
  · exact (congrArg Watch.value hshutdown).trans h.value
  · cases hdata

theorem Sane.act {i : Input} (h : task.Sane shutdown running)
    (hmove : task.move (.act i) = some task') : task'.Sane shutdown running := by
  obtain ⟨node, hnode, rfl⟩ := move_cases hmove
  have hheeding := System.heeding_move (obeys_attended h.attempts) h.heeding hnode
  have hraised := h.heeding.raised_act hnode
  have hvalue : node.durable.shutdown.value = task.node.durable.shutdown.value :=
    Bool.eq_iff_iff.mpr hraised
  refine ⟨h.attempts, hheeding, hvalue.trans h.value, fun _ => ?_, fun hj => ?_⟩
  · simp only [System.move] at hnode
    split at hnode
    · split_ifs at hnode
      cases hnode
      rfl
    · cases hnode
  · have hprocess := Node.process_of_returned (h.joined hj).2
    simp [System.move, hprocess] at hnode

theorem Sane.again (h : task.Sane shutdown running) (hmove : task.move .again = some task') :
    task'.Sane shutdown running := by
  obtain ⟨node, hnode, rfl⟩ := move_cases hmove
  have hheeding := System.heeding_move (obeys_attended h.attempts) h.heeding hnode
  simp only [System.move] at hnode
  split at hnode
  · rename_i c hprocess
    cases hnode
    refine ⟨h.attempts, hheeding, h.value, fun _ => rfl, fun hj => ?_⟩
    rw [Node.process_of_returned (h.joined hj).2] at hprocess
    cases hprocess
  · cases hnode

theorem Sane.join (h : task.Sane shutdown running) (hshutdown : shutdown = true)
    (hreturned : task.node.returned = some (.ok ())) :
    { task with joined := true : WorkerTask }.Sane shutdown running :=
  ⟨h.attempts, h.heeding, h.value, h.alive, fun _ => ⟨hshutdown, hreturned⟩⟩

theorem returned_drop (task : WorkerTask) : task.drop.node.returned = task.node.returned := by
  unfold drop
  split_ifs with hreturned
  · rfl
  · rw [Option.not_isSome_iff_eq_none.mp hreturned]
    rfl

theorem Sane.drop (h : task.Sane shutdown running) : task.drop.Sane shutdown False := by
  have hreturned := returned_drop task
  unfold WorkerTask.drop at *
  split_ifs at * with hsome
  · exact ⟨h.attempts, h.heeding, h.value, fun hfalse => hfalse.elim, h.joined⟩
  · refine ⟨h.attempts, ⟨h.heeding.durable, fun p hp => by cases hp⟩, h.value,
      fun hfalse => hfalse.elim, fun hj => ?_⟩
    rw [(h.joined hj).2] at hsome
    exact absurd rfl hsome

end WorkerTask

/-! ### Runs -/

namespace WebhookManager

open DurableWorker

variable {m m' : WebhookManager} {move : ManagerMove}

/-- A good end comes after the shutdown, with every task joined; a bad end has its worker. -/
structure Inv (m : WebhookManager) : Prop where
  sane : ∀ task ∈ m.tasks, task.Sane m.shutdown (m.result = none)
  ok : m.result = some (.ok ()) → m.shutdown = true
  joined : m.result = some (.ok ()) → ∀ task ∈ m.tasks, task.joined = true
  failed : ∀ e, m.result = some (.error e) →
    ∃ task ∈ m.tasks, ∃ reason, task.node.returned = some (.error reason)

theorem inv_start {services : List (DurableWorker × World)}
    (hattempts : ∀ s ∈ services, s.1.endpoint.maxAttempts ≤ u32Max) :
    Inv (start services) where
  sane task htask := by
    obtain ⟨s, hs, rfl⟩ := List.mem_map.mp htask
    exact WorkerTask.sane_spawn (hattempts s hs) s.2
  ok h := by cases h
  joined h := by cases h
  failed e h := by cases h

theorem Inv.set (h : Inv m) {k : ℕ} {task task' : WorkerTask} (hk : m.tasks[k]? = some task)
    (hsane : task'.Sane m.shutdown (m.result = none))
    (hreturned : ∀ reason, task.node.returned = some (.error reason) →
      task'.node.returned = some (.error reason))
    (hjoined : task.joined = true → task'.joined = true) :
    Inv { m with tasks := m.tasks.set k task' } where
  sane other hother := by
    rcases List.mem_or_eq_of_mem_set hother with hother | rfl
    · exact h.sane other hother
    · exact hsane
  ok := h.ok
  joined hresult other hother := by
    rcases List.mem_or_eq_of_mem_set hother with hother | rfl
    · exact h.joined hresult other hother
    · exact hjoined (h.joined hresult task (List.mem_of_getElem? hk))
  failed e hresult := by
    obtain ⟨other, hother, reason, hreason⟩ := h.failed e hresult
    obtain ⟨i, hi⟩ := List.mem_iff_getElem?.mp hother
    by_cases heq : i = k
    · subst i
      obtain rfl : task = other := Option.some.inj (hk.symm.trans hi)
      obtain ⟨hlt, _⟩ := List.getElem?_eq_some_iff.mp hk
      exact ⟨task', List.mem_set hlt task', reason, hreturned reason hreason⟩
    · refine ⟨other, List.mem_iff_getElem?.mpr ⟨i, ?_⟩, reason, hreason⟩
      rw [List.getElem?_set_ne (Ne.symm heq)]
      exact hi

theorem inv_map {f : WorkerTask → WorkerTask} {shutdown : Bool}
    {result : Option (Except WorkerError Unit)}
    (hsane : ∀ task ∈ m.tasks, (f task).Sane shutdown (result = none))
    (hreturned : ∀ task, (f task).node.returned = task.node.returned)
    (hok : result = some (.ok ()) → shutdown = true)
    (hjoined : result = some (.ok ()) → ∀ task ∈ m.tasks, (f task).joined = true)
    (hfailed : ∀ e, result = some (.error e) →
      ∃ task ∈ m.tasks, ∃ reason, task.node.returned = some (.error reason)) :
    Inv ⟨shutdown, m.tasks.map f, result⟩ where
  sane task htask := by
    obtain ⟨other, hother, rfl⟩ := List.mem_map.mp htask
    exact hsane other hother
  ok := hok
  joined hresult task htask := by
    obtain ⟨other, hother, rfl⟩ := List.mem_map.mp htask
    exact hjoined hresult other hother
  failed e hresult := by
    obtain ⟨task, htask, reason, hreason⟩ := hfailed e hresult
    exact ⟨f task, List.mem_map_of_mem htask, reason, (hreturned task).trans hreason⟩

/-- A worker that has returned well has seen the signal. -/
theorem Inv.shutdown_of_ok (h : Inv m) {k : ℕ} {task : WorkerTask}
    (hk : m.tasks[k]? = some task) (hreturned : task.node.returned = some (.ok ())) :
    m.shutdown = true := by
  have hsane := h.sane task (List.mem_of_getElem? hk)
  have hended := hsane.heeding.leaves (Node.process_of_returned hreturned)
  rw [← hsane.value]
  exact hended.1

theorem inv_step (h : Inv m) (hstep : m.step move = some m') : Inv m' := by
  cases stepped_of_step hstep with
  | signal =>
    exact inv_map (fun task htask => (h.sane task htask).signal) (fun _ => rfl) (fun _ => rfl)
      h.joined h.failed
  | @outside k e task task' hdata hk hmove =>
    have hsane := (h.sane task (List.mem_of_getElem? hk)).outside hdata hmove
    obtain ⟨node, hnode, rfl⟩ := WorkerTask.move_cases hmove
    obtain ⟨w, _, rfl⟩ := Option.map_eq_some_iff.mp hnode
    exact h.set hk hsane (fun _ hreason => hreason) id
  | @act k i task task' hresult hk hmove =>
    have hsane := (h.sane task (List.mem_of_getElem? hk)).act hmove
    obtain ⟨node, hnode, rfl⟩ := WorkerTask.move_cases hmove
    refine h.set hk hsane (fun reason hreason => ?_) id
    simp [System.move, Node.process_of_returned hreason] at hnode
  | @again k task task' hresult hk hmove =>
    have hsane := (h.sane task (List.mem_of_getElem? hk)).again hmove
    obtain ⟨node, hnode, rfl⟩ := WorkerTask.move_cases hmove
    refine h.set hk hsane (fun reason hreason => ?_) id
    simp [System.move, Node.process_of_returned hreason] at hnode
  | @joined k task hresult hk hunjoined hreturned hshutdown =>
    have hsane := (h.sane task (List.mem_of_getElem? hk)).join hshutdown hreturned
    exact h.set hk hsane (fun _ hreason => hreason) (fun _ => rfl)
  | @early k task e hresult hk hreturned hshutdown =>
    rw [h.shutdown_of_ok hk hreturned] at hshutdown
    cases hshutdown
  | @failed k task reason e hresult hk hreturned =>
    refine inv_map (fun other hother => ?_) WorkerTask.returned_drop (fun hok => by cases hok)
      (fun hok => by cases hok) (fun _ _ => ⟨task, List.mem_of_getElem? hk, reason, hreturned⟩)
    exact (h.sane other hother).drop.mono (fun hnone => by cases hnone)
  | finish hresult hjoined hshutdown =>
    refine ⟨fun task htask => ?_, fun _ => ?_, fun _ => hjoined, fun e he => by cases he⟩
    · exact (h.sane task htask).mono (fun hnone => by cases hnone)
    · rcases hshutdown with hshutdown | hne
      · exact hshutdown
      · obtain ⟨task, htask⟩ := List.exists_mem_of_ne_nil _ hne
        exact ((h.sane task htask).joined (hjoined task htask)).1

theorem shutdown_step (h : m.shutdown = true) (hstep : m.step move = some m') :
    m'.shutdown = true := by
  cases stepped_of_step hstep with
  | signal => rfl
  | outside | act | again | joined | early | failed | finish => exact h

end WebhookManager

/-! ### The moves that are left after the signal -/

namespace WorkerTask

open DurableWorker

variable {task task' : WorkerTask} {shutdown : Bool} {running : Prop} {n : ℕ}

/-- The task returns and is joined within so many moves. -/
def Costs (task : WorkerTask) (n : ℕ) : Prop :=
  ∃ moves, moves + (if task.joined then 0 else 1) ≤ n ∧ ∀ p, task.node.process = some p →
    task.worker.attended.Ends Attended stopDemand moves p task.node.durable

theorem Sane.ends (h : task.Sane true running) {p : Prog World Input (Next Control _)}
    (hp : task.node.process = some p) :
    task.worker.attended.Ends Attended stopDemand (9 * task.worker.endpoint.maxAttempts + 44) p
      task.node.durable := by
  have hends := (obeys_attended h.attempts).ends task.worker.rank_le h.heeding h.value hp
  exact hends.mono (by omega)

theorem Sane.costs (h : task.Sane true running) :
    task.Costs (9 * task.worker.endpoint.maxAttempts + 45) := by
  refine ⟨9 * task.worker.endpoint.maxAttempts + 44, ?_, fun p hp => h.ends hp⟩
  split_ifs <;> omega

theorem Costs.environment {e : Outside} (h : task.Costs n) (hsane : task.Sane shutdown running)
    (hmove : task.move (.environment e) = some task') : task'.Costs n := by
  obtain ⟨moves, hmoves, hends⟩ := h
  obtain ⟨node, hnode, rfl⟩ := move_cases hmove
  obtain ⟨w, hw, rfl⟩ := Option.map_eq_some_iff.mp hnode
  have hattended := (hsane.heeding.durable.environment hw).1
  refine ⟨moves, hmoves, fun p hp => (hends p hp).rely ?_⟩
  exact Relation.ReflTransGen.single ⟨hsane.heeding.durable, hattended, e, hw⟩

theorem Costs.act {i : Input} (h : task.Costs n) (hsane : task.Sane shutdown running)
    (hmove : task.move (.act i) = some task') : ∃ n', n' + 1 ≤ n ∧ task'.Costs n' := by
  obtain ⟨moves, hmoves, hends⟩ := h
  obtain ⟨node, hnode, rfl⟩ := move_cases hmove
  obtain ⟨worker, ⟨w, _ | ⟨_ | ⟨e, u, k⟩⟩⟩, joined⟩ := task
  · cases hnode
  · cases hnode
  · simp only [System.move] at hnode
    split_ifs at hnode with he
    cases hnode
    cases moves with
    | zero => exact (hends _ rfl).elim
    | succ moves =>
      have hnext := (hends _ rfl w hsane.heeding.durable (Contract.rely_refl _ w)).2 i he
      refine ⟨n - 1, by omega, moves, ?_, fun p hp => ?_⟩
      · change moves + (if joined then 0 else 1) ≤ n - 1
        change moves + 1 + (if joined then 0 else 1) ≤ n at hmoves
        omega
      · cases hp
        exact hnext

theorem Costs.again (h : task.Costs n) (hsane : task.Sane shutdown running)
    (hmove : task.move .again = some task') : ∃ n', n' + 1 ≤ n ∧ task'.Costs n' := by
  obtain ⟨moves, hmoves, hends⟩ := h
  obtain ⟨node, hnode, rfl⟩ := move_cases hmove
  obtain ⟨worker, ⟨w, _ | ⟨⟨t⟩ | ⟨a⟩⟩ | _⟩, joined⟩ := task
  · cases hnode
  · cases hnode
    cases moves with
    | zero => exact (hends _ rfl).elim
    | succ moves =>
      have hnext := hends _ rfl w hsane.heeding.durable (Contract.rely_refl _ w)
      refine ⟨n - 1, by omega, moves, ?_, fun p hp => ?_⟩
      · change moves + (if joined then 0 else 1) ≤ n - 1
        change moves + 1 + (if joined then 0 else 1) ≤ n at hmoves
        omega
      · cases hp
        exact hnext
  · cases hnode
  · cases hnode

theorem Costs.join (h : task.Costs n) (hunjoined : task.joined = false) :
    ∃ n', n' + 1 ≤ n ∧ { task with joined := true : WorkerTask }.Costs n' := by
  obtain ⟨moves, hmoves, hends⟩ := h
  rw [hunjoined, if_neg Bool.false_ne_true] at hmoves
  exact ⟨n - 1, by omega, moves, by simp only [if_true]; omega, hends⟩

theorem Costs.drop (h : task.Costs n) : task.drop.Costs n := by
  obtain ⟨moves, hmoves, hends⟩ := h
  unfold WorkerTask.drop
  split_ifs
  · exact ⟨moves, hmoves, hends⟩
  · exact ⟨moves, hmoves, fun p hp => by cases hp⟩

end WorkerTask

namespace WebhookManager

open DurableWorker

variable {m m' : WebhookManager} {move : ManagerMove} {moves : List ManagerMove} {b : ℕ}

/-- What the workers and the manager can still do. -/
def Affords (m : WebhookManager) (b : ℕ) : Prop :=
  ∃ c, Funded WorkerTask.Costs m.tasks c ∧ c + (if m.result.isNone then 1 else 0) ≤ b

/-- One move for the manager's own return, and for each worker its passes and the join. -/
def budget (m : WebhookManager) : ℕ :=
  (m.tasks.map (fun task => 9 * task.worker.endpoint.maxAttempts + 45)).sum + 1

theorem Inv.affords (h : Inv m) (hshutdown : m.shutdown = true) : m.Affords m.budget := by
  have hfunded : Funded WorkerTask.Costs m.tasks
      (m.tasks.map (fun task => 9 * task.worker.endpoint.maxAttempts + 45)).sum := by
    apply Funded.of_forall
    intro task htask
    have hsane := h.sane task htask
    rw [hshutdown] at hsane
    exact hsane.costs
  refine ⟨_, hfunded, ?_⟩
  unfold budget
  split_ifs <;> omega

theorem Affords.set {k d : ℕ} {task task' : WorkerTask} (h : m.Affords b)
    (hk : m.tasks[k]? = some task)
    (hcosts : ∀ n, task.Costs n → ∃ n', n' + d ≤ n ∧ task'.Costs n') :
    ∃ b', b' + d ≤ b ∧ Affords { m with tasks := m.tasks.set k task' } b' := by
  obtain ⟨c, hfunded, hc⟩ := h
  obtain ⟨c', hc', hfunded'⟩ := hfunded.set hk hcosts
  exact ⟨b - d, by omega, c', hfunded', by dsimp only; omega⟩

theorem Affords.leave (h : m.Affords b) (hresult : m.result = none) {f : WorkerTask → WorkerTask}
    (hf : ∀ task n, task.Costs n → (f task).Costs n) (r : Except WorkerError Unit) :
    ∃ b', b' + 1 ≤ b ∧ Affords { m with tasks := m.tasks.map f, result := some r } b' := by
  obtain ⟨c, hfunded, hc⟩ := h
  rw [hresult, if_pos Option.isNone_none] at hc
  exact ⟨c, hc, c, hfunded.map (fun task _ n => hf task n), Nat.le_refl c⟩

theorem affords_step (h : Inv m) (hb : m.Affords b) (hstep : m.step move = some m') :
    ∃ b', b' + (if move.isOwn then 1 else 0) ≤ b ∧ m'.Affords b' := by
  cases stepped_of_step hstep with
  | signal =>
    obtain ⟨c, hfunded, hc⟩ := hb
    refine ⟨b, Nat.le_refl b, c, hfunded.map (fun task htask n hn => ?_), hc⟩
    exact hn.environment (e := .signal true) (h.sane task htask) rfl
  | @outside k e task task' hdata hk hmove =>
    have hsane := h.sane task (List.mem_of_getElem? hk)
    exact hb.set hk (fun n hn => ⟨n, Nat.le_refl n, hn.environment hsane hmove⟩)
  | @act k i task task' hresult hk hmove =>
    have hsane := h.sane task (List.mem_of_getElem? hk)
    exact hb.set hk (fun n hn => hn.act hsane hmove)
  | @again k task task' hresult hk hmove =>
    have hsane := h.sane task (List.mem_of_getElem? hk)
    exact hb.set hk (fun n hn => hn.again hsane hmove)
  | @joined k task hresult hk hunjoined hreturned hshutdown =>
    exact hb.set hk (fun n hn => hn.join hunjoined)
  | early hresult => exact hb.leave hresult (fun _ _ hn => hn.drop) _
  | failed hresult => exact hb.leave hresult (fun _ _ hn => hn.drop) _
  | finish hresult =>
    have hleave := hb.leave hresult (f := id) (fun _ _ hn => hn) (.ok ())
    rwa [List.map_id] at hleave

/-- After the signal the manager takes no more of its own moves than it can afford. -/
theorem run_after_signal (h : Inv m) (hshutdown : m.shutdown = true) (hb : m.Affords b)
    (hrun : Steps.run step m moves = some m') :
    Inv m' ∧ m'.shutdown = true ∧ moves.countP ManagerMove.isOwn ≤ b := by
  induction moves generalizing m b with
  | nil =>
    cases hrun
    exact ⟨h, hshutdown, Nat.zero_le b⟩
  | cons move moves ih =>
    obtain ⟨m₁, hstep, hrun⟩ := Steps.run_cons.mp hrun
    obtain ⟨b', hle, hb'⟩ := affords_step h hb hstep
    obtain ⟨hinv, hdown, hcount⟩ :=
      ih (inv_step h hstep) (shutdown_step hshutdown hstep) hb' hrun
    refine ⟨hinv, hdown, ?_⟩
    rw [List.countP_cons]
    omega

theorem inv_run (h : Inv m) (hrun : Steps.run step m moves = some m') : Inv m' := by
  induction moves generalizing m with
  | nil =>
    cases hrun
    exact h
  | cons move moves ih =>
    obtain ⟨m₁, hstep, hrun⟩ := Steps.run_cons.mp hrun
    exact ih (inv_step h hstep) hrun

theorem exists_offered (h : Inv m) (hshutdown : m.shutdown = true) (hresult : m.result = none) :
    ∃ move : ManagerMove, move.Offered ∧ (m.step move).isSome = true := by
  by_cases hall : ∀ task ∈ m.tasks, task.joined = true
  · refine ⟨.finish, trivial, ?_⟩
    simp [step, finish, hresult, hshutdown, List.all_eq_true.mpr hall]
  · push Not at hall
    obtain ⟨task, htask, hunjoined⟩ := hall
    obtain ⟨k, hk⟩ := List.mem_iff_getElem?.mp htask
    have hsane := h.sane task htask
    rw [hshutdown] at hsane
    obtain ⟨p, hp⟩ := Option.isSome_iff_exists.mp (hsane.alive hresult)
    have hends := hsane.ends hp
    rcases p with ⟨t | r⟩ | ⟨e, u, next⟩
    · refine ⟨.again k, trivial, ?_⟩
      simp [step, hresult, moveTask, hk, WorkerTask.move, System.move, hp]
    · refine ⟨.join k, trivial, ?_⟩
      have hreturned : task.node.returned = some r := by simp [Node.returned, hp]
      rcases r with reason | ⟨⟩
      · simp [step, hresult, join, hk, hunjoined, hreturned]
      · simp [step, hresult, join, hk, hunjoined, hreturned, hshutdown]
    · obtain ⟨⟨i, hoffered, henabled⟩, _⟩ :=
        hends task.node.durable hsane.heeding.durable (Contract.rely_refl _ _)
      refine ⟨.act k i, hoffered, ?_⟩
      simp [step, hresult, moveTask, hk, WorkerTask.move, System.move, hp, henabled]

/-- What the manager returns says whether the signal has interrupted the wait for a retry. -/
theorem Inv.result_iff (h : Inv m)
    (huntroubled : ∀ task ∈ m.tasks, task.worker.Untroubled task.journal)
    {r : Except WorkerError Unit} (hr : m.result = some r) :
    (r = .ok () ∧ ∀ task ∈ m.tasks, ¬ task.LostSuccess) ↔
      ∀ task ∈ m.tasks, task.journal.interrupted = false := by
  constructor
  · rintro ⟨rfl, _⟩ task htask
    have hsane := h.sane task htask
    have hreturned := (hsane.joined (h.joined hr task htask)).2
    exact (hsane.heeding.leaves (Node.process_of_returned hreturned)).2
  · intro hquiet
    rcases r with e | ⟨⟩
    · obtain ⟨task, htask, reason, hreason⟩ := h.failed e hr
      have hexplained := (h.sane task htask).heeding.leaves (Node.process_of_returned hreason)
      rcases hexplained with htrouble | hinterrupted
      · exact absurd (huntroubled task htask) htrouble
      · rw [show (task.worker.journal task.node.durable).interrupted = false from
          hquiet task htask] at hinterrupted
        cases hinterrupted
    · refine ⟨rfl, fun task htask hlost => ?_⟩
      have hreturned := ((h.sane task htask).joined (h.joined hr task htask)).2
      exact absurd (hlost.1.symm.trans (Node.process_of_returned hreturned)) (by simp)

/-- Where the manager of all destinations ends after the signal. -/
theorem returns_after_shutdown_iff {services : List (DurableWorker × World)}
    (hattempts : ∀ s ∈ services, s.1.endpoint.maxAttempts ≤ u32Max)
    {before after : List ManagerMove} (hbefore : Steps.run step (start services) before = some m)
    (hafter : Steps.run step m (.signal :: after) = some m')
    (huntroubled : ∀ task ∈ m'.tasks, task.worker.Untroubled task.journal) :
    after.countP ManagerMove.isOwn ≤ m.budget ∧
      (m'.result = none → ∃ move : ManagerMove, move.Offered ∧ (m'.step move).isSome = true) ∧
      ∀ r, m'.result = some r →
        ((r = .ok () ∧ ∀ task ∈ m'.tasks, ¬ task.LostSuccess) ↔
          ∀ task ∈ m'.tasks, task.journal.interrupted = false) := by
  obtain ⟨m₁, hsignal, hrun⟩ := Steps.run_cons.mp hafter
  have hinv₁ : Inv m₁ := inv_step (inv_run (inv_start hattempts) hbefore) hsignal
  have hbudget : m₁.budget = m.budget := by
    cases hsignal
    simp [budget, WorkerTask.signal, Function.comp_def]
  have hshutdown₁ : m₁.shutdown = true := by
    cases hsignal
    rfl
  have haffords := hinv₁.affords hshutdown₁
  rw [hbudget] at haffords
  obtain ⟨hinv, hshutdown, hcount⟩ := run_after_signal hinv₁ hshutdown₁ haffords hrun
  exact ⟨hcount, exists_offered hinv hshutdown, fun r hr => hinv.result_iff huntroubled hr⟩

end WebhookManager

/-! ### Runs of a small deployment -/

def Moves.on (task : ℕ) (moves : Moves) : List ManagerMove :=
  moves.filterMap fun
    | .environment e => some (.outside task e)
    | .act i => some (.act task i)
    | .again => some (.again task)
    | .start | .crash => none

def invoicesWorker : DurableWorker :=
  { ordersWorker 1024 8 with endpoint := ⟨"invoices", 3, 100, 1000⟩ }

def ordersAndInvoices : List (DurableWorker × World) :=
  [(ordersWorker 1024 8, World.new), (invoicesWorker, World.new)]

/-- One worker waits for a retry and the other has just been answered when the signal comes. -/
def signalledInWait : List ManagerMove :=
  Moves.on 0 (Moves.persist "d-1" ++ Moves.recover ++ Moves.take ++ Moves.attempt 503 ++
      [.act {}, .act {}, .act {}, .again, .act {}]) ++
    Moves.on 1 (.environment (.persist { ordersCommand "d-2" with destinationId := "invoices" }
      .done) :: Moves.recover ++ Moves.take ++ Moves.attempt 200) ++
    [.signal, .act 0 { wake := .changed }, .act 0 {}, .join 0]

/-- The same two workers with nothing in hand when the signal comes. -/
def signalledAtRest : List ManagerMove :=
  Moves.on 0 (Moves.persist "d-1" ++ Moves.recover ++ Moves.take ++ Moves.attempt 200 ++
    [.act {}, .again])

def endedAtRest : List ManagerMove :=
  [.act 0 {}] ++ Moves.on 1 [.act {}, .again, .act {}, .act {}, .again, .act {}] ++
    [.join 1, .join 0, .finish]

namespace WebhookManager

open DurableWorker

theorem exists_of_any (m : WebhookManager) (moves : List ManagerMove) {P : WebhookManager → Prop}
    [DecidablePred P] (h : (Steps.run step m moves).any (fun m' => decide (P m')) = true) :
    ∃ m', Steps.run step m moves = some m' ∧ P m' := by
  cases hrun : Steps.run step m moves with
  | none =>
    rw [hrun] at h
    cases h
  | some m' =>
    rw [hrun] at h
    exact ⟨m', rfl, of_decide_eq_true h⟩

/-- The first worker reports the signal as its failure, and the second is dropped with a delivery
that will be made again. -/
theorem shutdown_reported_as_failure :
    ∃ m, Steps.run step (start ordersAndInvoices) signalledInWait = some m ∧
      (∀ task ∈ m.tasks, task.worker.Untroubled task.journal) ∧
      m.result = some (.error ⟨"orders", "shutdown interrupted durable retry wait"⟩) ∧
      ∃ task ∈ m.tasks, task.LostSuccess := by
  obtain ⟨m, hrun, huntroubled, hresult, task, htask, hprocess, hattempted, hanswered,
      hcommitted⟩ := exists_of_any
    (start ordersAndInvoices) signalledInWait
    (P := fun m => (∀ task ∈ m.tasks, task.worker.Untroubled task.journal) ∧
      m.result = some (.error ⟨"orders", "shutdown interrupted durable retry wait"⟩) ∧
      ∃ task ∈ m.tasks, task.node.process.isNone = true ∧
        .attempted ⟨.delivery, 0, 0⟩ "d-2" ⟨[123, 125], "m-1", 1⟩ ∈ task.node.durable.history ∧
        .answered "d-2" (.delivered 200) ∈ task.node.durable.history ∧
        .committed ⟨.delivery, 0, 0⟩ ∉ task.node.durable.history)
    (by decide +kernel)
  exact ⟨m, hrun, huntroubled, hresult, task, htask, Option.isNone_iff_eq_none.mp hprocess,
    _, _, _, _, hattempted, hanswered, hcommitted⟩

theorem returns_after_shutdown_iff_atRest :
    ∃ m, Steps.run step (start ordersAndInvoices)
        (signalledAtRest ++ .signal :: endedAtRest) = some m ∧
      m.result = some (.ok ()) ∧ ∀ task ∈ m.tasks, ¬ task.LostSuccess := by
  obtain ⟨m, hrun, hresult, huntroubled, hquiet⟩ := exists_of_any
    (start ordersAndInvoices) (signalledAtRest ++ .signal :: endedAtRest)
    (P := fun m => m.result = some (.ok ()) ∧
      (∀ task ∈ m.tasks, task.worker.Untroubled task.journal) ∧
      ∀ task ∈ m.tasks, task.journal.interrupted = false)
    (by decide +kernel)
  obtain ⟨m₁, hbefore, hafter⟩ := Steps.run_append.mp hrun
  have hattempts : ∀ s ∈ ordersAndInvoices, s.1.endpoint.maxAttempts ≤ u32Max := by
    decide
  have hiff := (returns_after_shutdown_iff hattempts hbefore hafter huntroubled).2.2 _ hresult
  exact ⟨m, hrun, hresult, (hiff.mpr hquiet).2⟩

end WebhookManager
end KafkaEdgeRouter.Webhook
