import ProtoTypings.Generation.Parallel
import ProtoTypings.Proofs.Result

set_option autoImplicit false
set_option relaxedAutoImplicit false

/-!
Groups of tasks. Under every schedule, what a group fails with is the failure of one of its tasks:
a task gives up only after the group was cancelled, and that happens only after a failure. A group
without a failure, once all its tasks have ended, has the outputs of all of them in order. Every
group can come to its end.
-/

namespace ProtoTypings.Generation

/-- What the state of a task tells about its work and about the group, where `failed` says whether
the group has a failure. -/
def TaskState.Fits (work : List (Traced (List OutputFile))) (failed : Prop) (task : Nat) :
    TaskState → Prop
  | .waiting | .started | .working => True
  | .givingUp | .ended none => failed
  | .worked result => ∃ job, work[task]? = some job ∧ job.result = result
  | .ended (some output) => ∃ job, work[task]? = some job ∧ job.result = .ok output

private theorem TaskState.Fits.mono {work : List (Traced (List OutputFile))} {failed later : Prop}
    {task : Nat} {state : TaskState} (fits : state.Fits work failed task)
    (still : failed → later) : state.Fits work later task := by
  match state, fits with
  | .waiting, _ | .started, _ | .working, _ => trivial
  | .givingUp, fits | .ended none, fits => exact still fits
  | .worked _, fits | .ended (some _), fits => exact fits

/-- How many of its steps a task has behind it. -/
def TaskState.stage : TaskState → Nat
  | .waiting => 0
  | .started => 1
  | .working => 2
  | .givingUp | .worked _ => 3
  | .ended _ => 4

namespace Group

variable {work : List (Traced (List OutputFile))} {group : Group}

inductive Reaches (work : List (Traced (List OutputFile))) (group : Group) : Group → Prop where
  | same : Reaches work group group
  | start (task : Nat) (state : group.tasks[task]? = some .waiting) :
      Reaches work group (group.setTask task .started)
  | clear (task : Nat) (state : group.tasks[task]? = some .started)
      (running : group.isCancelled = false) : Reaches work group (group.setTask task .working)
  | refuse (task : Nat) (state : group.tasks[task]? = some .started)
      (cancelled : group.isCancelled = true) : Reaches work group (group.setTask task .givingUp)
  | work (task : Nat) (job : Traced (List OutputFile))
      (state : group.tasks[task]? = some .working) (found : work[task]? = some job) :
      Reaches work group
        { group.setTask task (.worked job.result) with events := group.events ++ job.events }
  | giveUp (task : Nat) (state : group.tasks[task]? = some .givingUp) :
      Reaches work group ((group.setTask task (.ended none)).fail .cancelled)
  | deliver (task : Nat) (output : List OutputFile)
      (state : group.tasks[task]? = some (.worked (.ok output))) :
      Reaches work group (group.setTask task (.ended (some output)))
  | fail (task : Nat) (fault : Fault)
      (state : group.tasks[task]? = some (.worked (.error fault))) :
      Reaches work group ((group.setTask task (.ended none)).fail (.fault fault))
  | cancel (failed : group.failure.isSome = true) :
      Reaches work group { group with isCancelled := true }

private theorem reaches_step (work : List (Traced (List OutputFile))) (group : Group)
    (next : GroupStep) : Reaches work group (group.step work next) := by
  cases next with
  | start task =>
    simp only [step]
    split
    · rename_i state
      exact .start task state
    · exact .same
  | check task =>
    simp only [step]
    split
    · rename_i state
      cases cancelled : group.isCancelled with
      | true => exact .refuse task state cancelled
      | false => exact .clear task state cancelled
    · exact .same
  | work task =>
    simp only [step]
    split
    · rename_i job state found
      exact .work task job state found
    · exact .same
  | finish task =>
    simp only [step]
    split
    · rename_i state
      exact .giveUp task state
    · rename_i output state
      exact .deliver task output state
    · rename_i fault state
      exact .fail task fault state
    · exact .same
  | cancel =>
    simp only [step]
    split
    · rename_i failed
      exact .cancel failed
    · exact .same

/-- What holds of a group after any number of steps. -/
structure Sound (work : List (Traced (List OutputFile))) (group : Group) : Prop where
  size : group.tasks.length = work.length
  failure : ∀ failure ∈ group.failure,
    ∃ job ∈ work, ∃ fault, job.result = .error fault ∧ failure = .fault fault
  cancelled : group.isCancelled = true → group.failure.isSome = true
  tasks : ∀ (task : Nat) (state : TaskState), group.tasks[task]? = some state →
    state.Fits work (group.failure.isSome = true) task

private theorem sound_ofSize (work : List (Traced (List OutputFile))) :
    Sound work (ofSize work.length) := by
  refine ⟨List.length_replicate, fun failure found => ?_, fun cancelled => ?_, ?_⟩
  · cases found
  · cases cancelled
  · intro task state found
    have waiting : state = .waiting :=
      List.eq_of_mem_replicate (List.mem_of_getElem? found)
    rw [waiting]
    trivial

private theorem Sound.setTask (sound : Sound work group) {task : Nat} {state : TaskState}
    (fits : state.Fits work (group.failure.isSome = true) task) :
    Sound work (group.setTask task state) := by
  refine ⟨(List.length_set).trans sound.size, sound.failure, sound.cancelled, ?_⟩
  intro other otherState found
  rw [Group.setTask, List.getElem?_set] at found
  split at found
  · rename_i same
    split at found
    · obtain rfl := Option.some.inj found
      exact same ▸ fits
    · cases found
  · exact sound.tasks other otherState found

/-- A task ends without output and its failure is recorded; one that gives up is too late. -/
private theorem Sound.fail (sound : Sound work group) (task : Nat) {failure : GroupFailure}
    (origin : group.failure.isSome = true ∨
      ∃ job ∈ work, ∃ fault, job.result = .error fault ∧ failure = .fault fault) :
    Sound work ((group.setTask task (.ended none)).fail failure) := by
  have failed : (group.failure.or (some failure)).isSome = true := by simp
  refine ⟨(List.length_set).trans sound.size, fun recorded found => ?_, fun _ => failed, ?_⟩
  · rcases Option.or_eq_some_iff.mp found with earlier | ⟨none, first⟩
    · exact sound.failure recorded earlier
    · obtain rfl := Option.some.inj first
      exact origin.resolve_left (by simp [show group.failure = _ from none])
  · intro other state found
    change (group.tasks.set task (.ended none))[other]? = some state at found
    rw [List.getElem?_set] at found
    split at found
    · split at found
      · obtain rfl := Option.some.inj found
        exact failed
      · cases found
    · exact (sound.tasks other state found).mono fun _ => failed

private theorem Sound.reaches (sound : Sound work group) {next : Group}
    (reaches : Reaches work group next) : Sound work next := by
  cases reaches with
  | same => exact sound
  | start task state => exact sound.setTask trivial
  | clear task state running => exact sound.setTask trivial
  | refuse task state cancelled => exact sound.setTask (sound.cancelled cancelled)
  | work task job state found =>
    have fits : TaskState.Fits work (group.failure.isSome = true) task (.worked job.result) :=
      ⟨job, found, rfl⟩
    have done := sound.setTask fits
    exact ⟨done.size, done.failure, done.cancelled, done.tasks⟩
  | giveUp task state => exact sound.fail task (Or.inl (sound.tasks task _ state))
  | deliver task output state =>
    have done := sound.tasks task _ state
    exact sound.setTask done
  | fail task fault state =>
    obtain ⟨job, found, failed⟩ := sound.tasks task _ state
    exact sound.fail task (Or.inr ⟨job, List.mem_of_getElem? found, fault, failed, rfl⟩)
  | cancel failed => exact ⟨sound.size, sound.failure, fun _ => failed, sound.tasks⟩

private theorem Sound.steps (sound : Sound work group) (schedule : List GroupStep) :
    Sound work (schedule.foldl (Group.step work) group) := by
  induction schedule generalizing group with
  | nil => exact sound
  | cons next rest ih => exact ih (sound.reaches (reaches_step work group next))

theorem sound_run (work : List (Traced (List OutputFile))) (schedule : List GroupStep) :
    Sound work (run work schedule) := (sound_ofSize work).steps schedule

/-- What the work gives when it is done in turn, up to the first failure. -/
def inTurn (work : List (Traced (List OutputFile))) : Except Fault (List OutputFile) :=
  (work.mapM Traced.result).map List.flatten

theorem inTurn_ne_ok {job : Traced (List OutputFile)} {fault : Fault} (member : job ∈ work)
    (failed : job.result = .error fault) (outputs : List OutputFile) :
    inTurn work ≠ .ok outputs := by
  intro done
  obtain ⟨each, eachDone, -⟩ := Result.map_eq_ok.mp done
  obtain ⟨output, -, succeeded⟩ := Result.mapM_ok_of_mem eachDone member
  rw [failed] at succeeded
  cases succeeded

private theorem outputs_of_delivered {states : List TaskState}
    (delivered : List.Forall₂ (fun job state => ∃ output, job.result = .ok output ∧
      state = .ended (some output)) work states) :
    inTurn work = .ok (Group.outputs { tasks := states }) := by
  induction delivered with
  | nil => rfl
  | cons first rest ih =>
    obtain ⟨output, done, rfl⟩ := first
    obtain ⟨outputs, restDone, flat⟩ := Result.map_eq_ok.mp ih
    rw [inTurn, List.mapM_cons, done, restDone]
    exact congrArg (fun more => Except.ok (output ++ more)) flat

private theorem Sound.outputs_of_no_failure (sound : Sound work group)
    (allEnded : group.isOver = true)
    (none : group.failure = none) : inTurn work = .ok group.outputs := by
  refine outputs_of_delivered
    (List.forall₂_iff_get.mpr ⟨sound.size.symm, fun task here bound => ?_⟩)
  have found : group.tasks[task]? = some (group.tasks.get ⟨task, bound⟩) :=
    List.getElem?_eq_getElem bound
  have fits := sound.tasks task _ found
  have ended := List.all_eq_true.mp allEnded _ (List.mem_of_getElem? found)
  match group.tasks.get ⟨task, bound⟩, fits, ended with
  | .ended (some output), ⟨job, jobFound, done⟩, _ =>
    have same := Option.some.inj ((List.getElem?_eq_getElem here).symm.trans jobFound)
    exact ⟨output, (congrArg Traced.result same).trans done, rfl⟩
  | .ended Option.none, failed, _ => simp [TaskState.Fits, none] at failed

theorem Sound.result_eq_ok_iff (sound : Sound work group) (allEnded : group.isOver = true)
    {outputs : List OutputFile} : group.result = .ok outputs ↔ inTurn work = .ok outputs := by
  cases failure : group.failure with
  | none =>
    have whole := sound.outputs_of_no_failure allEnded failure
    simp only [Group.result, failure, whole]
    simp
  | some recorded =>
    obtain ⟨job, member, fault, failed, -⟩ := sound.failure recorded failure
    have refused := inTurn_ne_ok member failed outputs
    simp [Group.result, failure, refused]

theorem Sound.result_eq_error (sound : Sound work group) {failure : GroupFailure}
    (failed : group.result = .error failure) :
    ∃ job ∈ work, ∃ fault, job.result = .error fault ∧ failure = .fault fault := by
  rw [Group.result] at failed
  split at failed
  · cases failed
  · rename_i recorded found
    obtain rfl := Except.error.inj failed
    exact sound.failure recorded found

/-- The steps of one task, one after the other. -/
def stepsOf (task : Nat) : List GroupStep := [.start task, .check task, .work task, .finish task]

def HasCome (group : Group) (task stage : Nat) : Prop :=
  ∃ state, group.tasks[task]? = some state ∧ stage ≤ state.stage

private theorem HasCome.setTask {task other stage : Nat} {old new : TaskState}
    (found : group.tasks[other]? = some old) (onward : old.stage ≤ new.stage)
    (come : group.HasCome task stage) : (group.setTask other new).HasCome task stage := by
  obtain ⟨state, has, far⟩ := come
  rw [HasCome, Group.setTask, List.getElem?_set]
  split
  · rename_i same
    subst same
    have bound : other < group.tasks.length := (List.getElem?_eq_some_iff.mp found).1
    obtain rfl := Option.some.inj (has.symm.trans found)
    exact ⟨new, if_pos bound, Nat.le_trans far onward⟩
  · exact ⟨state, has, far⟩

private theorem HasCome.step {task stage : Nat} (come : group.HasCome task stage)
    (next : GroupStep) : (group.step work next).HasCome task stage := by
  have reaches := reaches_step work group next
  generalize group.step work next = after at reaches
  cases reaches with
  | same => exact come
  | start other state => exact come.setTask state (by decide)
  | clear other state _ => exact come.setTask state (by decide)
  | refuse other state _ => exact come.setTask state (by decide)
  | work other job state found => exact come.setTask state (by simp [TaskState.stage])
  | giveUp other state => exact come.setTask state (by decide)
  | deliver other output state => exact come.setTask state (by simp [TaskState.stage])
  | fail other fault state => exact come.setTask state (by simp [TaskState.stage])
  | cancel failed => exact come

private theorem HasCome.steps {task stage : Nat} (come : group.HasCome task stage)
    (schedule : List GroupStep) :
    (schedule.foldl (Group.step work) group).HasCome task stage := by
  induction schedule generalizing group with
  | nil => exact come
  | cons next rest ih => exact ih (come.step next)

private theorem hasCome_setTask {task stage : Nat} {old new : TaskState}
    (found : group.tasks[task]? = some old) (far : stage ≤ new.stage) :
    (group.setTask task new).HasCome task stage := by
  have bound : task < group.tasks.length := (List.getElem?_eq_some_iff.mp found).1
  exact ⟨new, List.getElem?_set_self bound, far⟩

private theorem HasCome.start {task : Nat} (come : group.HasCome task 0) :
    (group.step work (.start task)).HasCome task 1 := by
  obtain ⟨state, found, -⟩ := come
  cases state with
  | waiting =>
    simp only [Group.step, found]
    exact hasCome_setTask found (by decide)
  | _ => exact HasCome.step ⟨_, found, by simp [TaskState.stage]⟩ _

private theorem HasCome.check {task : Nat} (come : group.HasCome task 1) :
    (group.step work (.check task)).HasCome task 2 := by
  obtain ⟨state, found, far⟩ := come
  cases state with
  | waiting => simp [TaskState.stage] at far
  | started =>
    simp only [Group.step, found]
    exact hasCome_setTask found (by cases group.isCancelled <;> decide)
  | _ => exact HasCome.step ⟨_, found, by simp [TaskState.stage]⟩ _

private theorem HasCome.working {task : Nat} (come : group.HasCome task 2)
    (here : task < work.length) : (group.step work (.work task)).HasCome task 3 := by
  obtain ⟨state, found, far⟩ := come
  cases state with
  | waiting | started => simp [TaskState.stage] at far
  | working =>
    simp only [Group.step, found, List.getElem?_eq_getElem here]
    exact hasCome_setTask found (by simp [TaskState.stage])
  | _ => exact HasCome.step ⟨_, found, by simp [TaskState.stage]⟩ _

private theorem HasCome.finish {task : Nat} (come : group.HasCome task 3) :
    (group.step work (.finish task)).HasCome task 4 := by
  obtain ⟨state, found, far⟩ := come
  cases state with
  | waiting | started | working => simp [TaskState.stage] at far
  | givingUp =>
    simp only [Group.step, found]
    exact hasCome_setTask found (by decide)
  | worked result =>
    cases result <;> simp only [Group.step, found] <;>
      exact hasCome_setTask found (by simp [TaskState.stage])
  | ended output => exact HasCome.step ⟨_, found, by simp [TaskState.stage]⟩ _

private theorem hasCome_stepsOf {task : Nat} (bound : task < group.tasks.length)
    (here : task < work.length) : ((stepsOf task).foldl (step work) group).HasCome task 4 := by
  have known : group.HasCome task 0 := ⟨_, List.getElem?_eq_getElem bound, Nat.zero_le _⟩
  simp only [stepsOf, List.foldl_cons, List.foldl_nil]
  exact (known.start.check.working here).finish

theorem exists_isOver (work : List (Traced (List OutputFile))) (begun : List GroupStep) :
    ∃ rest, (run work (begun ++ rest)).isOver = true := by
  refine ⟨(List.range work.length).flatMap stepsOf, List.all_eq_true.mpr fun state member => ?_⟩
  obtain ⟨task, found⟩ := List.mem_iff_getElem?.mp member
  have here : task < work.length :=
    (sound_run work _).size ▸ (List.getElem?_eq_some_iff.mp found).1
  obtain ⟨before, after, split⟩ := List.append_of_mem (List.mem_range.mpr here)
  have come : (run work (begun ++ (List.range work.length).flatMap stepsOf)).HasCome task 4 := by
    have size := (sound_run work (begun ++ before.flatMap stepsOf)).size
    have ended := hasCome_stepsOf (size ▸ here) here
    rw [split, List.flatMap_append, List.flatMap_cons, ← List.append_assoc, ← List.append_assoc,
      run, List.foldl_append, List.foldl_append]
    exact ended.steps _
  obtain ⟨same, has, far⟩ := come
  obtain rfl := Option.some.inj (found.symm.trans has)
  cases state with
  | ended output => rfl
  | _ => simp [TaskState.stage] at far

end Group

end ProtoTypings.Generation
