import ProtoTypings.Generation.Generator

set_option autoImplicit false
set_option relaxedAutoImplicit false

/-!
Work on several files at the same time. Each file is a task of a group. A task starts, looks whether
the group has been cancelled, and then either gives up or works. The first task that finishes with a
failure sets the failure of the group, and after that the group is cancelled. The order of these
steps is a schedule, and the group may meet any of them.
-/

namespace ProtoTypings.Generation

inductive GroupFailure where
  | fault (cause : Fault)
  | cancelled
  deriving DecidableEq, Repr

inductive TaskState where
  | waiting
  | started
  | working
  | givingUp
  /-- The work is done, and the task has yet to hand over its result. -/
  | worked (result : Except Fault (List OutputFile))
  | ended (output : Option (List OutputFile))
  deriving Repr

inductive GroupStep where
  | start (task : Nat)
  /-- A task looks whether the group has been cancelled. -/
  | check (task : Nat)
  | work (task : Nat)
  | finish (task : Nat)
  /-- The group is cancelled, if some task has failed. -/
  | cancel
  deriving DecidableEq, Repr

/-- The group in the middle of its work. -/
structure Group where
  tasks : List TaskState
  failure : Option GroupFailure := none
  isCancelled : Bool := false
  events : List Event := []

namespace Group

def ofSize (size : Nat) : Group := { tasks := List.replicate size .waiting }

/-- The group with the failure of a task; only the first one counts. -/
def fail (group : Group) (failure : GroupFailure) : Group :=
  { group with failure := group.failure.or (some failure) }

def setTask (group : Group) (task : Nat) (state : TaskState) : Group :=
  { group with tasks := group.tasks.set task state }

/-- One step, where `work` has the work of each task. A step that does not fit the state of its task
changes nothing. -/
def step (work : List (Traced (List OutputFile))) (group : Group) : GroupStep → Group
  | .start task =>
    match group.tasks[task]? with
    | some .waiting => group.setTask task .started
    | _ => group
  | .check task =>
    match group.tasks[task]? with
    | some .started => group.setTask task (if group.isCancelled then .givingUp else .working)
    | _ => group
  | .work task =>
    match group.tasks[task]?, work[task]? with
    | some .working, some job =>
      { group.setTask task (.worked job.result) with events := group.events ++ job.events }
    | _, _ => group
  | .finish task =>
    match group.tasks[task]? with
    | some .givingUp => (group.setTask task (.ended none)).fail .cancelled
    | some (.worked (.ok output)) => group.setTask task (.ended (some output))
    | some (.worked (.error fault)) => (group.setTask task (.ended none)).fail (.fault fault)
    | _ => group
  | .cancel => if group.failure.isSome then { group with isCancelled := true } else group

def run (work : List (Traced (List OutputFile))) (schedule : List GroupStep) : Group :=
  schedule.foldl (step work) (ofSize work.length)

def outputs (group : Group) : List OutputFile :=
  group.tasks.flatMap fun
    | .ended (some output) => output
    | _ => []

def isOver (group : Group) : Bool :=
  group.tasks.all fun
    | .ended _ => true
    | _ => false

/-- What the group hands over: all outputs, or its failure. -/
def result (group : Group) : Except GroupFailure (List OutputFile) :=
  match group.failure with
  | none => .ok group.outputs
  | some failure => .error failure

end Group

/-- The schedule in which tasks follow one another. -/
def inOrder (size : Nat) : List GroupStep :=
  (List.range size).flatMap fun task =>
    [.start task, .check task, .work task, .finish task, .cancel]

/-- The failure that is reported for a group. -/
def GroupFailure.toFault : GroupFailure → Fault
  | .fault cause => cause
  | .cancelled => .stated "context canceled"

namespace Workshop

/-- The generated files of several schema files, worked on under a schedule. -/
def outputsUnder (workshop : Workshop) (schedule : List GroupStep) (files : List Schema.File) :
    Traced (List OutputFile) :=
  let group := Group.run (files.map workshop.output) schedule
  match group.result with
  | .ok outputs => ⟨group.events, .ok outputs⟩
  | .error failure => ⟨group.events, .error failure.toFault⟩

end Workshop

end ProtoTypings.Generation
