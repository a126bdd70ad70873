import CoUring.Coroutine.TaskLifecycle

namespace CoUring

open Foundation

universe u v

variable {ε : Type u} {α : Type v}

/-! The handles of coroutines that stay suspended: only `task` variables come
and go. -/

/-- The constructors, the move assignment and the destructor, on coroutines
that stand at an await of their body. -/
def TaskOp.HandleOnly : TaskOp ε α → Prop
  | .create _ suspensions _ => 0 < suspensions
  | .defaultConstruct _ => True
  | .moveConstruct _ _ => True
  | .moveAssign _ _ => True
  | .destruct _ => True
  | .done _ => False
  | .get _ => False
  | .coAwait _ => False
  | .spawn _ _ => False
  | .resume _ => False

instance (op : TaskOp ε α) : Decidable op.HandleOnly := by
  cases op <;> unfold TaskOp.HandleOnly <;> infer_instance

theorem TaskFrame.start_suspended {suspensions : Nat}
    (suspends : 0 < suspensions) (outcome : Outcome ε α) :
    (TaskFrame.start suspensions outcome).Unfinished ∧
      (TaskFrame.start suspensions outcome).destroys = 0 := by
  simp [TaskFrame.start, PromiseType.initialSuspend, TaskFrame.run,
    TaskFrame.Unfinished, suspends]

namespace TaskStore

variable {store next : TaskStore ε α} {op : TaskOp ε α} {frame : FrameId}
  {var other : TaskVar}

def handleSystem : TransitionSystem (TaskStore ε α) (TaskOp ε α) :=
  lifecycle.restrict fun _ op => op.HandleOnly

/-- The frame whose holder an operation destroys or assigns over with another
task. -/
def released (store : TaskStore ε α) : TaskOp ε α → Option FrameId
  | .destruct var => (store.vars var).join
  | .moveAssign var other =>
      if var = other then none else (store.vars var).join
  | _ => none

def releases (history : List (TaskStore ε α × TaskOp ε α))
    (frame : FrameId) : Nat :=
  history.countP fun taken => released taken.1 taken.2 = some frame

structure LinearlyOwned (store : TaskStore ε α) : Prop where
  held : ∀ frame contents, store.frames.cell frame = some contents →
    contents.state ≠ .destroyed → ∃ var, store.Holds var frame ∧
      ∀ other, store.Holds other frame → other = var
  alive : ∀ var frame, store.Holds var frame →
    ∃ contents, store.frames.cell frame = some contents ∧
      contents.state ≠ .destroyed
  untouched : store.fault = none

structure AllSuspended (store : TaskStore ε α) : Prop where
  owned : Ownership store
  healthy : store.fault = none
  unfinished : ∀ frame contents, store.frames.cell frame = some contents →
    contents.Unfinished

theorem AllSuspended.linearlyOwned (suspended : AllSuspended store) :
    LinearlyOwned store where
  held := by
    intro frame contents stored present
    cases suspended.owned.status frame contents stored with
    | alive _ held _ _ =>
        obtain ⟨var, holds⟩ := held
        exact ⟨var, holds, fun other also =>
          suspended.owned.linear _ _ frame also holds⟩
    | gone _ state _ => exact absurd state present
  alive := by
    intro var frame holds
    obtain ⟨contents, stored⟩ := suspended.owned.allocated var frame holds
    refine ⟨contents, stored, ?_⟩
    cases suspended.owned.status frame contents stored with
    | alive _ _ state _ =>
        rw [state]
        decide
    | gone unheld _ _ =>
        have unfinished := suspended.unfinished frame contents stored
        exact absurd ⟨var, holds⟩ (unheld unfinished)
  untouched := suspended.healthy

theorem AllSuspended.handleUnfinished (suspended : AllSuspended store)
    (var : TaskVar) : store.HandleUnfinished var := by
  intro frame holds
  obtain ⟨contents, stored⟩ := suspended.owned.allocated var frame holds
  exact ⟨contents, stored, suspended.unfinished frame contents stored⟩

theorem AllSuspended.stepSafe (suspended : AllSuspended store)
    (handles : op.HandleOnly) : store.StepSafe op := by
  cases op with
  | create | defaultConstruct | moveConstruct => trivial
  | moveAssign var other => exact fun _ => suspended.handleUnfinished var
  | destruct var => exact suspended.handleUnfinished var
  | done | get | coAwait | spawn | resume => exact absurd handles id

/-! What one operation does to the frames. -/

theorem destroyFrame_frames {contents : TaskFrame ε α}
    (stored : store.frames.cell frame = some contents) :
    (store.destroyFrame frame).frames =
      store.frames.put frame contents.destroy := by
  simp only [destroyFrame, stored]

/-- A new frame, the end of the released one, or nothing. -/
inductive FramesAfter (store : TaskStore ε α) (op : TaskOp ε α)
    (next : TaskStore ε α) : Prop
  | created {suspensions : Nat} {outcome : Outcome ε α}
      (suspends : 0 < suspensions) (kept : store.released op = none)
      (frames : next.frames =
        store.frames.put store.frames.next (.start suspensions outcome))
  | destroyed {frame : FrameId} {contents : TaskFrame ε α}
      (stored : store.frames.cell frame = some contents)
      (released : store.released op = some frame)
      (frames : next.frames = store.frames.put frame contents.destroy)
  | same (kept : store.released op = none)
      (frames : next.frames = store.frames)

theorem Ownership.dropHandle_frames (owned : Ownership store)
    {handle : Option FrameId} (target : store.vars var = some handle)
    (releases : store.released op = handle)
    (frames : next.frames = (store.dropHandle handle).frames) :
    FramesAfter store op next := by
  cases handle with
  | none => exact .same releases frames
  | some frame =>
      obtain ⟨contents, stored⟩ := owned.allocated var frame target
      apply FramesAfter.destroyed stored releases
      rw [frames]
      exact destroyFrame_frames stored

theorem Ownership.framesAfter (owned : Ownership store)
    (handles : op.HandleOnly) (stepped : store.step op = some next) :
    FramesAfter store op next := by
  obtain ⟨-, performed⟩ := Option.ite_none_right_eq_some.mp stepped
  cases op with
  | create var suspensions outcome =>
      obtain ⟨-, result⟩ := Option.ite_none_right_eq_some.mp performed
      obtain rfl := Option.some.inj result
      exact .created handles rfl rfl
  | defaultConstruct var =>
      obtain ⟨-, result⟩ := Option.ite_none_right_eq_some.mp performed
      obtain rfl := Option.some.inj result
      exact .same rfl rfl
  | moveConstruct var other =>
      obtain ⟨-, result⟩ := Option.ite_none_right_eq_some.mp performed
      obtain ⟨handle, -, rfl⟩ := Option.map_eq_some_iff.mp result
      exact .same rfl rfl
  | moveAssign var other =>
      obtain ⟨old, target, result⟩ := Option.bind_eq_some_iff.mp performed
      obtain ⟨handle, -, rfl⟩ := Option.map_eq_some_iff.mp result
      by_cases same : var = other
      · rw [if_pos same]
        exact .same (if_pos same) rfl
      · rw [if_neg same]
        refine owned.dropHandle_frames target ?_ rfl
        rw [released, if_neg same, target, Option.join_some]
  | destruct var =>
      obtain ⟨handle, target, rfl⟩ := Option.map_eq_some_iff.mp performed
      refine owned.dropHandle_frames target ?_ rfl
      rw [released, target, Option.join_some]
  | done | get | coAwait | spawn | resume => exact absurd handles id

theorem AllSuspended.step (suspended : AllSuspended store)
    (handles : op.HandleOnly) (stepped : store.step op = some next) :
    AllSuspended next := by
  obtain ⟨-, healthy, owned⟩ | ⟨refused, -⟩ := suspended.owned.step stepped
  · refine ⟨owned, healthy, ?_⟩
    intro frame contents stored
    cases suspended.owned.framesAfter handles stepped with
    | created suspends kept frames =>
        rw [frames] at stored
        obtain ⟨-, rfl⟩ | ⟨-, earlier⟩ := Heap.put_cases stored
        · exact (TaskFrame.start_suspended suspends _).1
        · exact suspended.unfinished frame contents earlier
    | destroyed dropped released frames =>
        rw [frames] at stored
        obtain ⟨-, rfl⟩ | ⟨-, earlier⟩ := Heap.put_cases stored
        · have before := suspended.unfinished _ _ dropped
          exact before
        · exact suspended.unfinished frame contents earlier
    | same kept frames =>
        rw [frames] at stored
        exact suspended.unfinished frame contents stored
  · exact absurd (suspended.stepSafe handles) refused

theorem allSuspended_init : AllSuspended ({} : TaskStore ε α) where
  owned := ownership_init
  healthy := rfl
  unfinished := fun _ _ stored => by cases stored

/-! Whole runs. -/

def DestroysCounted (history : List (TaskStore ε α × TaskOp ε α))
    (last : TaskStore ε α) : Prop :=
  ∀ frame, releases history frame =
    ((last.frames.cell frame).map TaskFrame.destroys).getD 0

theorem releases_snoc (history : List (TaskStore ε α × TaskOp ε α))
    (store : TaskStore ε α) (op : TaskOp ε α) (frame : FrameId) :
    releases (history ++ [(store, op)]) frame =
      releases history frame +
        if store.released op = some frame then 1 else 0 := by
  simp [releases, List.countP_append, List.countP_cons]

theorem DestroysCounted.snoc {history : List (TaskStore ε α × TaskOp ε α)}
    (counted : DestroysCounted history store)
    (after : FramesAfter store op next) :
    DestroysCounted (history ++ [(store, op)]) next := by
  intro frame
  rw [releases_snoc, counted frame]
  cases after with
  | created suspends kept frames =>
      rw [kept, frames]
      by_cases new : frame = store.frames.next
      · subst new
        rw [Heap.cell_put_self, Heap.cell_next, Option.map_some,
          Option.getD_some, (TaskFrame.start_suspended suspends _).2]
        rfl
      · simp [Heap.cell_put_other _ _ new]
  | @destroyed dropped contents stored released frames =>
      rw [released, frames]
      by_cases same : frame = dropped
      · subst same
        simp [stored]
      · simp [Heap.cell_put_other _ _ same, Ne.symm same]
  | same kept frames =>
      rw [kept, frames]
      simp

theorem handleSystem_run {first last : TaskStore ε α}
    {history : List (TaskStore ε α × TaskOp ε α)}
    (start : handleSystem.initial first)
    (run : handleSystem.Execution first history last) :
    AllSuspended last ∧ DestroysCounted history last := by
  induction run with
  | refl =>
      obtain rfl : first = {} := start
      exact ⟨allSuspended_init, fun frame => rfl⟩
  | snoc run step induction =>
      obtain ⟨suspended, counted⟩ := induction
      exact ⟨suspended.step step.1 step.2,
        counted.snoc (suspended.owned.framesAfter step.1 step.2)⟩

/-- Each frame has one holder until the holder goes away, and is destroyed
then. -/
theorem task_handles_linear {first last : TaskStore ε α}
    {history : List (TaskStore ε α × TaskOp ε α)}
    (start : handleSystem.initial first)
    (run : handleSystem.Execution first history last) :
    (∀ state ∈ TransitionSystem.visited history last, LinearlyOwned state) ∧
      ∀ frame contents, last.frames.cell frame = some contents →
        contents.destroys = releases history frame ∧
          contents.destroys ≤ 1 ∧
          (contents.state = .destroyed ↔ releases history frame = 1) := by
  have atStart : AllSuspended first := by
    obtain rfl : first = {} := start
    exact allSuspended_init
  constructor
  · have suspended := run.forall_visited atStart
      fun state op next suspended step => suspended.step step.1 step.2
    intro state visited
    exact (suspended state visited).linearlyOwned
  · obtain ⟨suspended, counted⟩ := handleSystem_run start run
    intro frame contents stored
    have destroys : contents.destroys = releases history frame := by
      rw [counted frame, stored]
      rfl
    rw [← destroys]
    refine ⟨rfl, ?_⟩
    cases suspended.owned.status frame contents stored with
    | alive _ _ state destroys => simp [state, destroys]
    | gone _ state destroys => simp [state, destroys]

def overwrittenAndDestructed : List (TaskOp Unit Unit) :=
  [.create 0 1 (.value ()), .create 1 1 (.value ()), .moveAssign 0 1,
    .moveAssign 0 0, .moveConstruct 2 0, .destruct 2, .destruct 1]

theorem overwritten_and_destructed :
    ∃ last : TaskStore Unit Unit,
      TransitionSystem.runLabels (TransitionSystem.restrictStep
        (fun _ op => op.HandleOnly) step) {} overwrittenAndDestructed =
          some last ∧
      (∀ state ∈ TransitionSystem.visited
        (TransitionSystem.traceLabels
          (TransitionSystem.restrictStep (fun _ op => op.HandleOnly) step) {}
          overwrittenAndDestructed) last, LinearlyOwned state) ∧
      (last.frames.cell 0).map TaskFrame.destroys = some 1 ∧
      (last.frames.cell 1).map TaskFrame.destroys = some 1 := by
  refine ⟨_, rfl, (task_handles_linear rfl
    (TransitionSystem.Execution.restrictLabels rfl)).1, rfl, rfl⟩

end TaskStore

end CoUring
