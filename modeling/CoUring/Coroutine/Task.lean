import CoUring.Foundation.Heap
import CoUring.Foundation.Transition
import CoUring.Io.IoUring

namespace CoUring

open Foundation

universe u v

/-! The frames behind `task<T>` and `task<void>`. The two templates differ only
in the value a body returns. -/

inductive Outcome (ε : Type u) (α : Type v)
  | value (result : α)
  | exception (error : ε)
  deriving DecidableEq, Repr

inductive SuspendKind
  | never
  | always
  deriving DecidableEq, Repr

inductive FrameState
  | running
  | suspended
  /-- Suspended at its final suspend point, where `done()` is true. -/
  | finished
  | destroyed
  deriving DecidableEq, Repr

namespace PromiseType

def initialSuspend : SuspendKind := .never

def finalSuspend : SuspendKind := .never

end PromiseType

def FrameState.done : FrameState → Bool
  | .finished => true
  | .running => false
  | .suspended => false
  | .destroyed => false

/-- A coroutine frame: its state, its promise, how often its body suspends in
all and how often it was resumed. -/
structure TaskFrame (ε : Type u) (α : Type v) where
  state : FrameState
  outcome : Outcome ε α
  suspensions : Nat
  resumed : Nat := 0
  result : Option α := none
  exception : Option ε := none
  destroys : Nat := 0

namespace TaskFrame

variable {ε : Type u} {α : Type v}

def Unfinished (frame : TaskFrame ε α) : Prop :=
  frame.resumed < frame.suspensions

instance (frame : TaskFrame ε α) : Decidable frame.Unfinished :=
  inferInstanceAs (Decidable (_ < _))

def destroy (frame : TaskFrame ε α) : TaskFrame ε α :=
  { frame with state := .destroyed, destroys := frame.destroys + 1 }

def complete (frame : TaskFrame ε α) : TaskFrame ε α :=
  match frame.outcome with
  | .value result => { frame with result := some result }
  | .exception error => { frame with exception := some error }

/-- `final_suspend`: without a suspension there the frame destroys itself. -/
def leaveFinalSuspend (frame : TaskFrame ε α) : TaskFrame ε α :=
  match PromiseType.finalSuspend with
  | .never => frame.destroy
  | .always => { frame with state := .finished }

def run (frame : TaskFrame ε α) : TaskFrame ε α :=
  if frame.Unfinished then { frame with state := .suspended }
  else frame.complete.leaveFinalSuspend

/-- The frame a call of the coroutine allocates, up to the point where the
caller gets its `task` back. -/
def start (suspensions : Nat) (outcome : Outcome ε α) : TaskFrame ε α :=
  let frame : TaskFrame ε α :=
    { state := .running, outcome := outcome, suspensions := suspensions }
  match PromiseType.initialSuspend with
  | .never => frame.run
  | .always => { frame with state := .suspended }

def resume (frame : TaskFrame ε α) : TaskFrame ε α :=
  { frame with state := .running, resumed := frame.resumed + 1 }.run

def awaitResume (frame : TaskFrame ε α) : Outcome ε (Option α) :=
  match frame.exception with
  | some error => .exception error
  | none => .value frame.result

/-- `await_ready`; asking a destroyed frame has no answer. -/
def awaitReady (frame : TaskFrame ε α) : Option Bool :=
  if frame.state = .destroyed then none else some frame.state.done

@[simp] theorem destroy_destroys (frame : TaskFrame ε α) :
    frame.destroy.destroys = frame.destroys + 1 := rfl

@[simp] theorem destroy_resumed (frame : TaskFrame ε α) :
    frame.destroy.resumed = frame.resumed := rfl

@[simp] theorem destroy_suspensions (frame : TaskFrame ε α) :
    frame.destroy.suspensions = frame.suspensions := rfl

@[simp] theorem complete_destroys (frame : TaskFrame ε α) :
    frame.complete.destroys = frame.destroys := by
  unfold complete
  split <;> rfl

@[simp] theorem complete_resumed (frame : TaskFrame ε α) :
    frame.complete.resumed = frame.resumed := by
  unfold complete
  split <;> rfl

@[simp] theorem complete_suspensions (frame : TaskFrame ε α) :
    frame.complete.suspensions = frame.suspensions := by
  unfold complete
  split <;> rfl

@[simp] theorem complete_outcome (frame : TaskFrame ε α) :
    frame.complete.outcome = frame.outcome := by
  unfold complete
  split <;> simp_all

@[simp] theorem destroy_outcome (frame : TaskFrame ε α) :
    frame.destroy.outcome = frame.outcome := rfl

theorem leaveFinalSuspend_eq (frame : TaskFrame ε α) :
    frame.leaveFinalSuspend = frame.destroy := rfl

@[simp] theorem run_resumed (frame : TaskFrame ε α) :
    frame.run.resumed = frame.resumed := by
  unfold run
  split
  · rfl
  · simp [leaveFinalSuspend_eq]

@[simp] theorem run_suspensions (frame : TaskFrame ε α) :
    frame.run.suspensions = frame.suspensions := by
  unfold run
  split
  · rfl
  · simp [leaveFinalSuspend_eq]

@[simp] theorem run_outcome (frame : TaskFrame ε α) :
    frame.run.outcome = frame.outcome := by
  unfold run
  split
  · rfl
  · simp [leaveFinalSuspend_eq]

theorem run_unfinished {frame : TaskFrame ε α}
    (unfinished : frame.Unfinished) :
    frame.run.state = .suspended ∧ frame.run.destroys = frame.destroys := by
  unfold run
  rw [if_pos unfinished]
  exact ⟨rfl, rfl⟩

theorem run_finished {frame : TaskFrame ε α}
    (finished : ¬ frame.Unfinished) :
    frame.run.state = .destroyed ∧
      frame.run.destroys = frame.destroys + 1 := by
  unfold run
  rw [if_neg finished, leaveFinalSuspend_eq]
  exact ⟨rfl, by simp⟩

/-- No frame of a task ever answers that it is done: at its end it is gone. -/
theorem awaitReady_run (frame : TaskFrame ε α) :
    frame.run.awaitReady =
      if frame.Unfinished then some false else none := by
  by_cases unfinished : frame.Unfinished
  · simp [awaitReady, (run_unfinished unfinished).1, FrameState.done,
      unfinished]
  · simp [awaitReady, (run_finished unfinished).1, unfinished]

end TaskFrame

abbrev TaskVar := Nat

/-- What was done to a frame that did not exist any more. -/
inductive FrameAccess
  | done
  | promise
  | resume
  | destroy
  deriving DecidableEq, Repr

/-- The frames, the `task` objects by variable (absent, empty, or holding a
handle), and the coroutines the event loop owes a resumption. -/
structure TaskStore (ε : Type u) (α : Type v) where
  frames : Heap (TaskFrame ε α) := .empty
  vars : TaskVar → Option (Option FrameId) := fun _ => none
  pending : List FrameId := []
  fault : Option (FrameAccess × FrameId) := none

inductive TaskOp (ε : Type u) (α : Type v)
  | create (var : TaskVar) (suspensions : Nat) (outcome : Outcome ε α)
  | defaultConstruct (var : TaskVar)
  | moveConstruct (var other : TaskVar)
  | moveAssign (var other : TaskVar)
  | done (var : TaskVar)
  | get (var : TaskVar)
  | coAwait (var : TaskVar)
  /-- `spawn` moves the task into the parameter of its own coroutine frame and
  awaits it there. -/
  | spawn (var parameter : TaskVar)
  | destruct (var : TaskVar)
  | resume (frame : FrameId)

namespace TaskStore

variable {ε : Type u} {α : Type v}

def setVar (store : TaskStore ε α) (var : TaskVar)
    (contents : Option (Option FrameId)) : TaskStore ε α :=
  { store with vars := Function.update store.vars var contents }

def touch (store : TaskStore ε α) (frame : FrameId)
    (kind : FrameAccess) : TaskStore ε α :=
  match store.frames.cell frame with
  | none => { store with fault := some (kind, frame) }
  | some contents =>
      if contents.state = .destroyed then
        { store with fault := some (kind, frame) }
      else store

def destroyFrame (store : TaskStore ε α) (frame : FrameId) :
    TaskStore ε α :=
  let touched := store.touch frame .destroy
  match store.frames.cell frame with
  | none => touched
  | some contents =>
      { touched with frames := store.frames.put frame contents.destroy }

def dropHandle (store : TaskStore ε α) : Option FrameId → TaskStore ε α
  | none => store
  | some frame => store.destroyFrame frame

def queueIfSuspended (store : TaskStore ε α) (frame : FrameId)
    (contents : TaskFrame ε α) : TaskStore ε α :=
  { store with
    frames := store.frames.put frame contents
    pending :=
      if contents.state = .suspended then store.pending ++ [frame]
      else store.pending }

/-- `operator co_await` on a task that holds a handle: `await_ready` asks
`done()`, a false answer suspends the caller without recording it, a true one
goes on to the promise. -/
def awaitHandle (store : TaskStore ε α) (frame : FrameId) : TaskStore ε α :=
  let asked := store.touch frame .done
  match store.frames.cell frame with
  | none => asked
  | some contents =>
      if contents.state.done then asked.touch frame .promise else asked

/-- `done()` and `get()` answer for an empty task without any frame. -/
def touchHandle (store : TaskStore ε α) (handle : Option FrameId)
    (kind : FrameAccess) : TaskStore ε α :=
  match handle with
  | none => store
  | some frame => store.touch frame kind

/-- The event loop dispatches the completion a coroutine waits for: it asks
`done()` and resumes. -/
def resumeFrame (store : TaskStore ε α) (frame : FrameId) : TaskStore ε α :=
  let taken := { store with pending := store.pending.erase frame }
  match store.frames.cell frame with
  | none => taken.touch frame .done
  | some contents =>
      if contents.state = .destroyed then taken.touch frame .done
      else taken.queueIfSuspended frame contents.resume

def perform (store : TaskStore ε α) :
    TaskOp ε α → Option (TaskStore ε α)
  | .create var suspensions outcome =>
      if store.vars var = none then
        let frame := store.frames.next
        some ((store.queueIfSuspended frame
          (.start suspensions outcome)).setVar var (some (some frame)))
      else none
  | .defaultConstruct var =>
      if store.vars var = none then some (store.setVar var (some none))
      else none
  | .moveConstruct var other =>
      if store.vars var = none then
        (store.vars other).map fun handle =>
          (store.setVar other (some none)).setVar var (some handle)
      else none
  | .moveAssign var other =>
      (store.vars var).bind fun old =>
        (store.vars other).map fun handle =>
          if var = other then store
          else ((store.dropHandle old).setVar other (some none)).setVar var
            (some handle)
  | .done var =>
      (store.vars var).map fun handle => store.touchHandle handle .done
  | .get var =>
      (store.vars var).map fun handle => store.touchHandle handle .promise
  | .coAwait var =>
      (store.vars var).bind fun handle => handle.map store.awaitHandle
  | .spawn var parameter =>
      if store.vars parameter = none then
        (store.vars var).bind fun handle => handle.map fun frame =>
          ((store.setVar var (some none)).setVar parameter
            (some (some frame))).awaitHandle frame
      else none
  | .destruct var =>
      (store.vars var).map fun handle =>
        (store.dropHandle handle).setVar var none
  | .resume frame =>
      if frame ∈ store.pending then some (store.resumeFrame frame) else none

/-- Nothing happens after an access to a destroyed frame. -/
def step (store : TaskStore ε α) (op : TaskOp ε α) :
    Option (TaskStore ε α) :=
  if store.fault = none then store.perform op else none

end TaskStore

end CoUring
