import CoUring.Coroutine.Task

namespace CoUring

universe u v

/-- A coroutine that waits for completions of its own, or one that calls
another, awaits the task it gets and goes on with what the await yields. -/
inductive Routine (ε : Type u) (α : Type v)
  | io (suspensions : Nat) (outcome : Outcome ε α)
  | awaits (callee : Routine ε α)
      (after : Outcome ε (Option α) → Outcome ε α)

inductive Progress (ε : Type u) (α : Type v)
  | atAwait
  /-- `await_ready` asked a destroyed frame. -/
  | undefinedAccess
  | continued (frame : TaskFrame ε α)

inductive Activation (ε : Type u) (α : Type v)
  | io (frame : TaskFrame ε α)
  | awaits (callee : Activation ε α) (progress : Progress ε α)

/-- What can be observed of a chain; levels count from the outermost coroutine
inwards. -/
inductive ChainEvent (ε : Type u) (α : Type v)
  | completed (level : Nat) (outcome : Outcome ε α)
  | resumed (level : Nat) (outcome : Outcome ε (Option α))
  | undefinedAccess (level : Nat)
  deriving DecidableEq, Repr

variable {ε : Type u} {α : Type v}

namespace Routine

def depth : Routine ε α → Nat
  | .io _ _ => 1
  | .awaits callee _ => callee.depth + 1

def suspensions : Routine ε α → Nat
  | .io count _ => count
  | .awaits callee _ => callee.suspensions

def innermost : Routine ε α → Outcome ε α
  | .io _ outcome => outcome
  | .awaits callee _ => callee.innermost

end Routine

def TaskFrame.endEvents (frame : TaskFrame ε α) (level : Nat) :
    List (ChainEvent ε α) :=
  if frame.Unfinished then [] else [.completed level frame.outcome]

namespace Activation

def awaitReady : Activation ε α → Option Bool
  | .io frame => frame.awaitReady
  | .awaits _ .atAwait => some false
  | .awaits _ .undefinedAccess => none
  | .awaits _ (.continued frame) => frame.awaitReady

def awaitResume : Activation ε α → Outcome ε (Option α)
  | .io frame => frame.awaitResume
  | .awaits _ (.continued frame) => frame.awaitResume
  | .awaits _ .atAwait => .value none
  | .awaits _ .undefinedAccess => .value none

def start (level : Nat) : Routine ε α → Activation ε α × List (ChainEvent ε α)
  | .io suspensions outcome =>
      let frame := TaskFrame.start suspensions outcome
      (.io frame, frame.endEvents level)
  | .awaits callee after =>
      let (activation, events) := start (level + 1) callee
      match activation.awaitReady with
      | none =>
          (.awaits activation .undefinedAccess,
            events ++ [.undefinedAccess level])
      | some false =>
          -- `await_suspend` returns without keeping the caller's handle
          (.awaits activation .atAwait, events)
      | some true =>
          let outcome := activation.awaitResume
          let frame := TaskFrame.start 0 (after outcome)
          (.awaits activation (.continued frame),
            events ++ [.resumed level outcome,
              .completed level (after outcome)])

/-- The event loop dispatches the completion the innermost coroutine waits
for. Its frame knows no caller to go on with. -/
def deliver (level : Nat) :
    Activation ε α → Activation ε α × List (ChainEvent ε α)
  | .io frame =>
      if frame.Unfinished then
        (.io frame.resume, frame.resume.endEvents level)
      else (.io frame, [])
  | .awaits callee progress =>
      let (activation, events) := deliver (level + 1) callee
      (.awaits activation progress, events)

end Activation

def Routine.run (routine : Routine ε α) :
    Nat → Activation ε α × List (ChainEvent ε α)
  | 0 => Activation.start 0 routine
  | count + 1 =>
      let (activation, events) := routine.run count
      let (next, more) := activation.deliver 0
      (next, events ++ more)

def Routine.trace (routine : Routine ε α) (deliveries : Nat) :
    List (ChainEvent ε α) :=
  (routine.run deliveries).2

def Outcome.handedOn : Outcome ε α → Outcome ε (Option α)
  | .value result => .value (some result)
  | .exception error => .exception error

/-- The coroutine at `level` was resumed exactly once, with what its callee
completed with and after it did. -/
def ResumedOnceAfter (trace : List (ChainEvent ε α)) (level : Nat)
    (outcome : Outcome ε α) : Prop :=
  ∃ before after,
    trace = before ++ .resumed level outcome.handedOn :: after ∧
    .completed (level + 1) outcome ∈ before ∧
    ∀ other, .resumed level other ∉ before ∧ .resumed level other ∉ after

/-- Awaiting is transparent in a trace of a chain of `depth` coroutines. -/
structure AwaitTransparent (depth : Nat)
    (trace : List (ChainEvent ε α)) : Prop where
  resumed : ∀ level outcome, level + 1 < depth →
    .completed (level + 1) outcome ∈ trace →
    ResumedOnceAfter trace level outcome
  all_continue : ∀ outcome, .completed (depth - 1) outcome ∈ trace →
    ∀ level, level + 1 < depth → ∃ handed, .resumed level handed ∈ trace

/-! No caller ever runs again. -/

@[simp] theorem TaskFrame.start_eq_run (suspensions : Nat)
    (outcome : Outcome ε α) :
    TaskFrame.start suspensions outcome =
      TaskFrame.run
        { state := .running, outcome := outcome,
          suspensions := suspensions } := rfl

theorem TaskFrame.mem_endEvents {frame : TaskFrame ε α} {level : Nat}
    {event : ChainEvent ε α} :
    event ∈ frame.endEvents level ↔
      ¬ frame.Unfinished ∧ event = .completed level frame.outcome := by
  unfold TaskFrame.endEvents
  split <;> simp [*]

namespace Routine

theorem depth_pos (routine : Routine ε α) : 0 < routine.depth := by
  cases routine <;> simp [depth]

end Routine

namespace Activation

/-- A chain as a call leaves it: the frame of the innermost coroutine has run,
and nobody above it has gone past its await. -/
inductive Stuck : Activation ε α → Nat → Prop
  | io {before : TaskFrame ε α} : Stuck (.io before.run) 1
  | atAwait {callee : Activation ε α} {depth : Nat}
      (stuck : Stuck callee depth) :
      Stuck (.awaits callee .atAwait) (depth + 1)
  | undefinedAccess {callee : Activation ε α} {depth : Nat}
      (stuck : Stuck callee depth) :
      Stuck (.awaits callee .undefinedAccess) (depth + 1)

def innermost : Activation ε α → TaskFrame ε α
  | .io frame => frame
  | .awaits callee _ => callee.innermost

theorem Stuck.awaitReady {activation : Activation ε α} {depth : Nat}
    (stuck : Stuck activation depth) :
    activation.awaitReady ≠ some true := by
  cases stuck with
  | io =>
      rw [Activation.awaitReady, TaskFrame.awaitReady_run]
      split <;> simp
  | atAwait => simp [Activation.awaitReady]
  | undefinedAccess => simp [Activation.awaitReady]

theorem start_awaits (level : Nat) (callee : Routine ε α)
    (after : Outcome ε (Option α) → Outcome ε α)
    (stuck : Stuck (start (level + 1) callee).1 callee.depth) :
    (start level (.awaits callee after) =
        (.awaits (start (level + 1) callee).1 .atAwait,
          (start (level + 1) callee).2)) ∨
      start level (.awaits callee after) =
        (.awaits (start (level + 1) callee).1 .undefinedAccess,
          (start (level + 1) callee).2 ++ [.undefinedAccess level]) := by
  have notReady := stuck.awaitReady
  rw [start]
  generalize start (level + 1) callee = called at notReady ⊢
  obtain ⟨activation, events⟩ := called
  dsimp only at notReady ⊢
  cases ready : activation.awaitReady with
  | none => exact Or.inr rfl
  | some answer =>
      cases answer with
      | false => exact Or.inl rfl
      | true => exact absurd ready notReady

theorem start_stuck (level : Nat) (routine : Routine ε α) :
    Stuck (start level routine).1 routine.depth := by
  induction routine generalizing level with
  | io suspensions outcome => exact Stuck.io
  | awaits callee after calleeStuck =>
      rcases start_awaits level callee after (calleeStuck (level + 1)) with
        atAwait | undefined
      · rw [atAwait]
        exact (calleeStuck (level + 1)).atAwait
      · rw [undefined]
        exact (calleeStuck (level + 1)).undefinedAccess

theorem start_innermost (level : Nat) (routine : Routine ε α) :
    (start level routine).1.innermost =
      TaskFrame.start routine.suspensions routine.innermost := by
  induction routine generalizing level with
  | io suspensions outcome => rfl
  | awaits callee after calleeInnermost =>
      rcases start_awaits level callee after (start_stuck _ callee) with
        atAwait | undefined
      · rw [atAwait]
        exact calleeInnermost (level + 1)
      · rw [undefined]
        exact calleeInnermost (level + 1)

theorem not_mem_start_resumed (level : Nat) (routine : Routine ε α)
    (resumedLevel : Nat) (outcome : Outcome ε (Option α)) :
    .resumed resumedLevel outcome ∉ (start level routine).2 := by
  induction routine generalizing level with
  | io suspensions ending => simp [start, TaskFrame.mem_endEvents]
  | awaits callee after calleeSilent =>
      rcases start_awaits level callee after (start_stuck _ callee) with
        atAwait | undefined
      · rw [atAwait]
        exact calleeSilent (level + 1)
      · rw [undefined]
        simpa using calleeSilent (level + 1)

theorem mem_start_completed (level : Nat) (routine : Routine ε α)
    (ended : Nat) (outcome : Outcome ε α) :
    .completed ended outcome ∈ (start level routine).2 ↔
      ended + 1 = level + routine.depth ∧ routine.suspensions = 0 ∧
        outcome = routine.innermost := by
  induction routine generalizing level with
  | io suspensions ending =>
      rw [start]
      by_cases suspended : suspensions = 0
      · simp [TaskFrame.mem_endEvents, TaskFrame.Unfinished, Routine.depth,
          Routine.suspensions, Routine.innermost, suspended]
      · simp [TaskFrame.mem_endEvents, TaskFrame.Unfinished, Routine.depth,
          Routine.suspensions, suspended, Nat.pos_of_ne_zero suspended]
  | awaits callee after calleeCompleted =>
      have sameLevel :
          ended + 1 = level + 1 + callee.depth ↔
            ended + 1 = level + (callee.depth + 1) := by omega
      rw [Routine.depth, Routine.suspensions, Routine.innermost, ← sameLevel,
        ← calleeCompleted (level + 1)]
      rcases start_awaits level callee after (start_stuck _ callee) with
        atAwait | undefined
      · rw [atAwait]
      · rw [undefined]
        simp

/-! A completion reaches the innermost frame and no other. -/

theorem Stuck.deliver {activation : Activation ε α} {depth : Nat}
    (stuck : Stuck activation depth) (level : Nat) :
    Stuck (activation.deliver level).1 depth := by
  induction stuck generalizing level with
  | io =>
      rw [Activation.deliver]
      split
      · exact Stuck.io
      · exact Stuck.io
  | atAwait stuck delivered => exact (delivered (level + 1)).atAwait
  | undefinedAccess stuck delivered =>
      exact (delivered (level + 1)).undefinedAccess

theorem deliver_innermost (activation : Activation ε α) (level : Nat) :
    (activation.deliver level).1.innermost =
      if activation.innermost.Unfinished then activation.innermost.resume
      else activation.innermost := by
  induction activation generalizing level with
  | io frame =>
      rw [deliver, innermost]
      split <;> rfl
  | awaits callee progress delivered => exact delivered (level + 1)

theorem mem_deliver {activation : Activation ε α} {depth : Nat}
    (stuck : Stuck activation depth) (level : Nat)
    (event : ChainEvent ε α) :
    event ∈ (activation.deliver level).2 ↔
      activation.innermost.Unfinished ∧
        ∃ ended, ended + 1 = level + depth ∧
          event ∈ activation.innermost.resume.endEvents ended := by
  induction stuck generalizing level with
  | io =>
      rw [Activation.deliver, innermost]
      split
      · simp [*]
      · simp [*]
  | @atAwait callee depth stuck delivered =>
      have sameLevel : level + 1 + depth = level + (depth + 1) := by omega
      rw [← sameLevel]
      exact delivered (level + 1)
  | @undefinedAccess callee depth stuck delivered =>
      have sameLevel : level + 1 + depth = level + (depth + 1) := by omega
      rw [← sameLevel]
      exact delivered (level + 1)

end Activation

namespace Routine

theorem run_stuck (routine : Routine ε α) (deliveries : Nat) :
    (routine.run deliveries).1.Stuck routine.depth := by
  induction deliveries with
  | zero => exact Activation.start_stuck 0 routine
  | succ deliveries stuck => exact stuck.deliver 0

theorem run_innermost (routine : Routine ε α) (deliveries : Nat) :
    let frame := (routine.run deliveries).1.innermost
    frame.suspensions = routine.suspensions ∧
      frame.outcome = routine.innermost ∧
      frame.resumed = min deliveries routine.suspensions := by
  induction deliveries with
  | zero =>
      rw [run, Activation.start_innermost]
      simp
  | succ deliveries before =>
      obtain ⟨suspensions, outcome, resumed⟩ := before
      rw [run]
      dsimp only
      rw [Activation.deliver_innermost]
      split
      next unfinished =>
        have behind : min deliveries routine.suspensions <
            routine.suspensions := by
          rw [← resumed, ← suspensions]
          exact unfinished
        refine ⟨?_, ?_, ?_⟩
        · simpa [TaskFrame.resume] using suspensions
        · simpa [TaskFrame.resume] using outcome
        · simp only [TaskFrame.resume, TaskFrame.run_resumed, resumed]
          omega
      next finished =>
        have ahead : ¬ min deliveries routine.suspensions <
            routine.suspensions := by
          rw [← resumed, ← suspensions]
          exact finished
        refine ⟨suspensions, outcome, ?_⟩
        rw [resumed]
        omega

theorem not_mem_trace_resumed (routine : Routine ε α) (deliveries level : Nat)
    (outcome : Outcome ε (Option α)) :
    .resumed level outcome ∉ routine.trace deliveries := by
  induction deliveries with
  | zero => exact Activation.not_mem_start_resumed 0 routine level outcome
  | succ deliveries silent =>
      rw [trace, run]
      intro member
      rcases List.mem_append.mp member with earlier | delivered
      · exact silent earlier
      · obtain ⟨unfinished, ended, atLevel, ends⟩ :=
          (Activation.mem_deliver (routine.run_stuck deliveries) 0 _).mp
            delivered
        simp [TaskFrame.mem_endEvents] at ends

/-- Only the innermost coroutine ever completes, once it was resumed as often
as it suspends. -/
theorem mem_trace_completed (routine : Routine ε α)
    (deliveries level : Nat) (outcome : Outcome ε α) :
    .completed level outcome ∈ routine.trace deliveries ↔
      level + 1 = routine.depth ∧ routine.suspensions ≤ deliveries ∧
        outcome = routine.innermost := by
  induction deliveries with
  | zero =>
      rw [trace, run, Activation.mem_start_completed]
      simp
  | succ deliveries before =>
      obtain ⟨suspensions, outcomes, resumed⟩ :=
        routine.run_innermost deliveries
      rw [trace] at before
      rw [trace, run]
      dsimp only
      rw [List.mem_append, before,
        Activation.mem_deliver (routine.run_stuck deliveries)]
      simp only [TaskFrame.mem_endEvents, TaskFrame.Unfinished,
        TaskFrame.resume, TaskFrame.run_resumed, TaskFrame.run_suspensions,
        TaskFrame.run_outcome, suspensions, outcomes, resumed,
        ChainEvent.completed.injEq]
      constructor
      · rintro (⟨atLevel, enough, same⟩ |
          ⟨behind, ended, atLevel, ends, same, ending⟩)
        · exact ⟨atLevel, by omega, same⟩
        · exact ⟨by omega, by omega, ending⟩
      · rintro ⟨atLevel, enough, same⟩
        by_cases already : routine.suspensions ≤ deliveries
        · exact Or.inl ⟨atLevel, already, same⟩
        · exact Or.inr ⟨by omega, level, by omega, by omega, rfl, same⟩

/-- A chain is transparent as long as its innermost coroutine has not
completed; after that the caller waits for ever. -/
theorem trace_transparent_iff (routine : Routine ε α) (deliveries : Nat) :
    AwaitTransparent routine.depth (routine.trace deliveries) ↔
      routine.depth = 1 ∨ deliveries < routine.suspensions := by
  have depthPos := routine.depth_pos
  constructor
  · intro transparent
    by_contra neither
    obtain ⟨nested, enough⟩ := not_or.mp neither
    have completed : .completed (routine.depth - 1) routine.innermost ∈
        routine.trace deliveries :=
      (routine.mem_trace_completed deliveries _ _).mpr
        ⟨by omega, by omega, rfl⟩
    obtain ⟨handed, resumed⟩ :=
      transparent.all_continue _ completed 0 (by omega)
    exact routine.not_mem_trace_resumed deliveries 0 handed resumed
  · intro holds
    refine ⟨?_, ?_⟩
    · intro level outcome inner completed
      obtain ⟨atLevel, enough, same⟩ :=
        (routine.mem_trace_completed deliveries _ _).mp completed
      omega
    · intro outcome completed level inner
      obtain ⟨atLevel, enough, same⟩ :=
        (routine.mem_trace_completed deliveries _ _).mp completed
      omega

/-- A caller whose callee suspends once and then returns: the callee's
completion is dispatched, and the caller is never resumed. -/
theorem awaiting_caller_never_resumed :
    ¬ AwaitTransparent 2
      ((awaits (io 1 (.value 7)) (fun _ => .value 0) :
        Routine Empty Nat).trace 1) := by
  intro transparent
  have trace : (awaits (io 1 (.value 7)) (fun _ => .value 0) :
      Routine Empty Nat).trace 1 = [.completed 1 (.value 7)] := rfl
  rw [trace] at transparent
  obtain ⟨handed, resumed⟩ :=
    transparent.all_continue (.value 7) (by simp) 0 (by omega)
  simp at resumed

end Routine

end CoUring
