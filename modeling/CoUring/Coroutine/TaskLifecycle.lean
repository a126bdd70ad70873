import CoUring.Coroutine.Task
import Mathlib.Data.List.Nodup

namespace CoUring

open Foundation

universe u v

variable {ε : Type u} {α : Type v}

namespace TaskStore

def Holds (store : TaskStore ε α) (var : TaskVar) (frame : FrameId) : Prop :=
  store.vars var = some (some frame)

def Held (store : TaskStore ε α) (frame : FrameId) : Prop :=
  ∃ var, store.Holds var frame

/-- The frame's body still has an await of its own to come back from. -/
def Unfinished (store : TaskStore ε α) (frame : FrameId) : Prop :=
  ∃ contents, store.frames.cell frame = some contents ∧ contents.Unfinished

/-- No destroyed frame was accessed and no frame was destroyed twice. -/
def Sound (store : TaskStore ε α) : Prop :=
  store.fault = none ∧
    ∀ frame contents, store.frames.cell frame = some contents →
      contents.destroys ≤ 1

/-- The task named by a variable, if it holds a handle, holds that of a body
that has not ended. -/
def HandleUnfinished (store : TaskStore ε α) (var : TaskVar) : Prop :=
  ∀ frame, store.Holds var frame → store.Unfinished frame

/-- When an operation uses a handle its body has not ended, and when the event
loop resumes a coroutine its task is still there. -/
def StepSafe (store : TaskStore ε α) : TaskOp ε α → Prop
  | .create _ _ _ => True
  | .defaultConstruct _ => True
  | .moveConstruct _ _ => True
  | .moveAssign var other => var ≠ other → store.HandleUnfinished var
  | .done var => store.HandleUnfinished var
  | .get var => store.HandleUnfinished var
  | .coAwait var => store.HandleUnfinished var
  | .spawn var _ => store.HandleUnfinished var
  | .destruct var => store.HandleUnfinished var
  | .resume frame => store.Held frame

/-- A frame exists, suspended, exactly while its body has not ended and some
task holds it; afterwards it has been destroyed once. -/
inductive FrameStatus (store : TaskStore ε α) (frame : FrameId)
    (contents : TaskFrame ε α) : Prop
  | alive (unfinished : contents.Unfinished) (held : store.Held frame)
      (state : contents.state = .suspended) (destroys : contents.destroys = 0)
  | gone (unheld : contents.Unfinished → ¬ store.Held frame)
      (state : contents.state = .destroyed) (destroys : contents.destroys = 1)

/-- What holds as long as no destroyed frame has been accessed. -/
structure Ownership (store : TaskStore ε α) : Prop where
  linear : ∀ first second frame, store.Holds first frame →
    store.Holds second frame → first = second
  allocated : ∀ var frame, store.Holds var frame →
    ∃ contents, store.frames.cell frame = some contents
  status : ∀ frame contents, store.frames.cell frame = some contents →
    FrameStatus store frame contents
  pending_nodup : store.pending.Nodup
  pending_unfinished : ∀ frame ∈ store.pending, store.Unfinished frame

def lifecycle : TransitionSystem (TaskStore ε α) (TaskOp ε α) :=
  .ofFunction (fun store => store = {}) step

variable {store : TaskStore ε α} {frame : FrameId} {var other : TaskVar}

/-! Variables. -/

theorem holds_setVar_self (contents : Option (Option FrameId)) :
    (store.setVar var contents).Holds var frame ↔
      contents = some (some frame) := by
  simp [Holds, setVar]

theorem holds_setVar_other (contents : Option (Option FrameId))
    (different : other ≠ var) :
    (store.setVar var contents).Holds other frame ↔
      store.Holds other frame := by
  simp [Holds, setVar, different]

theorem not_holds_of_absent (absent : store.vars var = none)
    (frame : FrameId) : ¬ store.Holds var frame := by
  intro holds
  rw [Holds, absent] at holds
  cases holds

theorem not_holds_of_empty (empty : store.vars var = some none)
    (frame : FrameId) : ¬ store.Holds var frame := by
  intro holds
  rw [Holds, empty] at holds
  cases holds

theorem FrameStatus.congr {next : TaskStore ε α} {contents : TaskFrame ε α}
    (status : FrameStatus store frame contents)
    (held : next.Held frame ↔ store.Held frame) :
    FrameStatus next frame contents := by
  cases status with
  | alive unfinished holding state destroys =>
      exact .alive unfinished (held.mpr holding) state destroys
  | gone unheld state destroys =>
      exact .gone (fun unfinished holding =>
        unheld unfinished (held.mp holding)) state destroys

theorem Ownership.of_same_held (owned : Ownership store)
    {next : TaskStore ε α} (frames : next.frames = store.frames)
    (pending : next.pending = store.pending)
    (held : ∀ frame, next.Held frame ↔ store.Held frame)
    (linear : ∀ first second frame, next.Holds first frame →
      next.Holds second frame → first = second) : Ownership next where
  linear := linear
  allocated := fun var frame holds => by
    obtain ⟨owner, holding⟩ := (held frame).mp ⟨var, holds⟩
    rw [frames]
    exact owned.allocated owner frame holding
  status := fun frame contents stored => by
    rw [frames] at stored
    exact (owned.status frame contents stored).congr (held frame)
  pending_nodup := pending ▸ owned.pending_nodup
  pending_unfinished := fun frame member => by
    rw [pending] at member
    simp only [Unfinished, frames]
    exact owned.pending_unfinished frame member

theorem Ownership.put (owned : Ownership store) {next : TaskStore ε α}
    {contents : TaskFrame ε α}
    (frames : next.frames = store.frames.put frame contents)
    (linear : ∀ first second other, next.Holds first other →
      next.Holds second other → first = second)
    (held : ∀ other, other ≠ frame → (next.Held other ↔ store.Held other))
    (status : FrameStatus next frame contents)
    (nodup : next.pending.Nodup)
    (earlier : ∀ other ∈ next.pending, other ≠ frame →
      other ∈ store.pending)
    (unfinished : frame ∈ next.pending → contents.Unfinished) :
    Ownership next := by
  refine ⟨linear, ?_, ?_, nodup, ?_⟩
  · intro owner other holding
    rw [frames]
    by_cases same : other = frame
    · subst same
      exact ⟨_, Heap.cell_put_self _ _ _⟩
    · obtain ⟨before, beforeHolds⟩ := (held other same).mp ⟨owner, holding⟩
      rw [Heap.cell_put_other _ _ same]
      exact owned.allocated before other beforeHolds
  · intro other otherContents stored
    rw [frames] at stored
    rcases Heap.put_cases stored with ⟨rfl, rfl⟩ | ⟨same, stored⟩
    · exact status
    · exact (owned.status other otherContents stored).congr (held other same)
  · intro other member
    simp only [Unfinished, frames]
    by_cases same : other = frame
    · subst same
      exact ⟨contents, Heap.cell_put_self _ _ _, unfinished member⟩
    · rw [Heap.cell_put_other _ _ same]
      exact owned.pending_unfinished other (earlier other member same)

theorem Ownership.setVar_unheld (owned : Ownership store)
    (unheld : ∀ frame, ¬ store.Holds var frame)
    {contents : Option (Option FrameId)}
    (empty : ∀ frame, contents ≠ some (some frame)) :
    Ownership (store.setVar var contents) := by
  have holds : ∀ owner frame,
      (store.setVar var contents).Holds owner frame ↔
        store.Holds owner frame := by
    intro owner frame
    by_cases same : owner = var
    · subst same
      rw [holds_setVar_self]
      exact iff_of_false (empty frame) (unheld frame)
    · exact holds_setVar_other _ same
  refine owned.of_same_held rfl rfl ?_ ?_
  · intro frame
    simp only [Held, holds]
  · intro first second frame firstHolds secondHolds
    exact owned.linear _ _ frame ((holds _ _).mp firstHolds)
      ((holds _ _).mp secondHolds)

theorem Ownership.moveHandle (owned : Ownership store)
    (free : ∀ frame, ¬ store.Holds var frame)
    {handle : Option FrameId} (source : store.vars other = some handle)
    (different : var ≠ other) :
    Ownership ((store.setVar other (some none)).setVar var
      (some handle)) := by
  have holds : ∀ owner frame,
      ((store.setVar other (some none)).setVar var
        (some handle)).Holds owner frame ↔
      (owner = var ∧ store.Holds other frame) ∨
        (owner ≠ var ∧ owner ≠ other ∧ store.Holds owner frame) := by
    intro owner frame
    by_cases target : owner = var
    · subst target
      rw [holds_setVar_self]
      simp [Holds, source]
    · rw [holds_setVar_other _ target]
      by_cases origin : owner = other
      · subst origin
        rw [holds_setVar_self]
        simp [target]
      · rw [holds_setVar_other _ origin]
        simp [target, origin]
  refine owned.of_same_held rfl rfl ?_ ?_
  · intro frame
    constructor
    · rintro ⟨owner, holding⟩
      rcases (holds owner frame).mp holding with ⟨-, moved⟩ | ⟨-, -, kept⟩
      · exact ⟨other, moved⟩
      · exact ⟨owner, kept⟩
    · rintro ⟨owner, holding⟩
      by_cases origin : owner = other
      · subst origin
        exact ⟨var, (holds var frame).mpr (.inl ⟨rfl, holding⟩)⟩
      · have target : owner ≠ var := fun same =>
          free frame (same ▸ holding)
        exact ⟨owner, (holds owner frame).mpr
          (.inr ⟨target, origin, holding⟩)⟩
  · intro first second frame firstHolds secondHolds
    rcases (holds first frame).mp firstHolds with
      ⟨rfl, moved⟩ | ⟨-, notOrigin, kept⟩ <;>
    rcases (holds second frame).mp secondHolds with
      ⟨rfl, alsoMoved⟩ | ⟨-, alsoNot, alsoKept⟩
    · rfl
    · exact absurd (owned.linear _ _ frame alsoKept moved) alsoNot
    · exact absurd (owned.linear _ _ frame kept alsoMoved) notOrigin
    · exact owned.linear _ _ frame kept alsoKept

/-! Accesses. -/

theorem Ownership.unfinished_stored (owned : Ownership store)
    (holds : store.Holds var frame) (unfinished : store.Unfinished frame) :
    ∃ contents, store.frames.cell frame = some contents ∧
      contents.Unfinished ∧ contents.state = .suspended ∧
      contents.destroys = 0 := by
  obtain ⟨contents, stored, bodyUnfinished⟩ := unfinished
  refine ⟨contents, stored, bodyUnfinished, ?_⟩
  cases owned.status frame contents stored with
  | alive _ _ state destroys => exact ⟨state, destroys⟩
  | gone unheld _ _ => exact absurd ⟨var, holds⟩ (unheld bodyUnfinished)

theorem Ownership.ended_stored (owned : Ownership store)
    (holds : store.Holds var frame) (ended : ¬ store.Unfinished frame) :
    ∃ contents, store.frames.cell frame = some contents ∧
      contents.state = .destroyed := by
  obtain ⟨contents, stored⟩ := owned.allocated var frame holds
  refine ⟨contents, stored, ?_⟩
  cases owned.status frame contents stored with
  | alive unfinished _ _ _ =>
      exact absurd ⟨contents, stored, unfinished⟩ ended
  | gone _ state _ => exact state

theorem Ownership.touch_unfinished (owned : Ownership store)
    (holds : store.Holds var frame) (unfinished : store.Unfinished frame)
    (kind : FrameAccess) : store.touch frame kind = store := by
  obtain ⟨contents, stored, -, state, -⟩ :=
    owned.unfinished_stored holds unfinished
  simp [touch, stored, state]

theorem Ownership.touch_ended (owned : Ownership store)
    (holds : store.Holds var frame) (ended : ¬ store.Unfinished frame)
    (kind : FrameAccess) : (store.touch frame kind).fault ≠ none := by
  obtain ⟨contents, stored, state⟩ := owned.ended_stored holds ended
  simp [touch, stored, state]

theorem Ownership.awaitHandle_unfinished (owned : Ownership store)
    (holds : store.Holds var frame) (unfinished : store.Unfinished frame) :
    store.awaitHandle frame = store := by
  have untouched := owned.touch_unfinished holds unfinished
  obtain ⟨contents, stored, -, state, -⟩ :=
    owned.unfinished_stored holds unfinished
  simp [awaitHandle, untouched, stored, state, FrameState.done]

theorem Ownership.awaitHandle_ended (owned : Ownership store)
    (holds : store.Holds var frame) (ended : ¬ store.Unfinished frame) :
    (store.awaitHandle frame).fault ≠ none := by
  have faulted := owned.touch_ended holds ended .done
  obtain ⟨contents, stored, state⟩ := owned.ended_stored holds ended
  simpa [awaitHandle, stored, state, FrameState.done] using faulted

/-! Dropping a handle. -/

theorem Ownership.destroyFrame_ended (owned : Ownership store)
    (holds : store.Holds var frame) (ended : ¬ store.Unfinished frame) :
    (store.destroyFrame frame).fault ≠ none := by
  have faulted := owned.touch_ended holds ended .destroy
  obtain ⟨contents, stored⟩ := owned.allocated var frame holds
  simpa [destroyFrame, stored] using faulted

theorem Ownership.destroyFrame_unfinished (owned : Ownership store)
    (healthy : store.fault = none)
    (holds : store.Holds var frame) (unfinished : store.Unfinished frame) :
    ((store.destroyFrame frame).setVar var none).fault = none ∧
      Ownership ((store.destroyFrame frame).setVar var none) := by
  have untouched := owned.touch_unfinished holds unfinished .destroy
  obtain ⟨contents, stored, bodyUnfinished, state, destroys⟩ :=
    owned.unfinished_stored holds unfinished
  have destroyed : store.destroyFrame frame =
      { store with frames := store.frames.put frame contents.destroy } := by
    simp [destroyFrame, stored, untouched]
  rw [destroyed]
  refine ⟨healthy, ?_⟩
  have holdsAfter : ∀ owner other,
      (({ store with
          frames := store.frames.put frame contents.destroy } :
          TaskStore ε α).setVar var none).Holds owner other ↔
        owner ≠ var ∧ store.Holds owner other := by
    intro owner other
    by_cases same : owner = var
    · subst same
      simp [holds_setVar_self]
    · rw [holds_setVar_other _ same]
      simp [Holds, same]
  have heldAfter : ∀ other,
      (({ store with
          frames := store.frames.put frame contents.destroy } :
          TaskStore ε α).setVar var none).Held other ↔
        other ≠ frame ∧ store.Held other := by
    intro other
    constructor
    · rintro ⟨owner, holding⟩
      obtain ⟨different, kept⟩ := (holdsAfter owner other).mp holding
      refine ⟨?_, owner, kept⟩
      rintro rfl
      exact different (owned.linear _ _ _ kept holds)
    · rintro ⟨different, owner, kept⟩
      refine ⟨owner, (holdsAfter owner other).mpr ⟨?_, kept⟩⟩
      rintro rfl
      exact different (Option.some.inj (Option.some.inj
        (kept.symm.trans holds)))
  apply owned.put rfl
  · intro first second other firstHolds secondHolds
    exact owned.linear _ _ _ ((holdsAfter _ _).mp firstHolds).2
      ((holdsAfter _ _).mp secondHolds).2
  · intro other different
    exact (heldAfter other).trans (and_iff_right different)
  · exact .gone (fun _ holding => ((heldAfter _).mp holding).1 rfl) rfl
      (by simp [destroys])
  · exact owned.pending_nodup
  · exact fun other member _ => member
  · exact fun _ => bodyUnfinished

/-! Running a frame. -/

/-- Storing a frame that has just run: a new one with its first task, or a
resumed one that keeps its task. -/
theorem Ownership.queueIfSuspended (owned : Ownership store)
    {next : TaskStore ε α} {ran : TaskFrame ε α}
    (result : next = { store.queueIfSuspended frame ran with
      vars := next.vars })
    (ranWell : (ran.Unfinished ∧ ran.state = .suspended ∧ ran.destroys = 0) ∨
      (¬ ran.Unfinished ∧ ran.state = .destroyed ∧ ran.destroys = 1))
    (notPending : frame ∉ store.pending)
    (linear : ∀ first second other, next.Holds first other →
      next.Holds second other → first = second)
    (holder : next.Held frame)
    (held : ∀ other, other ≠ frame → (next.Held other ↔ store.Held other)) :
    Ownership next := by
  have pending : next.pending =
      if ran.state = .suspended then store.pending ++ [frame]
      else store.pending := by
    rw [result]
    rfl
  have frames : next.frames = store.frames.put frame ran := by
    rw [result]
    rfl
  apply owned.put frames linear held
  · rcases ranWell with ⟨unfinished, state, destroys⟩ |
      ⟨ended, state, destroys⟩
    · exact .alive unfinished holder state destroys
    · exact .gone (fun unfinished => absurd unfinished ended) state destroys
  · rw [pending]
    split
    · rw [← List.concat_eq_append]
      exact owned.pending_nodup.concat notPending
    · exact owned.pending_nodup
  · intro other member different
    rw [pending] at member
    split at member
    · rcases List.mem_append.mp member with earlier | single
      · exact earlier
      · exact absurd (List.mem_singleton.mp single) different
    · exact member
  · intro member
    rcases ranWell with ⟨unfinished, -, -⟩ | ⟨-, state, -⟩
    · exact unfinished
    · rw [pending, if_neg (by rw [state]; decide)] at member
      exact absurd member notPending

theorem TaskFrame.run_well (frame : TaskFrame ε α)
    (alive : frame.destroys = 0) :
    (frame.run.Unfinished ∧ frame.run.state = .suspended ∧
      frame.run.destroys = 0) ∨
    (¬ frame.run.Unfinished ∧ frame.run.state = .destroyed ∧
      frame.run.destroys = 1) := by
  have same : frame.run.Unfinished ↔ frame.Unfinished := by
    simp [TaskFrame.Unfinished]
  by_cases unfinished : frame.Unfinished
  · obtain ⟨state, destroys⟩ := TaskFrame.run_unfinished unfinished
    exact .inl ⟨same.mpr unfinished, state, destroys.trans alive⟩
  · obtain ⟨state, destroys⟩ := TaskFrame.run_finished unfinished
    exact .inr ⟨fun after => unfinished (same.mp after), state,
      by rw [destroys, alive]⟩

theorem Ownership.next_not_pending (owned : Ownership store) :
    store.frames.next ∉ store.pending := by
  intro member
  obtain ⟨contents, stored, -⟩ := owned.pending_unfinished _ member
  rw [Heap.cell_next] at stored
  cases stored

theorem Ownership.create (owned : Ownership store)
    (absent : store.vars var = none) (suspensions : Nat)
    (outcome : Outcome ε α) :
    Ownership ((store.queueIfSuspended store.frames.next
      (.start suspensions outcome)).setVar var
        (some (some store.frames.next))) := by
  have unheld : ∀ owner, ¬ store.Holds owner store.frames.next := by
    intro owner holds
    obtain ⟨contents, stored⟩ := owned.allocated owner _ holds
    rw [Heap.cell_next] at stored
    cases stored
  have holds : ∀ owner other,
      ((store.queueIfSuspended store.frames.next
        (.start suspensions outcome)).setVar var
          (some (some store.frames.next))).Holds owner other ↔
        (owner = var ∧ other = store.frames.next) ∨
          (owner ≠ var ∧ store.Holds owner other) := by
    intro owner other
    by_cases same : owner = var
    · subst same
      rw [holds_setVar_self]
      simp [eq_comm]
    · rw [holds_setVar_other _ same]
      simp only [same, false_and, ne_eq, not_false_eq_true, true_and,
        false_or]
      exact Iff.rfl
  apply owned.queueIfSuspended rfl
  · exact TaskFrame.run_well _ rfl
  · exact owned.next_not_pending
  · intro first second other firstHolds secondHolds
    rcases (holds first other).mp firstHolds with
      ⟨rfl, new⟩ | ⟨-, kept⟩ <;>
    rcases (holds second other).mp secondHolds with
      ⟨rfl, alsoNew⟩ | ⟨-, alsoKept⟩
    · rfl
    · exact absurd (new ▸ alsoKept) (unheld second)
    · exact absurd (alsoNew ▸ kept) (unheld first)
    · exact owned.linear _ _ other kept alsoKept
  · exact ⟨var, (holds var _).mpr (.inl ⟨rfl, rfl⟩)⟩
  · intro other different
    constructor
    · rintro ⟨owner, holding⟩
      rcases (holds owner other).mp holding with ⟨-, same⟩ | ⟨-, kept⟩
      · exact absurd same different
      · exact ⟨owner, kept⟩
    · rintro ⟨owner, holding⟩
      refine ⟨owner, (holds owner other).mpr (.inr ⟨?_, holding⟩)⟩
      rintro rfl
      rw [Holds, absent] at holding
      cases holding

theorem Ownership.erasePending (owned : Ownership store) (frame : FrameId) :
    Ownership { store with pending := store.pending.erase frame } where
  linear := owned.linear
  allocated := owned.allocated
  status := fun other contents stored =>
    (owned.status other contents stored).congr Iff.rfl
  pending_nodup := owned.pending_nodup.erase frame
  pending_unfinished := fun other member =>
    owned.pending_unfinished other (List.mem_of_mem_erase member)

/-! What one operation does, to a store that is still healthy. -/

/-- A safe operation keeps the store healthy and owned; any other one reaches
a destroyed frame. -/
def Handles (store : TaskStore ε α) (op : TaskOp ε α)
    (next : TaskStore ε α) : Prop :=
  (store.StepSafe op ∧ next.fault = none ∧ Ownership next) ∨
    (¬ store.StepSafe op ∧ next.fault ≠ none)

variable {op : TaskOp ε α} {next : TaskStore ε α}

theorem HandleUnfinished.of_empty
    (empty : store.vars var = some none) : store.HandleUnfinished var :=
  fun frame holds => absurd holds (not_holds_of_empty empty frame)

theorem HandleUnfinished.iff_of_holds (holds : store.Holds var frame) :
    store.HandleUnfinished var ↔ store.Unfinished frame := by
  constructor
  · intro unfinished
    exact unfinished frame holds
  · intro unfinished other otherHolds
    have same : other = frame := Option.some.inj (Option.some.inj
      (otherHolds.symm.trans holds))
    exact same ▸ unfinished

theorem Ownership.touch (owned : Ownership store)
    (healthy : store.fault = none) (holds : store.Holds var frame)
    (kind : FrameAccess) (safe : store.StepSafe op ↔ store.Unfinished frame) :
    Handles store op (store.touch frame kind) := by
  by_cases unfinished : store.Unfinished frame
  · rw [owned.touch_unfinished holds unfinished]
    exact .inl ⟨safe.mpr unfinished, healthy, owned⟩
  · exact .inr ⟨fun allowed => unfinished (safe.mp allowed),
      owned.touch_ended holds unfinished kind⟩

theorem Ownership.awaitHandle (owned : Ownership store)
    (healthy : store.fault = none) (holds : store.Holds var frame)
    (safe : next.StepSafe op ↔ store.Unfinished frame) :
    Handles next op (store.awaitHandle frame) := by
  by_cases unfinished : store.Unfinished frame
  · rw [owned.awaitHandle_unfinished holds unfinished]
    exact .inl ⟨safe.mpr unfinished, healthy, owned⟩
  · exact .inr ⟨fun allowed => unfinished (safe.mp allowed),
      owned.awaitHandle_ended holds unfinished⟩

theorem Ownership.moveAssign (owned : Ownership store)
    (healthy : store.fault = none) {old handle : Option FrameId}
    (target : store.vars var = some old)
    (source : store.vars other = some handle) (different : var ≠ other) :
    Handles store (.moveAssign var other)
      (((store.dropHandle old).setVar other (some none)).setVar var
        (some handle)) := by
  cases old with
  | none =>
      refine .inl ⟨fun _ => .of_empty target, healthy, ?_⟩
      exact owned.moveHandle (not_holds_of_empty target) source different
  | some frame =>
      have safe : store.StepSafe (.moveAssign var other) ↔
          store.Unfinished frame := by
        rw [← HandleUnfinished.iff_of_holds target]
        exact ⟨fun allowed => allowed different, fun allowed _ => allowed⟩
      by_cases unfinished : store.Unfinished frame
      · obtain ⟨healthyAfter, ownedAfter⟩ :=
          owned.destroyFrame_unfinished healthy target unfinished
        refine .inl ⟨safe.mpr unfinished, healthyAfter, ?_⟩
        have sourceAfter :
            ((store.destroyFrame frame).setVar var none).vars other =
              some handle := by
          have vars : (store.destroyFrame frame).vars = store.vars := by
            obtain ⟨contents, stored, -⟩ := id unfinished
            simp only [destroyFrame, stored]
            rw [owned.touch_unfinished target unfinished]
          simp [setVar, Function.update_of_ne different.symm, vars, source]
        have moved := ownedAfter.moveHandle
          (fun frame => by simp [holds_setVar_self]) sourceAfter different
        have same : (((store.destroyFrame frame).setVar var none).setVar other
              (some none)).setVar var (some handle) =
            ((store.destroyFrame frame).setVar other (some none)).setVar var
              (some handle) := by
          simp only [setVar]
          congr 1
          funext name
          simp only [Function.update_apply]
          split <;> rfl
        rw [same] at moved
        exact moved
      · exact .inr ⟨fun allowed => unfinished (safe.mp allowed),
          owned.destroyFrame_ended target unfinished⟩

theorem Ownership.destruct (owned : Ownership store)
    (healthy : store.fault = none) {handle : Option FrameId}
    (target : store.vars var = some handle) :
    Handles store (.destruct var) ((store.dropHandle handle).setVar var
      none) := by
  cases handle with
  | none =>
      refine .inl ⟨.of_empty target, healthy, ?_⟩
      exact owned.setVar_unheld (not_holds_of_empty target) nofun
  | some frame =>
      by_cases unfinished : store.Unfinished frame
      · obtain ⟨healthyAfter, ownedAfter⟩ :=
          owned.destroyFrame_unfinished healthy target unfinished
        exact .inl ⟨(HandleUnfinished.iff_of_holds target).mpr unfinished,
          healthyAfter, ownedAfter⟩
      · exact .inr ⟨fun allowed => unfinished
          ((HandleUnfinished.iff_of_holds target).mp allowed),
          owned.destroyFrame_ended target unfinished⟩

theorem Ownership.touchHandle (owned : Ownership store)
    (healthy : store.fault = none) {handle : Option FrameId}
    (target : store.vars var = some handle) (kind : FrameAccess)
    (safe : store.StepSafe op ↔ store.HandleUnfinished var) :
    Handles store op (store.touchHandle handle kind) := by
  cases handle with
  | none => exact .inl ⟨safe.mpr (.of_empty target), healthy, owned⟩
  | some frame =>
      exact owned.touch healthy target kind
        (safe.trans (HandleUnfinished.iff_of_holds target))

/-- The event loop finds the coroutine it resumes just when a task holds it:
one whose body ended has no request under way. -/
theorem Ownership.resumeFrame (owned : Ownership store)
    (healthy : store.fault = none) (pending : frame ∈ store.pending) :
    Handles store (.resume frame) (store.resumeFrame frame) := by
  obtain ⟨contents, stored, unfinished⟩ :=
    owned.pending_unfinished frame pending
  cases owned.status frame contents stored with
  | gone unheld state destroys =>
      refine .inr ⟨unheld unfinished, ?_⟩
      simp [TaskStore.resumeFrame, TaskStore.touch, stored, state]
  | alive _ held state destroys =>
      have resumed : store.resumeFrame frame =
          { store with pending := store.pending.erase frame }.queueIfSuspended
            frame contents.resume := by
        simp [TaskStore.resumeFrame, stored, state]
      rw [resumed]
      refine .inl ⟨held, healthy, ?_⟩
      apply (owned.erasePending frame).queueIfSuspended rfl
      · exact TaskFrame.run_well _ destroys
      · exact owned.pending_nodup.not_mem_erase
      · exact owned.linear
      · exact held
      · exact fun other _ => Iff.rfl

theorem Ownership.step (owned : Ownership store)
    (stepped : store.step op = some next) : Handles store op next := by
  obtain ⟨healthy, performed⟩ :=
    Option.ite_none_right_eq_some.mp stepped
  cases op with
  | create var suspensions outcome =>
      obtain ⟨absent, result⟩ := Option.ite_none_right_eq_some.mp performed
      obtain rfl := Option.some.inj result
      exact .inl ⟨trivial, healthy, owned.create absent _ _⟩
  | defaultConstruct var =>
      obtain ⟨absent, result⟩ := Option.ite_none_right_eq_some.mp performed
      obtain rfl := Option.some.inj result
      exact .inl ⟨trivial, healthy, owned.setVar_unheld
        (not_holds_of_absent absent) nofun⟩
  | moveConstruct var other =>
      obtain ⟨absent, result⟩ := Option.ite_none_right_eq_some.mp performed
      obtain ⟨handle, source, rfl⟩ := Option.map_eq_some_iff.mp result
      have different : var ≠ other := by
        rintro rfl
        rw [absent] at source
        cases source
      exact .inl ⟨trivial, healthy,
        owned.moveHandle (not_holds_of_absent absent) source different⟩
  | moveAssign var other =>
      obtain ⟨old, target, result⟩ := Option.bind_eq_some_iff.mp performed
      obtain ⟨handle, source, rfl⟩ := Option.map_eq_some_iff.mp result
      by_cases same : var = other
      · rw [if_pos same]
        exact .inl ⟨fun different => absurd same different, healthy, owned⟩
      · rw [if_neg same]
        exact owned.moveAssign healthy target source same
  | done var =>
      obtain ⟨handle, target, rfl⟩ := Option.map_eq_some_iff.mp performed
      exact owned.touchHandle healthy target .done Iff.rfl
  | get var =>
      obtain ⟨handle, target, rfl⟩ := Option.map_eq_some_iff.mp performed
      exact owned.touchHandle healthy target .promise Iff.rfl
  | coAwait var =>
      obtain ⟨handle, target, result⟩ := Option.bind_eq_some_iff.mp performed
      obtain ⟨frame, rfl, rfl⟩ := Option.map_eq_some_iff.mp result
      exact owned.awaitHandle healthy target
        (HandleUnfinished.iff_of_holds target)
  | spawn var parameter =>
      obtain ⟨absent, result⟩ := Option.ite_none_right_eq_some.mp performed
      obtain ⟨handle, target, awaited⟩ := Option.bind_eq_some_iff.mp result
      obtain ⟨frame, rfl, rfl⟩ := Option.map_eq_some_iff.mp awaited
      have different : parameter ≠ var := by
        rintro rfl
        rw [absent] at target
        cases target
      have moved :=
        owned.moveHandle (not_holds_of_absent absent) target different
      exact moved.awaitHandle healthy ((holds_setVar_self _).mpr rfl)
        (HandleUnfinished.iff_of_holds target)
  | destruct var =>
      obtain ⟨handle, target, rfl⟩ := Option.map_eq_some_iff.mp performed
      exact owned.destruct healthy target
  | resume frame =>
      obtain ⟨pending, result⟩ := Option.ite_none_right_eq_some.mp performed
      obtain rfl := Option.some.inj result
      exact owned.resumeFrame healthy pending

/-! Whole runs. -/

theorem ownership_init : Ownership ({} : TaskStore ε α) where
  linear := fun _ _ _ holds => by cases holds
  allocated := fun _ _ holds => by cases holds
  status := fun _ _ stored => by cases stored
  pending_nodup := List.nodup_nil
  pending_unfinished := fun _ member => by cases member

theorem Ownership.sound (owned : Ownership store)
    (healthy : store.fault = none) : store.Sound := by
  refine ⟨healthy, fun frame contents stored => ?_⟩
  cases owned.status frame contents stored with
  | alive _ _ _ destroys => omega
  | gone _ _ destroys => omega

theorem ownership_of_reachable
    (reachable : lifecycle.Reachable store) :
    store.fault = none → Ownership store := by
  refine TransitionSystem.Invariant.of_reachable
    (fun store => store.fault = none → Ownership store) ?_ ?_ store reachable
  · rintro _ rfl _
    exact ownership_init
  · intro state op next _ owned stepped healthy
    have healthyBefore := (Option.ite_none_right_eq_some.mp stepped).1
    rcases (owned healthyBefore).step stepped with
      ⟨-, -, ownedAfter⟩ | ⟨-, faulted⟩
    · exact ownedAfter
    · exact absurd healthy faulted

/-- A run never touches or destroys a destroyed frame just when all its steps
are safe. -/
theorem lifecycle_sound_iff_steps_safe {first last : TaskStore ε α}
    {history : List (TaskStore ε α × TaskOp ε α)}
    (start : lifecycle.initial first)
    (run : lifecycle.Execution first history last) :
    (∀ state ∈ TransitionSystem.visited history last, state.Sound) ↔
      ∀ taken ∈ history, taken.1.StepSafe taken.2 := by
  refine run.good_iff_guarded ?_ ?_ start
  · rintro _ rfl
    exact ownership_init.sound rfl
  · intro state op next reachable sound stepped
    have owned := ownership_of_reachable reachable sound.1
    rcases owned.step stepped with
      ⟨safe, healthy, ownedAfter⟩ | ⟨notSafe, faulted⟩
    · exact iff_of_true (ownedAfter.sound healthy) safe
    · exact iff_of_false (fun after => faulted after.1) notSafe

/-- A body that never suspends has destroyed its frame before its task goes
out of scope. -/
theorem unsuspended_body_destroyed_twice :
    ∃ last : TaskStore Unit Unit,
      lifecycle.Execution {}
        (TransitionSystem.traceLabels step {}
          [.create 0 0 (.value ()), .destruct 0]) last ∧
      (last.frames.cell 0).map TaskFrame.destroys = some 2 ∧
      ¬ last.Sound := by
  refine ⟨_, TransitionSystem.Execution.runLabels rfl, rfl, ?_⟩
  intro sound
  exact absurd (sound.2 0 _ rfl) (by decide)

/-- A body that waits for one completion, awaited and resumed. -/
def awaitedBody : List (TaskOp Unit Unit) :=
  [.create 0 1 (.value ()), .coAwait 0, .resume 0]

theorem awaited_body_sound :
    ∃ last : TaskStore Unit Unit,
      TransitionSystem.runLabels step {} awaitedBody = some last ∧
      ∀ state ∈ TransitionSystem.visited
        (TransitionSystem.traceLabels step {} awaitedBody) last,
        state.Sound := by
  refine ⟨_, rfl, (lifecycle_sound_iff_steps_safe rfl
    (TransitionSystem.Execution.runLabels rfl)).mpr ?_⟩
  intro taken inHistory
  change taken ∈ [(_, _), (_, _), (_, _)] at inHistory
  simp only [List.mem_cons, List.not_mem_nil, or_false] at inHistory
  rcases inHistory with rfl | rfl | rfl
  · trivial
  · intro frame holds
    obtain rfl : 0 = frame := Option.some.inj (Option.some.inj holds)
    exact ⟨_, rfl, Nat.zero_lt_one⟩
  · exact ⟨0, rfl⟩

end TaskStore

end CoUring
