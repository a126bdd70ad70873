import CoUring.Foundation.CircularQueue
import CoUring.Foundation.Transition
import CoUring.Io.IoUring

namespace CoUring

open Foundation

universe u

/-! One pass of `eventLoop` over the completion queue. The loop walks a local
head, `io_uring_cqe_seen` advances the shared one, and the kernel may append at
any moment. -/

/-- The rest of the program as the loop uses it: the `sqe_data` objects and the
suspended coroutines they name. -/
structure SqeProgram (State : Type u) where
  coroutine : State → SqeAddr → Option FrameId
  store : State → SqeAddr → Int → Nat → State
  resume : State → FrameId → State

inductive DispatchEffect
  | stored (address : SqeAddr) (res : Int) (flags : Nat)
  | resumed (coroutine : FrameId)
  deriving DecidableEq, Repr

namespace SqeProgram

variable {State : Type u}

def dispatch (program : SqeProgram State) (state : State) (cqe : Cqe) :
    State × List DispatchEffect :=
  match cqe.userData with
  | none => (state, [])
  | some address =>
      let stored := program.store state address cqe.res cqe.flags
      match program.coroutine stored address with
      | none => (stored, [.stored address cqe.res cqe.flags])
      | some coroutine =>
          (program.resume stored coroutine,
            [.stored address cqe.res cqe.flags, .resumed coroutine])

def dispatchAll (program : SqeProgram State) (state : State) :
    List Cqe → State × List DispatchEffect
  | [] => (state, [])
  | cqe :: rest =>
      let first := program.dispatch state cqe
      let others := program.dispatchAll first.1 rest
      (others.1, first.2 ++ others.2)

variable {program : SqeProgram State} {state : State} {cqe : Cqe}

theorem dispatchAll_snoc (earlier : List Cqe) :
    program.dispatchAll state (earlier ++ [cqe]) =
      let before := program.dispatchAll state earlier
      let last := program.dispatch before.1 cqe
      (last.1, before.2 ++ last.2) := by
  induction earlier generalizing state with
  | nil => simp [dispatchAll]
  | cons first earlier induction =>
      simp [dispatchAll, induction]

theorem dispatch_null (null : cqe.userData = none) :
    program.dispatch state cqe = (state, []) := by
  simp only [dispatch, null]

theorem dispatch_carries {address : SqeAddr}
    (carries : cqe.userData = some address) :
    program.dispatch state cqe =
      let stored := program.store state address cqe.res cqe.flags
      match program.coroutine stored address with
      | none => (stored, [.stored address cqe.res cqe.flags])
      | some coroutine =>
          (program.resume stored coroutine,
            [.stored address cqe.res cqe.flags, .resumed coroutine]) := by
  simp only [dispatch, carries]

end SqeProgram

inductive PassPoint
  /-- `head != *cq.ktail` -/
  | test
  | body
  /-- The completion carries no `sqe_data`; `io_uring_cqe_seen` comes next. -/
  | unheard
  /-- Its result is stored; `io_uring_cqe_seen` comes next. -/
  | stored (address : SqeAddr)
  /-- The slot was released; what is left is to resume. -/
  | released (coroutine : Option FrameId)
  /-- The loop has ended, with the tail it saw. -/
  | left (observed : BitVec 32)
  deriving DecidableEq, Repr

/-- The log line between storing and releasing reads the slot once more. -/
def PassPoint.Reads : PassPoint → Prop
  | .body => True
  | .stored _ => True
  | _ => False

structure DispatchPass (State : Type u) where
  queue : CircularQueue Cqe 32
  head : BitVec 32
  point : PassPoint
  state : State
  /-- All completions so far, those present at the start included. -/
  posted : List Cqe
  taken : List Cqe := []
  effects : List DispatchEffect := []

inductive PassLabel
  | advance
  | post (cqe : Cqe)
  deriving DecidableEq, Repr

namespace DispatchPass

variable {State : Type u} (program : SqeProgram State) (size : RingSize 32)

def start (queue : CircularQueue Cqe 32) (state : State) :
    DispatchPass State where
  queue := queue
  head := queue.head
  point := .test
  state := state
  posted := queue.contents size

def advance (pass : DispatchPass State) : Option (DispatchPass State) :=
  match pass.point with
  | .test =>
      if pass.head = pass.queue.tail then
        some { pass with point := .left pass.queue.tail }
      else some { pass with point := .body }
  | .body =>
      let cqe := pass.queue.slots (CircularQueue.slotOf size pass.head)
      match cqe.userData with
      | none =>
          some { pass with
            point := .unheard
            taken := pass.taken ++ [cqe] }
      | some address =>
          some { pass with
            point := .stored address
            state := program.store pass.state address cqe.res cqe.flags
            taken := pass.taken ++ [cqe]
            effects := pass.effects ++
              [.stored address cqe.res cqe.flags] }
  | .unheard =>
      some { pass with
        queue := pass.queue.advance
        head := pass.head + 1
        point := .test }
  | .stored address =>
      some { pass with
        queue := pass.queue.advance
        point := .released (program.coroutine pass.state address) }
  | .released none =>
      some { pass with head := pass.head + 1, point := .test }
  | .released (some coroutine) =>
      some { pass with
        head := pass.head + 1
        point := .test
        state := program.resume pass.state coroutine
        effects := pass.effects ++ [.resumed coroutine] }
  | .left _ => none

/-- While the pass runs, the kernel appends where there is a free slot. -/
def post (pass : DispatchPass State) (cqe : Cqe) :
    Option (DispatchPass State) :=
  match pass.point with
  | .left _ => none
  | _ => (pass.queue.push size cqe).map fun queue =>
      { pass with queue := queue, posted := pass.posted ++ [cqe] }

def step (pass : DispatchPass State) :
    PassLabel → Option (DispatchPass State)
  | .advance => pass.advance program size
  | .post cqe => pass.post size cqe

/-- Passes start at any two counters no further apart than the ring is long. -/
def system : TransitionSystem (DispatchPass State) PassLabel :=
  .ofFunction (fun pass => ∃ queue state, queue.Bounded size ∧
    pass = start size queue state) (step program size)

/-! What holds at each point of the loop. -/

/-- Every completion taken so far was dealt with. -/
def Settled (origin : State) (pass : DispatchPass State) : Prop :=
  program.dispatchAll origin pass.taken = (pass.state, pass.effects)

/-- The last completion taken was stored and its coroutine not resumed yet. -/
def HalfSettled (origin : State) (pass : DispatchPass State)
    (address : SqeAddr) : Prop :=
  ∃ earlier cqe before effects, pass.taken = earlier ++ [cqe] ∧
    cqe.userData = some address ∧
    program.dispatchAll origin earlier = (before, effects) ∧
    pass.state = program.store before address cqe.res cqe.flags ∧
    pass.effects = effects ++ [.stored address cqe.res cqe.flags]

inductive Stage (origin : State) (pass : DispatchPass State) : Prop
  | test (point : pass.point = .test) (head : pass.head = pass.queue.head)
      (posted : pass.posted = pass.taken ++ pass.queue.contents size)
      (settled : Settled program origin pass)
  | body (point : pass.point = .body) (head : pass.head = pass.queue.head)
      (present : pass.queue.contents size ≠ [])
      (posted : pass.posted = pass.taken ++ pass.queue.contents size)
      (settled : Settled program origin pass)
  | unheard (point : pass.point = .unheard)
      (head : pass.head = pass.queue.head)
      (present : pass.queue.contents size ≠ [])
      (posted : pass.posted =
        pass.taken ++ (pass.queue.contents size).tail)
      (settled : Settled program origin pass)
  | stored {address : SqeAddr} (point : pass.point = .stored address)
      (head : pass.head = pass.queue.head)
      (present : pass.queue.contents size ≠ [])
      (posted : pass.posted =
        pass.taken ++ (pass.queue.contents size).tail)
      (half : HalfSettled program origin pass address)
  | released {address : SqeAddr}
      (point : pass.point =
        .released (program.coroutine pass.state address))
      (head : pass.head + 1 = pass.queue.head)
      (posted : pass.posted = pass.taken ++ pass.queue.contents size)
      (half : HalfSettled program origin pass address)
  | left {observed : BitVec 32} (point : pass.point = .left observed)
      (head : pass.queue.head = observed) (tail : pass.queue.tail = observed)
      (posted : pass.posted = pass.taken)
      (settled : Settled program origin pass)

variable {program size} {origin : State} {pass next : DispatchPass State}

theorem Settled.snoc_null (settled : Settled program origin pass) {cqe : Cqe}
    (null : cqe.userData = none) :
    program.dispatchAll origin (pass.taken ++ [cqe]) =
      (pass.state, pass.effects) := by
  rw [SqeProgram.dispatchAll_snoc, settled]
  simp [SqeProgram.dispatch_null null]

theorem HalfSettled.orphaned {address : SqeAddr}
    (half : HalfSettled program origin pass address)
    (missing : program.coroutine pass.state address = none) :
    Settled program origin pass := by
  obtain ⟨earlier, cqe, before, effects, taken, carries, done, state,
    stored⟩ := half
  rw [Settled, taken, SqeProgram.dispatchAll_snoc, done]
  rw [state] at missing
  simp [SqeProgram.dispatch_carries carries, missing, state, stored]

theorem HalfSettled.resumed {address : SqeAddr} {coroutine : FrameId}
    (half : HalfSettled program origin pass address)
    (named : program.coroutine pass.state address = some coroutine) :
    program.dispatchAll origin pass.taken =
      (program.resume pass.state coroutine,
        pass.effects ++ [.resumed coroutine]) := by
  obtain ⟨earlier, cqe, before, effects, taken, carries, done, state,
    stored⟩ := half
  rw [taken, SqeProgram.dispatchAll_snoc, done]
  rw [state] at named
  simp [SqeProgram.dispatch_carries carries, named, state, stored]

theorem contents_tail (present : pass.queue.contents size ≠ []) :
    (pass.queue.contents size).tail = pass.queue.advance.contents size := by
  rw [CircularQueue.contents_advance
    fun same => present (CircularQueue.contents_eq_nil.mpr same),
    List.tail_cons]

theorem Stage.advance (stage : Stage program size origin pass)
    (advanced : pass.advance program size = some next) :
    Stage program size origin next := by
  cases stage with
  | test point head posted settled =>
      simp only [DispatchPass.advance, point] at advanced
      split at advanced
      next same =>
        cases advanced
        have empty : pass.queue.contents size = [] :=
          CircularQueue.contents_eq_nil.mpr (head.symm.trans same)
        exact .left rfl (head.symm.trans same) rfl
          (by simpa [empty] using posted) settled
      next different =>
        cases advanced
        refine .body rfl head (fun empty => different ?_) posted settled
        exact head.trans (CircularQueue.contents_eq_nil.mp empty)
  | body point head present posted settled =>
      have first := @CircularQueue.contents_advance _ _ size pass.queue
        fun same => present (CircularQueue.contents_eq_nil.mpr same)
      rw [← head] at first
      have remaining : pass.posted = pass.taken ++
          [pass.queue.slots (CircularQueue.slotOf size pass.head)] ++
            (pass.queue.contents size).tail := by
        rw [posted, first]
        simp
      simp only [DispatchPass.advance, point] at advanced
      split at advanced
      next null =>
        cases advanced
        exact .unheard rfl head present remaining (settled.snoc_null null)
      next address carries =>
        cases advanced
        exact .stored rfl head present remaining
          ⟨pass.taken, _, pass.state, pass.effects, rfl, carries, settled,
            rfl, rfl⟩
  | unheard point head present posted settled =>
      simp only [DispatchPass.advance, point] at advanced
      cases advanced
      refine .test rfl (congrArg (· + 1) head) ?_ settled
      rw [posted, contents_tail present]
  | stored point head present posted half =>
      simp only [DispatchPass.advance, point] at advanced
      cases advanced
      refine .released rfl (congrArg (· + 1) head) ?_ half
      rw [posted, contents_tail present]
  | @released address point head posted half =>
      cases named : program.coroutine pass.state address with
      | none =>
          rw [named] at point
          simp only [DispatchPass.advance, point] at advanced
          cases advanced
          exact .test rfl head posted (half.orphaned named)
      | some coroutine =>
          rw [named] at point
          simp only [DispatchPass.advance, point] at advanced
          cases advanced
          exact .test rfl head posted (half.resumed named)
  | left point head tail posted settled =>
      simp only [DispatchPass.advance, point] at advanced
      cases advanced

theorem Stage.post (stage : Stage program size origin pass) {cqe : Cqe}
    (posted : pass.post size cqe = some next) :
    Stage program size origin next := by
  have pushed : ∃ queue, pass.queue.push size cqe = some queue ∧
      next = { pass with queue := queue, posted := pass.posted ++ [cqe] } := by
    unfold DispatchPass.post at posted
    split at posted
    · cases posted
    · obtain ⟨queue, pushed, rfl⟩ := Option.map_eq_some_iff.mp posted
      exact ⟨queue, pushed, rfl⟩
  obtain ⟨queue, pushed, rfl⟩ := pushed
  have grows := CircularQueue.push_contents pushed
  have sameHead : queue.head = pass.queue.head := by
    obtain ⟨-, rfl⟩ := CircularQueue.push_eq_some.mp pushed
    rfl
  have present : queue.contents size ≠ [] := by
    rw [grows]
    exact List.append_ne_nil_of_right_ne_nil _ (List.cons_ne_nil _ _)
  have longer : pass.posted = pass.taken ++ pass.queue.contents size →
      pass.posted ++ [cqe] = pass.taken ++ queue.contents size := by
    intro all
    rw [all, grows, List.append_assoc]
  have longerTail : pass.queue.contents size ≠ [] →
      pass.posted = pass.taken ++ (pass.queue.contents size).tail →
      pass.posted ++ [cqe] = pass.taken ++ (queue.contents size).tail := by
    intro nonempty all
    rw [all, grows, List.tail_append_of_ne_nil nonempty, List.append_assoc]
  cases stage with
  | test point head all settled =>
      exact .test point (head.trans sameHead.symm) (longer all) settled
  | body point head nonempty all settled =>
      exact .body point (head.trans sameHead.symm) present (longer all)
        settled
  | unheard point head nonempty all settled =>
      exact .unheard point (head.trans sameHead.symm) present
        (longerTail nonempty all) settled
  | stored point head nonempty all half =>
      exact .stored point (head.trans sameHead.symm) present
        (longerTail nonempty all) half
  | released point head all half =>
      exact .released point (head.trans sameHead.symm) (longer all) half
  | left point head tail all settled =>
      rw [DispatchPass.post, point] at posted
      cases posted

/-! How long the loop goes on. -/

/-- A bound for the statements the loop still executes if nothing more is
appended. -/
def remaining (size : RingSize 32) (pass : DispatchPass State) : Nat :=
  let left := (pass.queue.contents size).length
  match pass.point with
  | .test => 4 * left + 1
  | .body => 4 * left
  | .unheard => 4 * left - 1
  | .stored _ => 4 * left - 1
  | .released _ => 4 * left + 2
  | .left _ => 0

theorem Stage.advance_remaining (stage : Stage program size origin pass)
    (advanced : pass.advance program size = some next) :
    next.remaining size < pass.remaining size := by
  have shorter : pass.queue.contents size ≠ [] →
      (pass.queue.advance.contents size).length + 1 =
        (pass.queue.contents size).length := by
    intro present
    rw [← contents_tail present, List.length_tail]
    exact Nat.sub_add_cancel (List.length_pos_of_ne_nil present)
  cases stage with
  | test point head posted settled =>
      simp only [DispatchPass.advance, point] at advanced
      split at advanced
      · cases advanced
        simp only [remaining, point]
        omega
      · cases advanced
        simp only [remaining, point]
        omega
  | body point head present posted settled =>
      have positive := List.length_pos_of_ne_nil present
      simp only [DispatchPass.advance, point] at advanced
      split at advanced
      · cases advanced
        simp only [remaining, point]
        omega
      · cases advanced
        simp only [remaining, point]
        omega
  | unheard point head present posted settled =>
      have counts := shorter present
      simp only [DispatchPass.advance, point] at advanced
      cases advanced
      simp only [remaining, point]
      omega
  | stored point head present posted half =>
      have counts := shorter present
      simp only [DispatchPass.advance, point] at advanced
      cases advanced
      simp only [remaining, point]
      omega
  | @released address point head posted half =>
      cases named : program.coroutine pass.state address with
      | none =>
          rw [named] at point
          simp only [DispatchPass.advance, point] at advanced
          cases advanced
          simp only [remaining, point]
          omega
      | some coroutine =>
          rw [named] at point
          simp only [DispatchPass.advance, point] at advanced
          cases advanced
          simp only [remaining, point]
          omega
  | left point head tail posted settled =>
      simp only [DispatchPass.advance, point] at advanced
      cases advanced

theorem post_remaining {cqe : Cqe} (posted : pass.post size cqe = some next) :
    next.remaining size ≤ pass.remaining size + 4 ∧
      next.posted = pass.posted ++ [cqe] := by
  unfold DispatchPass.post at posted
  split at posted
  · cases posted
  next open_ =>
    obtain ⟨queue, pushed, rfl⟩ := Option.map_eq_some_iff.mp posted
    refine ⟨?_, rfl⟩
    simp only [remaining, CircularQueue.push_contents pushed,
      List.length_append, List.length_singleton]
    split <;> omega

theorem advance_posted (advanced : pass.advance program size = some next) :
    next.posted = pass.posted := by
  unfold DispatchPass.advance at advanced
  split at advanced
  · split at advanced
    · cases advanced
      rfl
    · cases advanced
      rfl
  · dsimp only at advanced
    split at advanced
    · cases advanced
      rfl
    · cases advanced
      rfl
  · cases advanced
    rfl
  · cases advanced
    rfl
  · cases advanced
    rfl
  · cases advanced
    rfl
  · cases advanced

theorem advance_enabled (running : ∀ observed, pass.point ≠ .left observed) :
    ∃ next, pass.advance program size = some next := by
  unfold DispatchPass.advance
  split
  · split
    · exact ⟨_, rfl⟩
    · exact ⟨_, rfl⟩
  · dsimp only
    split
    · exact ⟨_, rfl⟩
    · exact ⟨_, rfl⟩
  · exact ⟨_, rfl⟩
  · exact ⟨_, rfl⟩
  · exact ⟨_, rfl⟩
  · exact ⟨_, rfl⟩
  next observed left => exact absurd left (running observed)

/-! Whole passes. -/

def appended (history : List (DispatchPass State × PassLabel)) : List Cqe :=
  history.filterMap fun taken =>
    match taken.2 with
    | .advance => none
    | .post cqe => some cqe

def executed (history : List (DispatchPass State × PassLabel)) : Nat :=
  history.countP fun taken => taken.2 = .advance

/-- Each completion is taken once and in order, its result is stored before
anything is resumed or stored later, its slot is read only while it is not
released, and the loop comes to its end. -/
structure Exact (program : SqeProgram State) (size : RingSize 32)
    (first : DispatchPass State)
    (history : List (DispatchPass State × PassLabel))
    (last : DispatchPass State) : Prop where
  posted : last.posted = first.queue.contents size ++ appended history
  inOrder : last.taken <+: last.posted
  effects : last.effects <+: (program.dispatchAll first.state last.taken).2
  reads : ∀ pass ∈ TransitionSystem.visited history last,
    pass.point.Reads → pass.queue.Holds pass.head
  goesOn : (∀ observed, last.point ≠ .left observed) →
    ∃ next, last.advance program size = some next
  bounded : executed history ≤ 4 * last.posted.length + 1
  ends : ∀ observed, last.point = .left observed →
    last.taken = last.posted ∧
    program.dispatchAll first.state last.posted =
      (last.state, last.effects) ∧
    last.queue.head = observed ∧ last.queue.tail = observed

variable {first last : DispatchPass State}
  {history : List (DispatchPass State × PassLabel)}

theorem stages_of_run (start : (system program size).initial first)
    (run : (system program size).Execution first history last) :
    ∀ pass ∈ TransitionSystem.visited history last,
      Stage program size first.state pass := by
  refine run.forall_visited ?_ ?_
  · obtain ⟨queue, state, bounded, rfl⟩ := start
    exact .test rfl rfl rfl rfl
  · intro pass label next stage step
    cases label with
    | advance => exact stage.advance step
    | post cqe => exact stage.post step

theorem posted_of_run (start : (system program size).initial first)
    (run : (system program size).Execution first history last) :
    last.posted = first.queue.contents size ++ appended history ∧
      executed history + last.remaining size ≤ 4 * last.posted.length + 1 := by
  induction run with
  | refl =>
      obtain ⟨queue, state, bounded, rfl⟩ := start
      refine ⟨(List.append_nil _).symm, ?_⟩
      simp [executed, remaining, DispatchPass.start]
  | @snoc before after history label run step induction =>
      obtain ⟨posted, counts⟩ := induction
      cases label with
      | advance =>
          have decreases := (stages_of_run start run before
            (TransitionSystem.last_mem_visited _ _)).advance_remaining step
          have same := advance_posted step
          refine ⟨?_, ?_⟩
          · simpa [appended, same] using posted
          · have one : executed (history ++ [(before, .advance)]) =
                executed history + 1 := by simp [executed]
            rw [one, same]
            omega
      | post cqe =>
          obtain ⟨increases, longer⟩ := post_remaining step
          refine ⟨?_, ?_⟩
          · simp [appended, longer, posted]
          · have none : executed (history ++ [(before, .post cqe)]) =
                executed history := by simp [executed]
            rw [none, longer, List.length_append, List.length_singleton]
            omega

theorem Stage.holds (stage : Stage program size origin pass)
    (reads : pass.point.Reads) : pass.queue.Holds pass.head := by
  have present : pass.queue.contents size ≠ [] →
      pass.queue.head ≠ pass.queue.tail :=
    fun nonempty same => nonempty (CircularQueue.contents_eq_nil.mpr same)
  cases stage with
  | body point head nonempty posted settled =>
      rw [head]
      exact CircularQueue.holds_head (present nonempty)
  | stored point head nonempty posted half =>
      rw [head]
      exact CircularQueue.holds_head (present nonempty)
  | test point => rw [point] at reads; cases reads
  | unheard point => rw [point] at reads; cases reads
  | released point => rw [point] at reads; cases reads
  | left point => rw [point] at reads; cases reads

theorem HalfSettled.effects {address : SqeAddr}
    (half : HalfSettled program origin pass address) :
    pass.effects <+: (program.dispatchAll origin pass.taken).2 := by
  cases named : program.coroutine pass.state address with
  | none =>
      have settled := half.orphaned named
      rw [settled]
  | some coroutine =>
      rw [half.resumed named]
      exact List.prefix_append _ _

theorem Stage.effects (stage : Stage program size origin pass) :
    pass.effects <+: (program.dispatchAll origin pass.taken).2 ∧
      pass.taken <+: pass.posted := by
  cases stage with
  | test point head posted settled =>
      rw [settled, posted]
      exact ⟨List.prefix_rfl, List.prefix_append _ _⟩
  | body point head present posted settled =>
      rw [settled, posted]
      exact ⟨List.prefix_rfl, List.prefix_append _ _⟩
  | unheard point head present posted settled =>
      rw [settled, posted]
      exact ⟨List.prefix_rfl, List.prefix_append _ _⟩
  | stored point head present posted half =>
      rw [posted]
      exact ⟨half.effects, List.prefix_append _ _⟩
  | released point head posted half =>
      rw [posted]
      exact ⟨half.effects, List.prefix_append _ _⟩
  | left point head tail posted settled =>
      rw [settled, posted]
      exact ⟨List.prefix_rfl, List.prefix_rfl⟩

theorem exact_of_run (start : (system program size).initial first)
    (run : (system program size).Execution first history last) :
    Exact program size first history last := by
  have stages := stages_of_run start run
  have stage := stages last (TransitionSystem.last_mem_visited _ _)
  obtain ⟨posted, counts⟩ := posted_of_run start run
  refine ⟨posted, stage.effects.2, stage.effects.1, ?_, advance_enabled,
    ?_, ?_⟩
  · exact fun pass member => (stages pass member).holds
  · exact Nat.le_of_add_right_le counts
  · intro observed isLeft
    cases stage with
    | left point head tail all settled =>
        rw [isLeft] at point
        cases point
        exact ⟨all.symm, all ▸ settled, head, tail⟩
    | test point => cases point.symm.trans isLeft
    | body point => cases point.symm.trans isLeft
    | unheard point => cases point.symm.trans isLeft
    | stored point => cases point.symm.trans isLeft
    | released point => cases point.symm.trans isLeft

def receivers : SqeProgram Unit where
  coroutine := fun _ address =>
    match address with
    | .recvAwaiter frame _ => some frame
    | _ => none
  store := fun state _ _ _ => state
  resume := fun state _ => state

def fourSlots : RingSize 32 := ⟨4, ⟨2 ^ 30, rfl⟩, by decide⟩

/-- One completion, in the slot before the counters wrap around. -/
def lastSlot : CircularQueue Cqe 32 where
  slots := fun _ => ⟨some (.recvAwaiter 5 .awaited), 1, 0⟩
  head := -1
  tail := 0

/-- While the slot is free and its coroutine not resumed yet, the kernel
appends. -/
def wrappingLabels : List PassLabel :=
  [.advance, .advance, .advance, .post ⟨none, 0, 0⟩, .advance, .advance,
    .advance, .advance, .advance]

theorem wrapping_pass_exact :
    ∃ last, TransitionSystem.runLabels (step receivers fourSlots)
        (start fourSlots lastSlot ()) wrappingLabels = some last ∧
      last.point = .left 1 ∧
      Exact receivers fourSlots (start fourSlots lastSlot ())
        (TransitionSystem.traceLabels (step receivers fourSlots)
          (start fourSlots lastSlot ()) wrappingLabels) last := by
  have run : ∃ last, TransitionSystem.runLabels (step receivers fourSlots)
      (start fourSlots lastSlot ()) wrappingLabels = some last ∧
      last.point = .left 1 := ⟨_, rfl, rfl⟩
  obtain ⟨last, run, left⟩ := run
  refine ⟨last, run, left,
    exact_of_run ⟨lastSlot, (), ?_, rfl⟩ (.runLabels run)⟩
  exact Nat.le_of_ble_eq_true rfl

end DispatchPass

end CoUring
