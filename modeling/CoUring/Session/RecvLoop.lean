import CoUring.Io.BufferRing
import CoUring.Io.Socket

namespace CoUring

/-! The receive loop of `HandleSession`, from the resumption of its
`co_await socket.recv()` to the next one. -/

inductive RecvStep
  | leave
  | handle (bufferId bufferSize : Nat)
  deriving DecidableEq, Repr

def recvStep (socket : File) (awaited : RecvAwaiter) : RecvStep :=
  let recvResult := awaited.awaitResume.1
  if recvResult < 0 then .leave
  else if recvResult = 0 then .leave
  else
    -- a second awaiter, built after the one that was awaited
    let recvAwaiter := socket.recv
    .handle recvAwaiter.getBufferId recvAwaiter.getBufferSize

/-- The argument of `OnRecvData`, when it is called for a borrowed buffer. -/
def recvData (bufferData : List UInt8) (bufferSize : Nat) :
    Option (List UInt8) :=
  if bufferData ≠ [] ∧ 0 < bufferSize then some (bufferData.take bufferSize)
  else none

theorem recvStep_leave {socket : File} {awaited : RecvAwaiter}
    (ended : awaited.sqeData.cqeRes ≤ 0) :
    recvStep socket awaited = .leave := by
  rw [recvStep, RecvAwaiter.awaitResume_fst]
  rcases ended.lt_or_eq with negative | zero
  · exact if_pos negative
  · simp [zero]

theorem recvStep_handle {socket : File} {awaited : RecvAwaiter}
    (received : 0 < awaited.sqeData.cqeRes) :
    recvStep socket awaited = .handle 0 0 := by
  rw [recvStep, RecvAwaiter.awaitResume_fst]
  simp [not_lt.mpr received.le, received.ne']

@[simp] theorem recvData_zero (bufferData : List UInt8) :
    recvData bufferData 0 = none := by
  simp [recvData]

/-- A completion of a receive with the contents of all buffers at its
dispatch. -/
structure RecvCompletion where
  res : Int
  flags : Nat
  bufList : List (List UInt8)
  deriving DecidableEq, Repr

def RecvCompletion.bytes (completion : RecvCompletion) : List UInt8 :=
  (completion.bufList.getD (completion.flags >>> ioringCqeBufferShift) []).take
    completion.res.toNat

structure RecvLoop where
  socket : File
  awaited : RecvAwaiter
  buffers : BufferRing := {}
  ended : Bool := false
  calls : List (List UInt8) := []

namespace RecvLoop

def start (socket : File) : RecvLoop := { socket, awaited := socket.recv }

def dispatch (loop : RecvLoop) (completion : RecvCompletion) : RecvLoop :=
  if loop.ended then loop
  else
    match recvStep loop.socket
        (loop.awaited.store completion.res completion.flags) with
    | .leave => { loop with ended := true }
    | .handle bufferId bufferSize =>
        let (buffers, bufferData) :=
          { loop.buffers with bufList := completion.bufList }.borrowBuf bufferId
        match recvData bufferData bufferSize with
        | none =>
            { loop with awaited := loop.socket.recv, buffers := buffers }
        | some data =>
            { loop with
              awaited := loop.socket.recv
              buffers := buffers.returnBuf bufferId
              calls := loop.calls ++ [data] }

def run (loop : RecvLoop) (completions : List RecvCompletion) : RecvLoop :=
  completions.foldl dispatch loop

/-- What the receive loop is for: every completion with data is handed over, in
order and with its own bytes, until the first one without. -/
structure Delivers (loop : RecvLoop) (completions : List RecvCompletion) :
    Prop where
  calls : loop.calls =
    (completions.takeWhile fun completion => 0 < completion.res).map
      RecvCompletion.bytes
  ended : loop.ended = true ↔ ∃ completion ∈ completions, completion.res ≤ 0

/-- A completion with data asks a fresh awaiter for its buffer and gets
nothing; any other one ends the loop. -/
theorem dispatch_eq (loop : RecvLoop) (completion : RecvCompletion)
    (running : loop.ended = false) :
    loop.dispatch completion =
      if 0 < completion.res then
        { loop with
          awaited := loop.socket.recv
          buffers :=
            ({ loop.buffers with bufList := completion.bufList }.borrowBuf
              0).1 }
      else { loop with ended := true } := by
  simp only [dispatch, running, Bool.false_eq_true, if_false]
  by_cases received : 0 < completion.res
  · rw [recvStep_handle received, if_pos received]
    simp
  · rw [recvStep_leave (not_lt.mp received), if_neg received]

theorem dispatch_calls (loop : RecvLoop) (completion : RecvCompletion) :
    (loop.dispatch completion).calls = loop.calls := by
  cases running : loop.ended with
  | true => simp [dispatch, running]
  | false =>
      rw [loop.dispatch_eq completion running]
      split <;> rfl

theorem dispatch_ended (loop : RecvLoop) (completion : RecvCompletion) :
    (loop.dispatch completion).ended = true ↔
      loop.ended = true ∨ completion.res ≤ 0 := by
  cases running : loop.ended with
  | true => simp [dispatch, running]
  | false =>
      rw [loop.dispatch_eq completion running]
      split
      next received => simp [running, received]
      next ending => simpa using not_lt.mp ending

theorem run_calls (loop : RecvLoop) (completions : List RecvCompletion) :
    (loop.run completions).calls = loop.calls := by
  induction completions generalizing loop with
  | nil => rfl
  | cons completion rest unchanged =>
      rw [run, List.foldl_cons]
      exact (unchanged _).trans (loop.dispatch_calls completion)

theorem run_ended (loop : RecvLoop) (completions : List RecvCompletion) :
    (loop.run completions).ended = true ↔
      loop.ended = true ∨ ∃ completion ∈ completions, completion.res ≤ 0 := by
  induction completions generalizing loop with
  | nil => simp [run]
  | cons completion rest ends =>
      rw [run, List.foldl_cons]
      refine (ends _).trans ?_
      rw [dispatch_ended, List.exists_mem_cons_iff, or_assoc]

/-- `OnRecvData` is called as it should be just when the first completion of
the session already ends it. -/
theorem delivers_iff_nothing_received (socket : File)
    (completions : List RecvCompletion) :
    ((start socket).run completions).Delivers completions ↔
      ∀ completion ∈ completions.head?, completion.res ≤ 0 := by
  have calls := (start socket).run_calls completions
  have ended := (start socket).run_ended completions
  constructor
  · intro delivers completion isHead
    by_contra received
    have handedOver := delivers.calls.symm.trans calls
    obtain ⟨rest, rfl⟩ := List.head?_eq_some_iff.mp isHead
    rw [List.takeWhile_cons_of_pos (by simpa using received)] at handedOver
    simp [start] at handedOver
  · intro nothing
    refine ⟨?_, ?_⟩
    · rw [calls]
      cases completions with
      | nil => rfl
      | cons completion rest =>
          have first := nothing completion rfl
          rw [List.takeWhile_cons_of_neg (by simpa using first)]
          rfl
    · rw [ended]
      simp [start]

/-- The first byte of a connection, received into buffer 0, is not handed
over. -/
theorem first_byte_not_delivered :
    ¬ ((start (.adopt 7)).run
        [⟨1, bufferFlags 0, BufferRing.freshBufList⟩]).Delivers
      [⟨1, bufferFlags 0, BufferRing.freshBufList⟩] := by
  intro delivers
  have handedOver := delivers.calls
  rw [run_calls] at handedOver
  have counts := congrArg List.length handedOver
  simp [start] at counts

end RecvLoop

end CoUring
