import Mathlib.Data.List.Basic

namespace CoUring

abbrev WorkerId := Nat

abbrev FrameId := Nat

abbrev RawFd := Nat

/-! `HandleSession` has two `recv_awaiter` objects in its frame: the temporary
of its `co_await socket.recv()` and the local it queries afterwards. -/

inductive RecvSlot
  | awaited
  | queried
  deriving DecidableEq, Repr

/-- Where an `sqe_data` lives: in an awaiter inside a coroutine frame, or in
the accept guard inside a worker's `socket_server_`. -/
inductive SqeAddr
  | acceptGuard (worker : WorkerId)
  | recvAwaiter (frame : FrameId) (slot : RecvSlot)
  | sendAwaiter (frame : FrameId)
  deriving DecidableEq, Repr

def SqeAddr.isAcceptGuard : SqeAddr → Bool
  | .acceptGuard _ => true
  | .recvAwaiter _ _ => false
  | .sendAwaiter _ => false

structure SqeData where
  coroutine : Option FrameId := none
  cqeRes : Int := 0
  cqeFlags : Nat := 0
  deriving DecidableEq, Repr

/-- What the event loop stores of a completion before it resumes anything. -/
def SqeData.store (data : SqeData) (res : Int) (flags : Nat) : SqeData :=
  { data with cqeRes := res, cqeFlags := flags }

/-! Completion flags. -/

def ioringCqeBufferShift : Nat := 16

def hasBuffer (flags : Nat) : Bool := flags.testBit 0

def hasMore (flags : Nat) : Bool := flags.testBit 1

/-- The flags the kernel posts with the provided buffer it filled. -/
def bufferFlags (bufferId : Nat) : Nat := bufferId <<< ioringCqeBufferShift + 1

def moreFlags (more : Bool) : Nat := if more then 2 else 0

@[simp] theorem bufferFlags_shift (bufferId : Nat) :
    bufferFlags bufferId >>> ioringCqeBufferShift = bufferId := by
  simp only [bufferFlags, ioringCqeBufferShift, Nat.shiftLeft_eq,
    Nat.shiftRight_eq_div_pow]
  omega

@[simp] theorem hasBuffer_bufferFlags (bufferId : Nat) :
    hasBuffer (bufferFlags bufferId) = true := by
  simp only [hasBuffer, bufferFlags, ioringCqeBufferShift, Nat.shiftLeft_eq,
    Nat.testBit_zero, decide_eq_true_eq]
  omega

@[simp] theorem hasBuffer_zero : hasBuffer 0 = false := rfl

@[simp] theorem hasMore_moreFlags (more : Bool) :
    hasMore (moreFlags more) = more := by
  cases more <;> rfl

@[simp] theorem hasBuffer_moreFlags (more : Bool) :
    hasBuffer (moreFlags more) = false := by
  cases more <;> rfl

structure Span where
  storage : Nat
  size : Nat
  deriving DecidableEq, Repr

inductive Operation
  | multishotAccept
  | recv
  | send (buf : Span)
  deriving DecidableEq, Repr

structure Request where
  operation : Operation
  rawFd : RawFd
  userData : SqeAddr
  deriving DecidableEq, Repr

structure Cqe where
  userData : Option SqeAddr
  res : Int
  flags : Nat
  deriving DecidableEq, Repr

/-- One worker's ring: the requests it queued and has not submitted, the ones
the kernel works on, and the completions it has not taken yet. -/
structure IoUring where
  sq : List Request := []
  inflight : List Request := []
  cq : List Cqe := []

namespace IoUring

def queueSize : Nat := 4096

def bufRingSize : Nat := 1024

def bufSize : Nat := 8192

/-- Queue one request, when `io_uring_get_sqe` finds a free entry. All
submission functions of the source report a full queue on `cerr` only. -/
def queueRequest (ring : IoUring) (request : Request) : IoUring :=
  if ring.sq.length < queueSize then
    { ring with sq := ring.sq ++ [request] }
  else ring

def submitMultishotAcceptRequest (ring : IoUring) (sqeData : SqeAddr)
    (rawFd : RawFd) : IoUring :=
  ring.queueRequest ⟨.multishotAccept, rawFd, sqeData⟩

def submitRecvRequest (ring : IoUring) (sqeData : SqeAddr)
    (rawFd : RawFd) : IoUring :=
  ring.queueRequest ⟨.recv, rawFd, sqeData⟩

def submitSendRequest (ring : IoUring) (sqeData : SqeAddr)
    (rawFd : RawFd) (buf : Span) : IoUring :=
  ring.queueRequest ⟨.send buf, rawFd, sqeData⟩

/-- The user data of everything queued, in flight, or completed and not yet
dispatched. -/
def outstanding (ring : IoUring) : List SqeAddr :=
  ring.sq.map Request.userData ++ ring.inflight.map Request.userData ++
    ring.cq.filterMap Cqe.userData

theorem queueRequest_room {ring : IoUring} (request : Request)
    (room : ring.sq.length < queueSize) :
    ring.queueRequest request = { ring with sq := ring.sq ++ [request] } :=
  if_pos room

theorem queueRequest_full {ring : IoUring} (request : Request)
    (full : ¬ ring.sq.length < queueSize) : ring.queueRequest request = ring :=
  if_neg full

@[simp] theorem queueRequest_cq (ring : IoUring) (request : Request) :
    (ring.queueRequest request).cq = ring.cq := by
  unfold queueRequest
  split <;> rfl

end IoUring

end CoUring
