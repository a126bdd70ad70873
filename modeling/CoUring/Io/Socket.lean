import CoUring.Io.IoUring

namespace CoUring

/-- A descriptor owned by a C++ object; moving out of it leaves none. -/
structure File where
  rawFd : Option RawFd
  deriving DecidableEq, Repr

namespace File

def adopt (rawFd : RawFd) : File := ⟨some rawFd⟩

def isValid (file : File) : Bool := file.rawFd.isSome

/-- Only asked of a valid file. -/
def getRawFd (file : File) : RawFd := file.rawFd.getD 0

def closedOnDestruction (file : File) : List RawFd := file.rawFd.toList

end File

structure RecvAwaiter where
  sqeData : SqeData := {}
  rawFd : RawFd
  bufferId : Nat := 0
  bufferSize : Nat := 0
  deriving DecidableEq, Repr

namespace RecvAwaiter

/-- `await_suspend`: the awaiter lives at `address` in the frame it suspends. -/
def awaitSuspend (awaiter : RecvAwaiter) (ring : IoUring) (address : SqeAddr)
    (coroutine : FrameId) : RecvAwaiter × IoUring :=
  ({ awaiter with
      sqeData := { awaiter.sqeData with coroutine := some coroutine } },
    ring.submitRecvRequest address awaiter.rawFd)

def awaitResume (awaiter : RecvAwaiter) : Int × RecvAwaiter :=
  let res := awaiter.sqeData.cqeRes
  if res < 0 then (res, awaiter)
  else
    (res, { awaiter with
      bufferId := awaiter.sqeData.cqeFlags >>> ioringCqeBufferShift
      bufferSize := res.toNat })

def getBufferId (awaiter : RecvAwaiter) : Nat := awaiter.bufferId

def getBufferSize (awaiter : RecvAwaiter) : Nat := awaiter.bufferSize

def store (awaiter : RecvAwaiter) (res : Int) (flags : Nat) : RecvAwaiter :=
  { awaiter with sqeData := awaiter.sqeData.store res flags }

theorem awaitResume_fst (awaiter : RecvAwaiter) :
    awaiter.awaitResume.1 = awaiter.sqeData.cqeRes := by
  simp only [awaitResume]
  split <;> rfl

end RecvAwaiter

def File.recv (client : File) : RecvAwaiter := { rawFd := client.getRawFd }

@[simp] theorem File.recv_getBufferSize (client : File) :
    client.recv.getBufferSize = 0 := rfl

@[simp] theorem File.recv_getBufferId (client : File) :
    client.recv.getBufferId = 0 := rfl

structure SendAwaiter where
  sqeData : SqeData := {}
  rawFd : RawFd
  buf : Span
  deriving DecidableEq, Repr

namespace SendAwaiter

def awaitSuspend (awaiter : SendAwaiter) (ring : IoUring) (address : SqeAddr)
    (coroutine : FrameId) : SendAwaiter × IoUring :=
  ({ awaiter with
      sqeData := { awaiter.sqeData with coroutine := some coroutine } },
    ring.submitSendRequest address awaiter.rawFd awaiter.buf)

def awaitResume (awaiter : SendAwaiter) : Int := awaiter.sqeData.cqeRes

def store (awaiter : SendAwaiter) (res : Int) (flags : Nat) : SendAwaiter :=
  { awaiter with sqeData := awaiter.sqeData.store res flags }

end SendAwaiter

def File.send (client : File) (buf : Span) : SendAwaiter :=
  { rawFd := client.getRawFd, buf := buf }

structure MultishotAcceptGuard where
  sqeData : SqeData := {}
  initialAwait : Bool := true
  rawFd : RawFd
  deriving DecidableEq, Repr

namespace MultishotAcceptGuard

/-- `await_suspend`: only the first await queues a request. -/
def awaitSuspend (acceptGuard : MultishotAcceptGuard) (ring : IoUring)
    (address : SqeAddr) (coroutine : FrameId) :
    MultishotAcceptGuard × IoUring :=
  let sqeData := { acceptGuard.sqeData with coroutine := some coroutine }
  if acceptGuard.initialAwait then
    ({ acceptGuard with sqeData := sqeData, initialAwait := false },
      ring.submitMultishotAcceptRequest address acceptGuard.rawFd)
  else ({ acceptGuard with sqeData := sqeData }, ring)

def store (acceptGuard : MultishotAcceptGuard) (res : Int)
    (flags : Nat) : MultishotAcceptGuard :=
  { acceptGuard with sqeData := acceptGuard.sqeData.store res flags }

/-- `await_resume`: the `socket_client` of an accepted connection. -/
def awaitResume (acceptGuard : MultishotAcceptGuard) : Option File :=
  if acceptGuard.sqeData.cqeRes < 0 then none
  else some (.adopt acceptGuard.sqeData.cqeRes.toNat)

end MultishotAcceptGuard

structure SocketServer where
  file : File
  multishotAcceptGuard : Option MultishotAcceptGuard := none
  deriving DecidableEq, Repr

/-- The guard `socket_server::accept` returns, put in place on first use. -/
def SocketServer.accept (server : SocketServer) : MultishotAcceptGuard :=
  server.multishotAcceptGuard.getD { rawFd := server.file.getRawFd }

end CoUring
