import CoUring.Server.RequestsMatch

namespace CoUring

open Foundation Server

/-! The server whose sessions are handed data: coroutines on its workers call
`GameSession::OnRecvData`, and the kernel executes the sends they lead to. -/

structure EchoCall where
  worker : WorkerId
  session : SessionPtr
  payload : List UInt8
  /-- The vector the payload was copied to. -/
  storage : Nat
  frame : FrameId
  deriving DecidableEq, Repr

/-- A send the kernel executed, with the bytes it read where the request
points. -/
structure ExecutedSend where
  frame : FrameId
  read : List UInt8
  res : Int
  deriving DecidableEq, Repr

def ExecutedSend.accepted (send : ExecutedSend) : List UInt8 :=
  send.read.take send.res.toNat

inductive SendEnding
  | completed
  | failed
  deriving DecidableEq, Repr

/-- `if (result >= 0)` -/
def sendEnding (awaiter : SendAwaiter) : SendEnding :=
  if 0 ≤ awaiter.awaitResume then .completed else .failed

structure EchoServer where
  server : Server := {}
  calls : List EchoCall := []
  executed : List ExecutedSend := []
  /-- The `SendData` coroutines that finished after their `co_await`. -/
  ended : List (FrameId × SendEnding) := []

inductive EchoLabel
  | server (label : Label)
  /-- A coroutine that runs on a worker calls `OnRecvData`. -/
  | onRecvData (worker : WorkerId) (session : SessionPtr)
      (payload : List UInt8)
  | executeSend (worker : WorkerId) (index : Nat) (res : Int)
      (read : List UInt8)
  deriving DecidableEq, Repr

def Label.executesSend : Label → Bool
  | .complete _ _ (.sent _) => true
  | _ => false

namespace Server

def isConnected (server : Server) (session : SessionPtr) : Bool :=
  (server.session session).any fun contents =>
    contents.connected && contents.client.isSome

/-- What the kernel may find at a span: the bytes of the vector that owns the
storage, or any bytes once it is gone. -/
def mayRead (server : Server) (buf : Span) (read : List UInt8) : Bool :=
  match server.vectors.cell buf.storage with
  | some contents => decide (read = contents.take buf.size)
  | none => decide (read.length = buf.size)

/-- The `SendData` coroutine that the next completion of a worker resumes, and
how it goes on. -/
def nextEnding (server : Server) (worker : WorkerId) :
    Option (FrameId × SendEnding) :=
  (server.workers worker).ioUring.cq.head?.bind fun cqe =>
    match cqe.userData with
    | some (.sendAwaiter frame) =>
        match server.frames.cell frame with
        | some ⟨_, .sendData _ awaiter⟩ =>
            some (frame, sendEnding (awaiter.store cqe.res cqe.flags))
        | _ => none
    | _ => none

def endings (server : Server) : Label → List (FrameId × SendEnding)
  | .dispatch worker _ => (server.nextEnding worker).toList
  | _ => []

end Server

namespace EchoServer

def step (echo : EchoServer) : EchoLabel → Option EchoServer
  | .server label =>
      if label.executesSend then none
      else
        (echo.server.step label).map fun server =>
          { echo with
            server := server
            ended := echo.ended ++ echo.server.endings label }
  | .onRecvData worker session payload =>
      let server := echo.server
      if server.faulted = false ∧
          (server.workers worker).phase = .dispatching ∧
          server.isConnected session then
        some { echo with
          server := server.onRecvData worker session payload
          calls := echo.calls ++
            [⟨worker, session, payload, server.vectors.next,
              server.frames.next⟩] }
      else none
  | .executeSend worker index res read =>
      match (echo.server.workers worker).ioUring.inflight[index]? with
      | some ⟨.send buf, _, .sendAwaiter frame⟩ =>
          if echo.server.mayRead buf read then
            (echo.server.step (.complete worker index (.sent res))).map
              fun server =>
                { echo with
                  server := server
                  executed := echo.executed ++ [⟨frame, read, res⟩] }
          else none
      | _ => none

end EchoServer

def echoSystem : TransitionSystem EchoServer EchoLabel :=
  .ofFunction (· = {}) EchoServer.step

/-! Its steps. -/

/-- A send that a worker's kernel side can execute now. -/
structure Executable (server : Server) (worker : WorkerId) (index : Nat)
    (res : Int) (buf : Span) (frame : FrameId) : Prop where
  inflight : ∃ rawFd, (server.workers worker).ioUring.inflight[index]? =
    some ⟨.send buf, rawFd, .sendAwaiter frame⟩
  bounded : res ≤ buf.size

def Worker.sent (worker : Worker) (index : Nat) (frame : FrameId)
    (res : Int) : Worker :=
  { worker with
    ioUring := { worker.ioUring with
      inflight := worker.ioUring.inflight.eraseIdx index
      cq := worker.ioUring.cq ++ [⟨some (.sendAwaiter frame), res, 0⟩] } }

inductive EchoStepped (echo : EchoServer) : EchoLabel → EchoServer → Prop
  | server {label : Label} {server : Server}
      (silent : label.executesSend = false)
      (stepped : Stepped echo.server label server) :
      EchoStepped echo (.server label)
        { echo with
          server := server
          ended := echo.ended ++ echo.server.endings label }
  | onRecvData {worker : WorkerId} {session : SessionPtr}
      {payload : List UInt8}
      (dispatching : (echo.server.workers worker).phase = .dispatching)
      (connected : echo.server.isConnected session = true) :
      EchoStepped echo (.onRecvData worker session payload)
        { echo with
          server := echo.server.onRecvData worker session payload
          calls := echo.calls ++
            [⟨worker, session, payload, echo.server.vectors.next,
              echo.server.frames.next⟩] }
  | executeSend {worker : WorkerId} {index : Nat} {res : Int}
      {read : List UInt8} {buf : Span} {frame : FrameId}
      (executable : Executable echo.server worker index res buf frame)
      (reads : echo.server.mayRead buf read = true)
      (stepped : Stepped echo.server (.complete worker index (.sent res))
        (echo.server.setWorker worker
          ((echo.server.workers worker).sent index frame res))) :
      EchoStepped echo (.executeSend worker index res read)
        { echo with
          server := echo.server.setWorker worker
            ((echo.server.workers worker).sent index frame res)
          executed := echo.executed ++ [⟨frame, read, res⟩] }

theorem Worker.complete_sent {worker next : Worker} {index : Nat} {res : Int}
    {buf : Span} {rawFd : RawFd} {frame : FrameId}
    (found : worker.ioUring.inflight[index]? =
      some ⟨.send buf, rawFd, .sendAwaiter frame⟩)
    (completed : worker.complete index (.sent res) = some next) :
    res ≤ buf.size ∧ next = worker.sent index frame res := by
  rw [complete, found] at completed
  obtain ⟨bounded, same⟩ := Option.ite_none_right_eq_some.mp completed
  exact ⟨bounded, (Option.some.inj same).symm⟩

theorem EchoServer.step_cases {echo next : EchoServer} {label : EchoLabel}
    (step : echo.step label = some next) : EchoStepped echo label next := by
  cases label with
  | server label =>
      obtain ⟨silent, goesOn⟩ := Option.ite_none_left_eq_some.mp step
      obtain ⟨server, performed, rfl⟩ := Option.map_eq_some_iff.mp goesOn
      exact .server (by simpa using silent) (Server.step_cases performed).2
  | onRecvData worker session payload =>
      obtain ⟨⟨-, dispatching, connected⟩, same⟩ :=
        Option.ite_none_right_eq_some.mp step
      cases same
      exact .onRecvData dispatching connected
  | executeSend worker index res read =>
      simp only [EchoServer.step] at step
      split at step
      next buf rawFd frame found =>
        obtain ⟨reads, goesOn⟩ := Option.ite_none_right_eq_some.mp step
        obtain ⟨server, performed, rfl⟩ := Option.map_eq_some_iff.mp goesOn
        have stepped := (Server.step_cases performed).2
        cases stepped with
        | complete completed =>
            obtain ⟨bounded, rfl⟩ := Worker.complete_sent found completed
            exact .executeSend ⟨⟨rawFd, found⟩, bounded⟩ reads
              (.complete completed)
      next other => cases step

variable {echo : EchoServer}

theorem EchoStepped.matched {next : EchoServer} {label : EchoLabel}
    (stepped : EchoStepped echo label next)
    (matched : RingsMatch echo.server) : RingsMatch next.server := by
  cases stepped with
  | server silent stepped => exact matched.step stepped
  | onRecvData dispatching connected =>
      exact (Keeps.onRecvData matched
        (started_of_phase dispatching Phase.noConfusion) _ _).matched
  | executeSend executable reads stepped => exact matched.step stepped

theorem echo_ringsMatch (reachable : echoSystem.Reachable echo) :
    RingsMatch echo.server := by
  have invariant : echoSystem.Invariant fun echo =>
      RingsMatch echo.server := by
    refine ⟨?_, ?_⟩
    · rintro _ rfl
      exact ringsMatch_initial
    · intro before label after matched step
      exact (EchoServer.step_cases step).matched matched
  exact invariant.reachable reachable

end CoUring
