import CoUring.Foundation.Transition
import CoUring.Session.SessionMap

namespace CoUring

open Foundation

/-! The `SessionManager` between any number of threads. Its lock makes each of
its operations one step; `HandleClientSession` and `HandleSession` go on in
steps of their own. -/

inductive SessionPoint
  /-- A thread that keeps the `shared_ptr` it got from `GetSession`. -/
  | keeping (session : SessionPtr)
  /-- `HandleClientSession` at its start, after `AddSession`, after
  `GetSession`, and at its `co_await`, which nothing resumes. -/
  | clientStarts (client : Option File)
  | clientAdded (sessionId : SessionId)
  | clientGot (session : SessionPtr)
  | clientAwaits (session : SessionPtr)
  /-- `HandleSession` at its start, in its loop, behind it, after
  `OnDisconnected`, and after `RemoveSession`. -/
  | handlerStarts (session : Option SessionPtr)
  | handlerLoops (session : SessionPtr) (sessionId : SessionId)
  | handlerLeaves (session : SessionPtr) (sessionId : SessionId)
  | handlerRemoves (session : SessionPtr) (sessionId : SessionId)
  | handlerRemoved (session : SessionPtr) (sessionId : SessionId)
  deriving DecidableEq, Repr

namespace SessionPoint

def session : SessionPoint → Option SessionPtr
  | .clientStarts _ => none
  | .clientAdded _ => none
  | .handlerStarts session => session
  | .keeping session => some session
  | .clientGot session => some session
  | .clientAwaits session => some session
  | .handlerLoops session _ => some session
  | .handlerLeaves session _ => some session
  | .handlerRemoves session _ => some session
  | .handlerRemoved session _ => some session

def sessionId : SessionPoint → Option SessionId
  | .handlerLoops _ sessionId => some sessionId
  | .handlerLeaves _ sessionId => some sessionId
  | .handlerRemoves _ sessionId => some sessionId
  | .handlerRemoved _ sessionId => some sessionId
  | _ => none

def isHandler : SessionPoint → Bool
  | .handlerStarts _ => true
  | point => point.sessionId.isSome

end SessionPoint

structure SessionThreads where
  manager : SessionManager := {}
  users : Heap SessionPoint := .empty
  clock : Nat := 0

inductive SessionLabel
  | addSession (client : Option File) (generated : SessionId)
  | getSession (sessionId : SessionId)
  | removeSession (sessionId : SessionId)
  /-- The map is visited in some order, with the reading each `IsExpired`
  takes. -/
  | cleanupExpiredSessions (order : List ((_ : SessionId) × SessionPtr))
      (readings : List Nat)
  | getActiveSessionCount
  | handleClientSession (client : Option File)
  /-- `HandleSession` is called with what a thread keeps, or with null. -/
  | handleSession (keeper : Option FrameId)
  /-- The next step of a coroutine; `generated` is the id `GenerateSessionId`
  makes should a session be added. -/
  | advance (user : FrameId) (generated : SessionId)
  /-- The loop of `HandleSession` goes round, with or without data. -/
  | handleData (user : FrameId) (data : Bool)
  /-- The loop of `HandleSession` ends, or an exception leaves it. -/
  | leaveLoop (user : FrameId)
  | dropSession (keeper : FrameId)
  | tick (elapsed : Nat)
  deriving DecidableEq, Repr

namespace SessionThreads

def goOn (threads : SessionThreads) (user : FrameId)
    (point : SessionPoint) : SessionThreads :=
  { threads with users := threads.users.put user point }

def give (threads : SessionThreads) (session : SessionPtr) (user : FrameId)
    (point : SessionPoint) : SessionThreads :=
  { threads with
    manager := threads.manager.share session (.frame user)
    users := threads.users.put user point }

def finish (threads : SessionThreads) (user : FrameId)
    (session : Option SessionPtr) : SessionThreads :=
  { threads with
    manager :=
      match session with
      | none => threads.manager
      | some session => threads.manager.release session (.frame user)
    users := threads.users.free user }

def modify (threads : SessionThreads) (session : SessionPtr)
    (change : GameSession → GameSession) : SessionThreads :=
  { threads with manager := threads.manager.modifySession session change }

def addSession (threads : SessionThreads) (client : Option File)
    (generated : SessionId) : SessionThreads :=
  { threads with
    manager := threads.manager.addSession client generated threads.clock }

def removeSession (threads : SessionThreads)
    (sessionId : SessionId) : SessionThreads :=
  { threads with
    manager := threads.manager.removeSession sessionId }

def cleanupExpiredSessions (threads : SessionThreads)
    (order : List ((_ : SessionId) × SessionPtr)) (readings : List Nat) :
    SessionThreads :=
  { threads with
    manager := threads.manager.cleanupExpiredSessions order readings
    clock := readings.getLast?.getD threads.clock }

def advance (threads : SessionThreads) (user : FrameId)
    (generated : SessionId) : Option SessionThreads :=
  match threads.users.cell user with
  | some (.clientStarts none) => some (threads.finish user none)
  | some (.clientStarts (some client)) =>
      some ((threads.addSession (some client) generated).goOn user
        (.clientAdded generated))
  | some (.clientAdded sessionId) =>
      match threads.manager.getSession sessionId with
      | some session => some (threads.give session user (.clientGot session))
      | none => some (threads.finish user none)
  | some (.clientGot session) =>
      some ((threads.give session threads.users.next
        (.handlerStarts (some session))).goOn user (.clientAwaits session))
  | some (.handlerStarts none) => some (threads.finish user none)
  | some (.handlerStarts (some session)) =>
      (threads.manager.objects.cell session).map fun shared =>
        (threads.modify session (·.onConnected threads.clock)).goOn user
          (.handlerLoops session shared.session.sessionId)
  | some (.handlerLeaves session sessionId) =>
      some ((threads.modify session GameSession.onDisconnected).goOn user
        (.handlerRemoves session sessionId))
  | some (.handlerRemoves session sessionId) =>
      some ((threads.removeSession sessionId).goOn user
        (.handlerRemoved session sessionId))
  | some (.handlerRemoved session _) =>
      some (threads.finish user (some session))
  | _ => none

def step (threads : SessionThreads) : SessionLabel → Option SessionThreads
  | .addSession client generated => some (threads.addSession client generated)
  | .getSession sessionId =>
      match threads.manager.getSession sessionId with
      | some session =>
          some (threads.give session threads.users.next (.keeping session))
      | none => some threads
  | .removeSession sessionId => some (threads.removeSession sessionId)
  | .cleanupExpiredSessions order readings =>
      if order.Perm threads.manager.sessions.entries ∧
          readings.length = order.length ∧
          (threads.clock :: readings).Pairwise (· ≤ ·) then
        some (threads.cleanupExpiredSessions order readings)
      else none
  | .getActiveSessionCount => some threads
  | .handleClientSession client =>
      some (threads.goOn threads.users.next (.clientStarts client))
  | .handleSession none =>
      some (threads.goOn threads.users.next (.handlerStarts none))
  | .handleSession (some keeper) =>
      match threads.users.cell keeper with
      | some (.keeping session) =>
          some (threads.give session threads.users.next
            (.handlerStarts (some session)))
      | _ => none
  | .advance user generated => threads.advance user generated
  | .handleData user data =>
      match threads.users.cell user with
      | some (.handlerLoops session _) =>
          some (if data then
            threads.modify session (·.updateHeartbeat threads.clock)
          else threads)
      | _ => none
  | .leaveLoop user =>
      match threads.users.cell user with
      | some (.handlerLoops session sessionId) =>
          some (threads.goOn user (.handlerLeaves session sessionId))
      | _ => none
  | .dropSession keeper =>
      match threads.users.cell keeper with
      | some (.keeping session) => some (threads.finish keeper (some session))
      | _ => none
  | .tick elapsed => some { threads with clock := threads.clock + elapsed }

variable {threads next : SessionThreads} {label : SessionLabel}

inductive Advanced (threads : SessionThreads) (user : FrameId)
    (generated : SessionId) : SessionThreads → Prop
  | clientNull
      (found : threads.users.cell user = some (.clientStarts none)) :
      Advanced threads user generated (threads.finish user none)
  | clientAdds {client : File}
      (found : threads.users.cell user =
        some (.clientStarts (some client))) :
      Advanced threads user generated
        ((threads.addSession (some client) generated).goOn user
          (.clientAdded generated))
  | clientGets {sessionId : SessionId} {session : SessionPtr}
      (found : threads.users.cell user = some (.clientAdded sessionId))
      (entry : threads.manager.getSession sessionId = some session) :
      Advanced threads user generated
        (threads.give session user (.clientGot session))
  | clientMisses {sessionId : SessionId}
      (found : threads.users.cell user = some (.clientAdded sessionId))
      (absent : threads.manager.getSession sessionId = none) :
      Advanced threads user generated (threads.finish user none)
  | clientAwaits {session : SessionPtr}
      (found : threads.users.cell user = some (.clientGot session)) :
      Advanced threads user generated
        ((threads.give session threads.users.next
          (.handlerStarts (some session))).goOn user (.clientAwaits session))
  | handlerNull
      (found : threads.users.cell user = some (.handlerStarts none)) :
      Advanced threads user generated (threads.finish user none)
  | handlerConnects {session : SessionPtr} {shared : SharedSession}
      (found : threads.users.cell user =
        some (.handlerStarts (some session)))
      (stored : threads.manager.objects.cell session = some shared) :
      Advanced threads user generated
        ((threads.modify session (·.onConnected threads.clock)).goOn user
          (.handlerLoops session shared.session.sessionId))
  | handlerDisconnects {session : SessionPtr} {sessionId : SessionId}
      (found : threads.users.cell user =
        some (.handlerLeaves session sessionId)) :
      Advanced threads user generated
        ((threads.modify session GameSession.onDisconnected).goOn user
          (.handlerRemoves session sessionId))
  | handlerRemoves {session : SessionPtr} {sessionId : SessionId}
      (found : threads.users.cell user =
        some (.handlerRemoves session sessionId)) :
      Advanced threads user generated
        ((threads.removeSession sessionId).goOn user
          (.handlerRemoved session sessionId))
  | handlerEnds {session : SessionPtr} {sessionId : SessionId}
      (found : threads.users.cell user =
        some (.handlerRemoved session sessionId)) :
      Advanced threads user generated (threads.finish user (some session))

inductive Stepped (threads : SessionThreads) :
    SessionLabel → SessionThreads → Prop
  | addSession {client : Option File} {generated : SessionId} :
      Stepped threads (.addSession client generated)
        (threads.addSession client generated)
  | getSession {sessionId : SessionId} {session : SessionPtr}
      (entry : threads.manager.getSession sessionId = some session) :
      Stepped threads (.getSession sessionId)
        (threads.give session threads.users.next (.keeping session))
  | getNull {sessionId : SessionId}
      (absent : threads.manager.getSession sessionId = none) :
      Stepped threads (.getSession sessionId) threads
  | removeSession {sessionId : SessionId} :
      Stepped threads (.removeSession sessionId)
        (threads.removeSession sessionId)
  | cleanup {order : List ((_ : SessionId) × SessionPtr)}
      {readings : List Nat}
      (visits : order.Perm threads.manager.sessions.entries) :
      Stepped threads (.cleanupExpiredSessions order readings)
        (threads.cleanupExpiredSessions order readings)
  | count : Stepped threads .getActiveSessionCount threads
  | handleClientSession {client : Option File} :
      Stepped threads (.handleClientSession client)
        (threads.goOn threads.users.next (.clientStarts client))
  | handleNull :
      Stepped threads (.handleSession none)
        (threads.goOn threads.users.next (.handlerStarts none))
  | handleSession {keeper : FrameId} {session : SessionPtr}
      (found : threads.users.cell keeper = some (.keeping session)) :
      Stepped threads (.handleSession (some keeper))
        (threads.give session threads.users.next
          (.handlerStarts (some session)))
  | advance {user : FrameId} {generated : SessionId} {next : SessionThreads}
      (advanced : Advanced threads user generated next) :
      Stepped threads (.advance user generated) next
  | data {user : FrameId} {session : SessionPtr} {sessionId : SessionId}
      (found : threads.users.cell user =
        some (.handlerLoops session sessionId)) :
      Stepped threads (.handleData user true)
        (threads.modify session (·.updateHeartbeat threads.clock))
  | noData {user : FrameId} : Stepped threads (.handleData user false) threads
  | leaveLoop {user : FrameId} {session : SessionPtr} {sessionId : SessionId}
      (found : threads.users.cell user =
        some (.handlerLoops session sessionId)) :
      Stepped threads (.leaveLoop user)
        (threads.goOn user (.handlerLeaves session sessionId))
  | dropSession {keeper : FrameId} {session : SessionPtr}
      (found : threads.users.cell keeper = some (.keeping session)) :
      Stepped threads (.dropSession keeper)
        (threads.finish keeper (some session))
  | tick {elapsed : Nat} :
      Stepped threads (.tick elapsed)
        { threads with clock := threads.clock + elapsed }

theorem advance_cases {user : FrameId} {generated : SessionId}
    (step : threads.advance user generated = some next) :
    Advanced threads user generated next := by
  unfold advance at step
  split at step
  next found =>
    cases step
    exact .clientNull found
  next client found =>
    cases step
    exact .clientAdds found
  next sessionId found =>
    split at step
    next session entry =>
      cases step
      exact .clientGets found entry
    next absent =>
      cases step
      exact .clientMisses found absent
  next session found =>
    cases step
    exact .clientAwaits found
  next found =>
    cases step
    exact .handlerNull found
  next session found =>
    obtain ⟨shared, stored, rfl⟩ := Option.map_eq_some_iff.mp step
    exact .handlerConnects found stored
  next session sessionId found =>
    cases step
    exact .handlerDisconnects found
  next session sessionId found =>
    cases step
    exact .handlerRemoves found
  next session sessionId found =>
    cases step
    exact .handlerEnds found
  next => cases step

theorem step_cases (step : threads.step label = some next) :
    Stepped threads label next := by
  unfold SessionThreads.step at step
  split at step
  next client generated =>
    cases step
    exact .addSession
  next sessionId =>
    split at step
    next session entry =>
      cases step
      exact .getSession entry
    next absent =>
      cases step
      exact .getNull absent
  next sessionId =>
    cases step
    exact .removeSession
  next order readings =>
    obtain ⟨⟨visits, -⟩, same⟩ := Option.ite_none_right_eq_some.mp step
    cases same
    exact .cleanup visits
  next =>
    cases step
    exact .count
  next client =>
    cases step
    exact .handleClientSession
  next =>
    cases step
    exact .handleNull
  next keeper =>
    split at step
    next session found =>
      cases step
      exact .handleSession found
    next => cases step
  next user generated => exact .advance (advance_cases step)
  next user data =>
    split at step
    next session sessionId found =>
      cases step
      cases data with
      | false => exact .noData
      | true => exact .data found
    next => cases step
  next user =>
    split at step
    next session sessionId found =>
      cases step
      exact .leaveLoop found
    next => cases step
  next keeper =>
    split at step
    next session found =>
      cases step
      exact .dropSession found
    next => cases step
  next elapsed =>
    cases step
    exact .tick

end SessionThreads

def sessionSystem : TransitionSystem SessionThreads SessionLabel :=
  .ofFunction (· = {}) SessionThreads.step

end CoUring
