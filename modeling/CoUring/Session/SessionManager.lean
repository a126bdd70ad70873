import Mathlib.Data.List.AList
import CoUring.Foundation.Heap
import CoUring.Io.Socket

namespace CoUring

open Foundation

/-- The address of a `GameSession`. -/
abbrev SessionPtr := Nat

abbrev SessionId := String

/-- `GameSession`; times are readings of `steady_clock` in nanoseconds. -/
structure GameSession where
  client : Option File
  sessionId : SessionId
  lastHeartbeat : Nat
  connected : Bool := false
  deriving DecidableEq, Repr

namespace GameSession

/-- The default timeout of `IsExpired`, 30 minutes. -/
def defaultTimeout : Nat := 30 * 60 * 1000000000

def updateHeartbeat (session : GameSession) (now : Nat) : GameSession :=
  { session with lastHeartbeat := now }

def isExpired (session : GameSession) (now : Nat)
    (timeout : Nat := defaultTimeout) : Bool :=
  timeout < now - session.lastHeartbeat

def onConnected (session : GameSession) (now : Nat) : GameSession :=
  { session with connected := true }.updateHeartbeat now

def onDisconnected (session : GameSession) : GameSession :=
  { session with connected := false }

end GameSession

inductive Owner
  | mapEntry (sessionId : SessionId)
  | frame (frame : FrameId)
  deriving DecidableEq, Repr

structure SharedSession where
  session : GameSession
  owners : List Owner
  deriving DecidableEq, Repr

abbrev SessionEntry := (_ : SessionId) × SessionPtr

structure SessionManager where
  sessions : AList (fun _ : SessionId => SessionPtr) := ∅
  objects : Heap SharedSession := .empty
  closed : List (SessionPtr × RawFd) := []

namespace SessionManager

def modifySession (manager : SessionManager) (session : SessionPtr)
    (change : GameSession → GameSession) : SessionManager :=
  match manager.objects.cell session with
  | none => manager
  | some shared =>
      { manager with
        objects := manager.objects.put session
          { shared with session := change shared.session } }

def share (manager : SessionManager) (session : SessionPtr)
    (owner : Owner) : SessionManager :=
  match manager.objects.cell session with
  | none => manager
  | some shared =>
      { manager with
        objects := manager.objects.put session
          { shared with owners := owner :: shared.owners } }

/-- Destroy a `shared_ptr`; the last one takes the session and its
`socket_client` along. -/
def release (manager : SessionManager) (session : SessionPtr)
    (owner : Owner) : SessionManager :=
  match manager.objects.cell session with
  | none => manager
  | some shared =>
      let owners := shared.owners.erase owner
      if owners = [] then
        { manager with
          objects := manager.objects.free session
          closed := manager.closed ++
            (shared.session.client.elim [] File.closedOnDestruction).map
              fun rawFd => (session, rawFd) }
      else
        { manager with
          objects := manager.objects.put session
            { shared with owners := owners } }

def releaseEntry (manager : SessionManager)
    (sessionId : SessionId) : SessionManager :=
  match manager.sessions.lookup sessionId with
  | none => manager
  | some session => manager.release session (.mapEntry sessionId)

def addSession (manager : SessionManager) (client : Option File)
    (sessionId : SessionId) (now : Nat) : SessionManager :=
  let session := manager.objects.next
  let created := { manager with
    objects := manager.objects.put session
      { session := { client, sessionId, lastHeartbeat := now }
        owners := [.mapEntry sessionId] } }
  let assigned := created.releaseEntry sessionId
  { assigned with sessions := manager.sessions.insert sessionId session }

def getSession (manager : SessionManager)
    (sessionId : SessionId) : Option SessionPtr :=
  manager.sessions.lookup sessionId

def removeSession (manager : SessionManager)
    (sessionId : SessionId) : SessionManager :=
  let released := manager.releaseEntry sessionId
  { released with sessions := manager.sessions.erase sessionId }

/-- `IsExpired` through a map entry, at its own reading of the clock. -/
def entryExpired (manager : SessionManager) (session : SessionPtr)
    (now : Nat) : Bool :=
  (manager.objects.cell session).any fun shared => shared.session.isExpired now

/-- The loop of `CleanupExpiredSessions` over the entries left to examine, with
the reading each `IsExpired` takes. -/
def sweep (manager : SessionManager) :
    List SessionEntry → List Nat → SessionManager
  | entry :: entries, now :: readings =>
      if manager.entryExpired entry.2 now then
        (manager.removeSession entry.1).sweep entries readings
      else manager.sweep entries readings
  | _, _ => manager

/-- `order` is the one in which the iterators visit the map. -/
def cleanupExpiredSessions (manager : SessionManager)
    (order : List SessionEntry) (readings : List Nat) : SessionManager :=
  manager.sweep order readings

def getActiveSessionCount (manager : SessionManager) : Nat :=
  manager.sessions.entries.length

end SessionManager

end CoUring
