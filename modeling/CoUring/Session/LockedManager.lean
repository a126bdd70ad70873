import CoUring.Foundation.CriticalSection
import CoUring.Session.SessionManager
import Mathlib.Data.Set.Card

namespace CoUring

open Foundation

/-! The `SessionManager` under its `std::shared_mutex`, access by access. The
sessions themselves are outside: their heartbeats change without the mutex. -/

abbrev SessionTable := AList fun _ : SessionId => SessionPtr

inductive SessionOperation
  | addSession (client : Option File)
  | getSession (sessionId : SessionId)
  | removeSession (sessionId : SessionId)
  | cleanupExpiredSessions
  | getActiveSessionCount
  deriving DecidableEq, Repr

/-- What an access takes from elsewhere: the id that `GenerateSessionId` makes
with the session made for it, the order in which the iterators visit the map,
and the heartbeat and the clock that an `IsExpired` reads. -/
inductive SessionReading
  | nothing
  | created (generated : SessionId) (session : SessionPtr)
  | order (entries : List SessionEntry)
  | examined (heartbeat now : Nat)
  deriving DecidableEq, Repr

inductive SessionPlace
  | entered
  | created (sessionId : SessionId) (session : SessionPtr)
  | added (sessionId : SessionId)
  | found (session : Option SessionPtr)
  | erased
  | sweeping (left : List SessionEntry) (removedCount : Nat)
  | counted (count : Nat)
  deriving DecidableEq, Repr

/-- What a call gives back; `CleanupExpiredSessions` only logs its count. -/
inductive SessionResult
  | sessionId (sessionId : SessionId)
  | session (session : Option SessionPtr)
  | removed
  | cleaned (removedCount : Nat)
  | count (count : Nat)
  deriving DecidableEq, Repr

structure SessionObjects where
  objects : Heap GameSession := .empty
  clock : Nat := 0

/-- What happens to a session without the mutex. -/
inductive SessionOutside
  | updateHeartbeat (session : SessionPtr)
  | onConnected (session : SessionPtr)
  | onDisconnected (session : SessionPtr)
  | tick (elapsed : Nat)
  deriving DecidableEq, Repr

namespace SessionObjects

def modify (sessions : SessionObjects) (session : SessionPtr)
    (change : GameSession → GameSession) : Option SessionObjects :=
  (sessions.objects.cell session).map fun contents =>
    { sessions with objects := sessions.objects.put session (change contents) }

def step (sessions : SessionObjects) :
    SessionOutside → Option SessionObjects
  | .updateHeartbeat session =>
      sessions.modify session (·.updateHeartbeat sessions.clock)
  | .onConnected session =>
      sessions.modify session (·.onConnected sessions.clock)
  | .onDisconnected session =>
      sessions.modify session GameSession.onDisconnected
  | .tick elapsed => some { sessions with clock := sessions.clock + elapsed }

def reads (sessions : SessionObjects) :
    SessionOperation → SessionPlace → SessionReading → Bool
  | _, _, .nothing => true
  | _, _, .created _ session => session = sessions.objects.next
  | _, _, .order _ => true
  | _, .sweeping (entry :: _) _, .examined heartbeat now =>
      (sessions.objects.cell entry.2).any (·.lastHeartbeat = heartbeat) &&
        now = sessions.clock
  | _, _, .examined _ _ => false

def affects (sessions : SessionObjects) :
    SessionOperation → SessionPlace → SessionReading → SessionObjects
  | .addSession client, _, .created generated session =>
      { sessions with
        objects := sessions.objects.put session
          { client, sessionId := generated, lastHeartbeat := sessions.clock } }
  | _, _, _ => sessions

end SessionObjects

def expiredAt (heartbeat now : Nat) : Bool :=
  GameSession.defaultTimeout < now - heartbeat

def sessionMode : SessionOperation → LockMode
  | .getSession _ => .shared
  | .getActiveSessionCount => .shared
  | .addSession _ => .exclusive
  | .removeSession _ => .exclusive
  | .cleanupExpiredSessions => .exclusive

def sessionAccess :
    SessionOperation → SessionPlace → SessionTable → SessionReading →
      Option (SessionPlace × SessionTable)
  | .addSession _, .entered, sessions, .created generated session =>
      some (.created generated session, sessions)
  | .addSession _, .created sessionId session, sessions, .nothing =>
      some (.added sessionId, sessions.insert sessionId session)
  | .getSession sessionId, .entered, sessions, .nothing =>
      some (.found (sessions.lookup sessionId), sessions)
  | .removeSession sessionId, .entered, sessions, .nothing =>
      some (.found (sessions.lookup sessionId), sessions)
  | .removeSession sessionId, .found (some _), sessions, .nothing =>
      some (.erased, sessions.erase sessionId)
  | .cleanupExpiredSessions, .entered, sessions, .order entries =>
      if entries.Perm sessions.entries then
        some (.sweeping entries 0, sessions)
      else none
  | .cleanupExpiredSessions, .sweeping (entry :: left) removedCount, sessions,
      .examined heartbeat now =>
      if expiredAt heartbeat now then
        some (.sweeping left (removedCount + 1), sessions.erase entry.1)
      else some (.sweeping left removedCount, sessions)
  | .getActiveSessionCount, .entered, sessions, .nothing =>
      some (.counted sessions.entries.length, sessions)
  | _, _, _, _ => none

def sessionResult : SessionOperation → SessionPlace → Option SessionResult
  | .addSession _, .added sessionId => some (.sessionId sessionId)
  | .getSession _, .found session => some (.session session)
  | .removeSession _, .found none => some .removed
  | .removeSession _, .erased => some .removed
  | .cleanupExpiredSessions, .sweeping [] removedCount =>
      some (.cleaned removedCount)
  | .getActiveSessionCount, .counted count => some (.count count)
  | _, _ => none

inductive SessionAccessed (sessions : SessionTable) :
    SessionOperation → SessionPlace → SessionReading → SessionPlace →
      SessionTable → Prop
  | created {client : Option File} {generated : SessionId}
      {session : SessionPtr} :
      SessionAccessed sessions (.addSession client) .entered
        (.created generated session) (.created generated session) sessions
  | assigned {client : Option File} {sessionId : SessionId}
      {session : SessionPtr} :
      SessionAccessed sessions (.addSession client)
        (.created sessionId session) .nothing (.added sessionId)
        (sessions.insert sessionId session)
  | looked {sessionId : SessionId} :
      SessionAccessed sessions (.getSession sessionId) .entered .nothing
        (.found (sessions.lookup sessionId)) sessions
  | sought {sessionId : SessionId} :
      SessionAccessed sessions (.removeSession sessionId) .entered .nothing
        (.found (sessions.lookup sessionId)) sessions
  | erased {sessionId : SessionId} {session : SessionPtr} :
      SessionAccessed sessions (.removeSession sessionId)
        (.found (some session)) .nothing .erased (sessions.erase sessionId)
  | began {entries : List SessionEntry} (all : entries.Perm sessions.entries) :
      SessionAccessed sessions .cleanupExpiredSessions .entered
        (.order entries) (.sweeping entries 0) sessions
  | swept {entry : SessionEntry} {left : List SessionEntry}
      {removedCount heartbeat now : Nat} (expired : expiredAt heartbeat now) :
      SessionAccessed sessions .cleanupExpiredSessions
        (.sweeping (entry :: left) removedCount) (.examined heartbeat now)
        (.sweeping left (removedCount + 1)) (sessions.erase entry.1)
  | passed {entry : SessionEntry} {left : List SessionEntry}
      {removedCount heartbeat now : Nat}
      (active : expiredAt heartbeat now = false) :
      SessionAccessed sessions .cleanupExpiredSessions
        (.sweeping (entry :: left) removedCount) (.examined heartbeat now)
        (.sweeping left removedCount) sessions
  | counted :
      SessionAccessed sessions .getActiveSessionCount .entered .nothing
        (.counted sessions.entries.length) sessions

theorem sessionAccess_cases {operation : SessionOperation}
    {place place' : SessionPlace} {sessions sessions' : SessionTable}
    {reading : SessionReading}
    (accessed : sessionAccess operation place sessions reading =
      some (place', sessions')) :
    SessionAccessed sessions operation place reading place' sessions' := by
  unfold sessionAccess at accessed
  split at accessed
  next => cases accessed; exact .created
  next => cases accessed; exact .assigned
  next => cases accessed; exact .looked
  next => cases accessed; exact .sought
  next => cases accessed; exact .erased
  next =>
    obtain ⟨all, same⟩ := Option.ite_none_right_eq_some.mp accessed
    cases same
    exact .began all
  next =>
    split at accessed
    next expired => cases accessed; exact .swept expired
    next active => cases accessed; exact .passed (by simpa using active)
  next => cases accessed; exact .counted
  next => cases accessed

theorem sessionAccess_shares (operation : SessionOperation)
    (place : SessionPlace) (sessions : SessionTable)
    (reading : SessionReading) (place' : SessionPlace)
    (sessions' : SessionTable) (shares : sessionMode operation = .shared)
    (accessed : sessionAccess operation place sessions reading =
      some (place', sessions')) : sessions' = sessions := by
  cases sessionAccess_cases accessed with
  | looked | counted => rfl
  | created | sought | began | passed => rfl
  | assigned | erased | swept => cases shares

def lockedManager : LockedObject SessionTable SessionObjects
    SessionOperation SessionPlace SessionReading SessionResult
    SessionOutside where
  mode := sessionMode
  enter := fun _ => .entered
  access := sessionAccess
  result := sessionResult
  reads := SessionObjects.reads
  affects := SessionObjects.affects
  outside := SessionObjects.step
  shares := sessionAccess_shares

theorem lockedManager_cases {operation : SessionOperation}
    {place place' : SessionPlace} {sessions sessions' : SessionTable}
    {reading : SessionReading}
    (accessed : lockedManager.access operation place sessions reading =
      some (place', sessions')) :
    SessionAccessed sessions operation place reading place' sessions' :=
  sessionAccess_cases accessed

/-! The manager without a mutex: a partial function, and calls that change it
one after another. -/

abbrev SessionContents := SessionId → Option SessionPtr

inductive SessionCall
  | added (sessionId : SessionId) (session : SessionPtr)
  | found (sessionId : SessionId) (session : Option SessionPtr)
  | removed (sessionId : SessionId)
  | swept (verdicts : List (SessionEntry × Bool)) (removedCount : Nat)
  | counted (count : Nat)
  deriving DecidableEq, Repr

/-- A sweep judges every entry once, and removes what it found expired. -/
structure Swept (contents : SessionContents)
    (verdicts : List (SessionEntry × Bool)) (removedCount : Nat)
    (next : SessionContents) : Prop where
  once : (verdicts.map Prod.fst).Nodup
  all : ∀ sessionId session, ⟨sessionId, session⟩ ∈ verdicts.map Prod.fst ↔
    contents sessionId = some session
  count : removedCount = verdicts.countP Prod.snd
  removed : ∀ sessionId, next sessionId =
    if (sessionId, true) ∈ verdicts.map (Prod.map Sigma.fst id) then none
    else contents sessionId

def SessionCall.Changes (contents : SessionContents) :
    SessionCall → SessionContents → Prop
  | .added sessionId session, next =>
      next = Function.update contents sessionId (some session)
  | .found sessionId session, next =>
      session = contents sessionId ∧ next = contents
  | .removed sessionId, next => next = Function.update contents sessionId none
  | .swept verdicts removedCount, next =>
      Swept contents verdicts removedCount next
  | .counted count, next =>
      count = {sessionId | contents sessionId ≠ none}.ncard ∧ next = contents

def sessionMapSystem : TransitionSystem SessionContents SessionCall where
  initial := fun contents => contents = fun _ => none
  step := SessionCall.Changes

def verdicts : List SessionEntry → List SessionReading →
    List (SessionEntry × Bool)
  | entry :: entries, .examined heartbeat now :: readings =>
      (entry, expiredAt heartbeat now) :: verdicts entries readings
  | _, _ => []

def SessionCall.ofCall {Thread : Type}
    (call : Call Thread SessionOperation SessionReading SessionResult) :
    Option SessionCall :=
  match call.operation, call.readings, call.result with
  | .addSession _, .created _ session :: _, .sessionId sessionId =>
      some (.added sessionId session)
  | .getSession sessionId, _, .session session =>
      some (.found sessionId session)
  | .removeSession sessionId, _, .removed => some (.removed sessionId)
  | .cleanupExpiredSessions, .order entries :: readings,
      .cleaned removedCount =>
      some (.swept (verdicts entries readings) removedCount)
  | .getActiveSessionCount, _, .count count => some (.counted count)
  | _, _, _ => none

def contentsOf (sessions : SessionTable) : SessionContents :=
  fun sessionId => sessions.lookup sessionId

section

variable {sessions sessions' : SessionTable} {sessionId : SessionId}
  {session : SessionPtr}

theorem contentsOf_insert :
    contentsOf (sessions.insert sessionId session) =
      Function.update (contentsOf sessions) sessionId (some session) := by
  funext other
  by_cases same : other = sessionId
  · subst same
    rw [Function.update_self]
    exact AList.lookup_insert sessions
  · rw [Function.update_of_ne same]
    exact AList.lookup_insert_ne same

theorem contentsOf_erase :
    contentsOf (sessions.erase sessionId) =
      Function.update (contentsOf sessions) sessionId none := by
  funext other
  by_cases same : other = sessionId
  · subst same
    rw [Function.update_self]
    exact AList.lookup_erase other sessions
  · rw [Function.update_of_ne same]
    exact AList.lookup_erase_ne same

theorem erase_absent (absent : sessions.lookup sessionId = none) :
    contentsOf sessions =
      Function.update (contentsOf sessions) sessionId none :=
  (Function.update_eq_self_iff.mpr absent.symm).symm

/-- The number of entries is the number of ids with a session. -/
theorem entries_length :
    sessions.entries.length =
      {sessionId | contentsOf sessions sessionId ≠ none}.ncard := by
  have keys : {sessionId | contentsOf sessions sessionId ≠ none} =
      ↑sessions.keys.toFinset := by
    ext other
    rw [Finset.mem_coe, List.mem_toFinset, ← AList.mem_keys,
      ← AList.lookup_isSome, Option.isSome_iff_ne_none]
    rfl
  rw [keys, Set.ncard_coe_finset,
    List.toFinset_card_of_nodup sessions.keys_nodup, AList.keys, List.keys,
    List.length_map]

theorem sweep_accesses {left : List SessionEntry}
    {readings : List SessionReading} {removedCount : Nat}
    {place : SessionPlace} {result : SessionResult}
    (ran : lockedManager.accesses .cleanupExpiredSessions
      (.sweeping left removedCount) sessions readings =
        some (place, sessions'))
    (finished : sessionResult .cleanupExpiredSessions place = some result) :
    (verdicts left readings).map Prod.fst = left ∧
      result = .cleaned
        (removedCount + (verdicts left readings).countP Prod.snd) ∧
      ∀ sessionId, sessions'.lookup sessionId =
        if (sessionId, true) ∈
          (verdicts left readings).map (Prod.map Sigma.fst id) then none
        else sessions.lookup sessionId := by
  induction readings generalizing left removedCount sessions with
  | nil =>
      cases ran
      cases left with
      | nil =>
          cases finished
          exact ⟨rfl, rfl, fun _ => rfl⟩
      | cons => cases finished
  | cons reading readings induction =>
      obtain ⟨⟨place', data'⟩, accessed, ran'⟩ :=
        Option.bind_eq_some_iff.mp ran
      cases lockedManager_cases accessed with
      | @swept entry left _ heartbeat now expired =>
          obtain ⟨judged, count, kept⟩ := induction ran'
          have verdict : verdicts (entry :: left) (.examined heartbeat now ::
              readings) = (entry, true) :: verdicts left readings := by
            rw [verdicts, expired]
          rw [verdict]
          refine ⟨congrArg (entry :: ·) judged, ?_, fun sessionId => ?_⟩
          · rw [List.countP_cons_of_pos rfl, count, Nat.add_right_comm,
              Nat.add_assoc]
          · rw [kept, List.map_cons]
            by_cases same : sessionId = entry.1
            · subst same
              rw [AList.lookup_erase, ite_self, if_pos (.head _)]
            · rw [AList.lookup_erase_ne same]
              simp only [List.mem_cons, Prod.map, id, Prod.mk.injEq, same,
                false_and, false_or]
      | @passed entry left _ heartbeat now active =>
          obtain ⟨judged, count, kept⟩ := induction ran'
          have verdict : verdicts (entry :: left) (.examined heartbeat now ::
              readings) = (entry, false) :: verdicts left readings := by
            rw [verdicts, active]
          rw [verdict]
          refine ⟨congrArg (entry :: ·) judged, ?_, fun sessionId => ?_⟩
          · rw [List.countP_cons_of_neg Bool.false_ne_true]
            exact count
          · rw [kept, List.map_cons]
            simp only [List.mem_cons, Prod.map, id, Prod.mk.injEq,
              Bool.true_eq_false, and_false, false_or]

variable {readings : List SessionReading} {place : SessionPlace}
  {result : SessionResult} {client : Option File}

theorem addSession_accesses
    (ran : lockedManager.accesses (.addSession client) .entered sessions
      readings = some (place, sessions'))
    (finished : sessionResult (.addSession client) place = some result) :
    ∃ generated session, readings = [.created generated session, .nothing] ∧
      result = .sessionId generated ∧
      sessions' = sessions.insert generated session := by
  rcases LockedObject.accesses_cases ran with
    ⟨rfl, rfl, rfl⟩ | ⟨_, rest, _, _, rfl, accessed, ran⟩
  · cases finished
  cases lockedManager_cases accessed
  rcases LockedObject.accesses_cases ran with
    ⟨rfl, rfl, rfl⟩ | ⟨_, rest, _, _, rfl, accessed, ran⟩
  · cases finished
  cases lockedManager_cases accessed
  rcases LockedObject.accesses_cases ran with
    ⟨rfl, rfl, rfl⟩ | ⟨_, rest, _, _, rfl, accessed, ran⟩
  · cases finished
    exact ⟨_, _, rfl, rfl, rfl⟩
  cases lockedManager_cases accessed

theorem getSession_accesses
    (ran : lockedManager.accesses (.getSession sessionId) .entered sessions
      readings = some (place, sessions'))
    (finished : sessionResult (.getSession sessionId) place = some result) :
    result = .session (sessions.lookup sessionId) ∧ sessions' = sessions := by
  rcases LockedObject.accesses_cases ran with
    ⟨rfl, rfl, rfl⟩ | ⟨_, rest, _, _, rfl, accessed, ran⟩
  · cases finished
  cases lockedManager_cases accessed
  rcases LockedObject.accesses_cases ran with
    ⟨rfl, rfl, rfl⟩ | ⟨_, rest, _, _, rfl, accessed, ran⟩
  · cases finished
    exact ⟨rfl, rfl⟩
  cases lockedManager_cases accessed

theorem removeSession_accesses
    (ran : lockedManager.accesses (.removeSession sessionId) .entered sessions
      readings = some (place, sessions'))
    (finished : sessionResult (.removeSession sessionId) place =
      some result) :
    result = .removed ∧ contentsOf sessions' =
      Function.update (contentsOf sessions) sessionId none := by
  rcases LockedObject.accesses_cases ran with
    ⟨rfl, rfl, rfl⟩ | ⟨_, rest, _, _, rfl, accessed, ran⟩
  · cases finished
  cases lockedManager_cases accessed
  rcases LockedObject.accesses_cases ran with
    ⟨rfl, rfl, rfl⟩ | ⟨_, rest, _, _, rfl, accessed, ran⟩
  · cases absent : sessions'.lookup sessionId with
    | none =>
        rw [absent] at finished
        cases finished
        exact ⟨rfl, erase_absent absent⟩
    | some =>
        rw [absent] at finished
        cases finished
  cases found : sessions.lookup sessionId with
  | none =>
      rw [found] at accessed
      cases lockedManager_cases accessed
  | some session =>
      rw [found] at accessed
      cases lockedManager_cases accessed
      rcases LockedObject.accesses_cases ran with
        ⟨rfl, rfl, rfl⟩ | ⟨_, rest, _, _, rfl, accessed, ran⟩
      · cases finished
        exact ⟨rfl, contentsOf_erase⟩
      cases lockedManager_cases accessed

theorem cleanupExpiredSessions_accesses
    (ran : lockedManager.accesses .cleanupExpiredSessions .entered sessions
      readings = some (place, sessions'))
    (finished : sessionResult .cleanupExpiredSessions place = some result) :
    ∃ entries rest removedCount, readings = .order entries :: rest ∧
      result = .cleaned removedCount ∧
      Swept (contentsOf sessions) (verdicts entries rest) removedCount
        (contentsOf sessions') := by
  rcases LockedObject.accesses_cases ran with
    ⟨rfl, rfl, rfl⟩ | ⟨_, rest, _, _, rfl, accessed, ran⟩
  · cases finished
  cases lockedManager_cases accessed with
  | @began entries all =>
      obtain ⟨judged, rfl, kept⟩ := sweep_accesses ran finished
      rw [Nat.zero_add]
      refine ⟨entries, rest, _, rfl, rfl, ?_, fun sessionId session => ?_, rfl,
        kept⟩
      · rw [judged]
        exact all.nodup_iff.mpr sessions.nodupKeys.nodup
      · rw [judged, all.mem_iff]
        exact AList.mem_lookup_iff.symm

theorem getActiveSessionCount_accesses
    (ran : lockedManager.accesses .getActiveSessionCount .entered sessions
      readings = some (place, sessions'))
    (finished : sessionResult .getActiveSessionCount place = some result) :
    result = .count sessions.entries.length ∧ sessions' = sessions := by
  rcases LockedObject.accesses_cases ran with
    ⟨rfl, rfl, rfl⟩ | ⟨_, rest, _, _, rfl, accessed, ran⟩
  · cases finished
  cases lockedManager_cases accessed
  rcases LockedObject.accesses_cases ran with
    ⟨rfl, rfl, rfl⟩ | ⟨_, rest, _, _, rfl, accessed, ran⟩
  · cases finished
    exact ⟨rfl, rfl⟩
  cases lockedManager_cases accessed

theorem calls_ofCall {Thread : Type}
    {call : Call Thread SessionOperation SessionReading SessionResult}
    (calls : lockedManager.Calls sessions call sessions') :
    ∃ mapCall, SessionCall.ofCall call = some mapCall ∧
      mapCall.Changes (contentsOf sessions) (contentsOf sessions') := by
  obtain ⟨thread, operation, readings, result⟩ := call
  obtain ⟨place, ran, finished⟩ := calls
  cases operation with
  | addSession client =>
      obtain ⟨generated, session, rfl, rfl, rfl⟩ :=
        addSession_accesses ran finished
      exact ⟨.added generated session, rfl, contentsOf_insert⟩
  | getSession sessionId =>
      obtain ⟨rfl, rfl⟩ := getSession_accesses ran finished
      exact ⟨.found sessionId _, rfl, rfl, rfl⟩
  | removeSession sessionId =>
      obtain ⟨rfl, changed⟩ := removeSession_accesses ran finished
      exact ⟨.removed sessionId, rfl, changed⟩
  | cleanupExpiredSessions =>
      obtain ⟨entries, rest, removedCount, rfl, rfl, swept⟩ :=
        cleanupExpiredSessions_accesses ran finished
      exact ⟨.swept (verdicts entries rest) removedCount, rfl, swept⟩
  | getActiveSessionCount =>
      obtain ⟨rfl, rfl⟩ := getActiveSessionCount_accesses ran finished
      exact ⟨.counted _, rfl, entries_length, rfl⟩

theorem atomic_run {Thread : Type} {initial : SessionTable → Prop}
    {history : List (SessionTable ×
      Call Thread SessionOperation SessionReading SessionResult)}
    (run : (lockedManager.atomicSystem initial).Execution sessions history
      sessions') :
    ∃ calls, sessionMapSystem.Execution (contentsOf sessions) calls
        (contentsOf sessions') ∧
      (TransitionSystem.trace calls).map some =
        (TransitionSystem.trace history).map SessionCall.ofCall := by
  induction run with
  | refl => exact ⟨[], .refl, rfl⟩
  | @snoc middle _ history call run step induction =>
      obtain ⟨calls, run', same⟩ := induction
      obtain ⟨mapCall, isCall, changes⟩ := calls_ofCall step
      have next := run'.snoc changes
      refine ⟨_, next, ?_⟩
      rw [TransitionSystem.trace_snoc, TransitionSystem.trace_snoc,
        List.map_append, List.map_append, same, List.map_singleton,
        List.map_singleton, isCall]

end

section

variable {Thread : Type} [DecidableEq Thread]

abbrev LockedSessions (Thread : Type) :=
  LockedState Thread SessionTable SessionObjects SessionOperation SessionPlace
    SessionReading

abbrev LockedSessionLabel (Thread : Type) :=
  LockedLabel Thread SessionOperation SessionReading SessionOutside

def lockedSessionSystem :
    TransitionSystem (LockedSessions Thread) (LockedSessionLabel Thread) :=
  lockedManager.lockedSystem fun sessions outside =>
    sessions = ∅ ∧ outside.objects = .empty

/-- However the calls of the threads interleave, and whatever becomes of the
sessions meanwhile, the calls did what they do to a map one after another, in
the order in which they gave the mutex back. -/
theorem session_calls_serial {first last : LockedSessions Thread}
    {history : List (LockedSessions Thread × LockedSessionLabel Thread)}
    (start : lockedSessionSystem.initial first)
    (run : lockedSessionSystem.Execution first history last) :
    ∃ calls contents,
      sessionMapSystem.Execution (fun _ => none) calls contents ∧
      (TransitionSystem.trace calls).map some =
        (TransitionSystem.observed lockedManager.completed history).map
          SessionCall.ofCall ∧
      (last.mutex.writer = none →
        ∀ sessionId, last.data.lookup sessionId = contents sessionId) := by
  obtain ⟨sessions, atomic, sessions', ⟨_, rfl, _⟩, run', same, serial⟩ :=
    (lockedManager.serial_simulation _).run start run
  obtain ⟨calls, mapRun, isCalls⟩ := atomic_run run'
  refine ⟨calls, contentsOf sessions', mapRun, ?_, fun unwritten => ?_⟩
  · rw [isCalls, same]
  · rw [serial.settled unwritten]
    exact fun _ => rfl

/-- A heartbeat lands in the middle of a sweep. -/
def refreshedInSweep : List (LockedSessionLabel Nat) :=
  [.enter 0 (.addSession (some (.adopt 7))),
    .access 0 (.created "A" 0), .access 0 .nothing, .leave 0,
    .enter 0 (.addSession (some (.adopt 8))),
    .access 0 (.created "B" 1), .access 0 .nothing, .leave 0,
    .outside (.tick 2400000000000),
    .enter 1 .cleanupExpiredSessions,
    .access 1 (.order [⟨"A", 0⟩, ⟨"B", 1⟩]),
    .access 1 (.examined 0 2400000000000),
    .outside (.updateHeartbeat 1),
    .access 1 (.examined 2400000000000 2400000000000), .leave 1,
    .enter 0 (.getSession "A"), .enter 1 .getActiveSessionCount,
    .access 0 .nothing, .access 1 .nothing, .leave 1, .leave 0]

theorem refreshed_in_sweep_serial :
    ∃ last, TransitionSystem.runLabels lockedManager.step
        { data := ∅, outside := {} } refreshedInSweep = some last ∧
      ∃ calls contents,
        sessionMapSystem.Execution (fun _ => none) calls contents ∧
        TransitionSystem.trace calls =
          [.added "A" 0, .added "B" 1,
            .swept [(⟨"A", 0⟩, true), (⟨"B", 1⟩, false)] 1, .counted 1,
            .found "A" none] ∧
        contents "B" = some 1 := by
  have run : ∃ last, TransitionSystem.runLabels lockedManager.step
      { data := ∅, outside := {} } refreshedInSweep = some last ∧
      last.mutex.writer = none ∧ last.data.lookup "B" = some 1 :=
    ⟨_, rfl, rfl, rfl⟩
  obtain ⟨last, run, unwritten, kept⟩ := run
  obtain ⟨calls, contents, mapRun, same, settled⟩ :=
    session_calls_serial ⟨∅, {}, ⟨rfl, rfl⟩, rfl⟩ (.runLabels run)
  refine ⟨last, run, calls, contents, mapRun, ?_, ?_⟩
  · exact List.map_injective_iff.mpr (Option.some_injective _) (same.trans rfl)
  · rw [← settled unwritten]
    exact kept

end

end CoUring
