import CoUring.Foundation.Listing
import CoUring.Foundation.MapHistory
import CoUring.Session.CleanupSweep
import CoUring.Session.SessionThreads

namespace CoUring

open Foundation SessionManager

/-! The manager as a set of sessions, told by the calls that were made. -/

/-- How a session leaves the set: by `RemoveSession`, or because a sweep found
it expired. -/
inductive Departure
  | removed
  | expired
  deriving DecidableEq, Repr

abbrev SessionEvent := MapEvent SessionId SessionPtr Departure

/-- The entries whose `IsExpired` is true at its reading, in the manager as the
sweep finds it. -/
def SessionManager.expiredIds (manager : SessionManager)
    (order : List SessionEntry) (readings : List Nat) : List SessionId :=
  ((order.zip readings).filter fun visited =>
    manager.entryExpired visited.1.2 visited.2).map fun visited => visited.1.1

/-- What the calls of a step ask of the set. -/
def SessionLabel.events (threads : SessionThreads) :
    SessionLabel → List SessionEvent
  | .addSession _ generated =>
      [.insert generated threads.manager.objects.next]
  | .removeSession sessionId => [.erase .removed sessionId]
  | .cleanupExpiredSessions order readings =>
      (threads.manager.expiredIds order readings).map (.erase .expired)
  | .advance user generated =>
      match threads.users.cell user with
      | some (.clientStarts (some _)) =>
          [.insert generated threads.manager.objects.next]
      | some (.handlerRemoves _ sessionId) => [.erase .removed sessionId]
      | _ => []
  | _ => []

def sessionEvents (history : List (SessionThreads × SessionLabel)) :
    List SessionEvent :=
  history.flatMap fun taken => taken.2.events taken.1

/-- `GenerateSessionId` repeats no id. -/
def GeneratedOnce (history : List (SessionThreads × SessionLabel)) : Prop :=
  (MapEvent.inserted (sessionEvents history)).Nodup

variable {manager before after : SessionManager}
  {users : Heap SessionPoint} {events events' : List SessionEvent}
  {user : FrameId} {point : SessionPoint} {session : SessionPtr}
  {sessionId generated : SessionId}

/-- The map holds what was added and not taken from it since, under the ids of
the sessions themselves, and counts it. -/
structure SessionsRefined (events : List SessionEvent)
    (threads : SessionThreads) : Prop where
  registered : ∀ sessionId session,
    threads.manager.getSession sessionId = some session ↔
      MapEvent.Present events sessionId session
  ownId : ∀ sessionId session,
    threads.manager.getSession sessionId = some session →
    ∃ shared, threads.manager.objects.cell session = some shared ∧
      shared.session.sessionId = sessionId
  counted : ∃ sessions : List (SessionId × SessionPtr),
    Lists sessions (fun entry =>
      MapEvent.Present events entry.1 entry.2) ∧
    threads.manager.getActiveSessionCount = sessions.length

/-- The session's own id is absent, and the other entries are as before. -/
structure EntryLeft (before : SessionThreads) (session : SessionPtr)
    (sessionId : SessionId) (after : SessionThreads) : Prop where
  own : ∃ shared, before.manager.objects.cell session = some shared ∧
    shared.session.sessionId = sessionId
  absent : after.manager.getSession sessionId = none
  others : ∀ other, other ≠ sessionId →
    after.manager.getSession other = before.manager.getSession other

structure HandlersEnd (before : SessionThreads) (label : SessionLabel)
    (after : SessionThreads) : Prop where
  removes : ∀ user generated session sessionId,
    label = .advance user generated →
    before.users.cell user = some (.handlerRemoves session sessionId) →
    EntryLeft before session sessionId after
  ends : ∀ user point, before.users.cell user = some point →
    point.isHandler = true → after.users.cell user = none →
    point = .handlerStarts none ∧ after.manager = before.manager ∨
      ∃ session sessionId, point = .handlerRemoved session sessionId ∧
        EntryLeft before session sessionId after

def UserShares (manager : SessionManager) (events : List SessionEvent)
    (user : FrameId) (point : SessionPoint) (session : SessionPtr) : Prop :=
  ∃ shared, manager.objects.cell session = some shared ∧
    .frame user ∈ shared.owners ∧
    shared.session.sessionId ∈ MapEvent.inserted events ∧
    ∀ sessionId, point.sessionId = some sessionId →
      shared.session.sessionId = sessionId

structure Tracked (manager : SessionManager) (users : Heap SessionPoint)
    (events : List SessionEvent) : Prop where
  owned : manager.EntriesOwned
  contents : ∀ sessionId,
    manager.getSession sessionId = MapEvent.contents events sessionId
  shares : ∀ user point session, users.cell user = some point →
    point.session = some session →
    UserShares manager events user point session
  removed : ∀ user session sessionId,
    users.cell user = some (.handlerRemoved session sessionId) →
    manager.getSession sessionId = none

theorem UserShares.retained {kept : Owner → Prop}
    (shares : UserShares before events user point session)
    (retains : Retains GameSession.sessionId kept before after)
    (keeps : kept (.frame user))
    (grown : MapEvent.inserted events ⊆ MapEvent.inserted events') :
    UserShares after events' user point session := by
  obtain ⟨shared, stored, owns, known, own⟩ := shares
  obtain ⟨shared', stored', owns', same⟩ :=
    retains.owned session shared _ keeps stored owns
  refine ⟨shared', stored', owns', ?_, fun sessionId isLocal => ?_⟩
  · rw [same]
    exact grown known
  · exact same.trans (own sessionId isLocal)

/-- A sweep removes the entries it finds expired, whatever it removes before it
comes to them. -/
theorem mem_expiredIds_iff (owned : manager.EntriesOwned)
    {order : List SessionEntry} {readings : List Nat}
    (visits : order.Perm manager.sessions.entries) :
    sessionId ∈ manager.expiredIds order readings ↔
      sessionId ∈ manager.foundExpired order readings := by
  obtain ⟨entries, distinct⟩ := entries_of_visits visits
  rw [mem_foundExpired_iff owned entries distinct, expiredIds, List.mem_map]
  apply exists_congr
  intro visited
  rw [List.mem_filter, and_assoc]
  exact and_congr_right fun _ => and_comm

namespace Tracked

theorem changed (tracked : Tracked before users events)
    (owned : after.EntriesOwned)
    (retains : Retains GameSession.sessionId
      (fun owner => ∃ user, owner = .frame user) before after)
    (contents : ∀ sessionId,
      after.getSession sessionId = MapEvent.contents events' sessionId)
    (grown : MapEvent.inserted events ⊆ MapEvent.inserted events')
    (removed : ∀ user session sessionId,
      users.cell user = some (.handlerRemoved session sessionId) →
      after.getSession sessionId = none) :
    Tracked after users events' where
  owned := owned
  contents := contents
  shares := fun user point session found has =>
    (tracked.shares user point session found has).retained retains ⟨user, rfl⟩
      grown
  removed := removed

theorem addSession (tracked : Tracked manager users events)
    (client : Option File) (now : Nat)
    (fresh : generated ∉ MapEvent.inserted events) :
    Tracked (manager.addSession client generated now) users
      (events ++ [.insert generated manager.objects.next]) := by
  refine tracked.changed (tracked.owned.addSession client now)
    (.addSession client now ?_) (fun sessionId => ?_) ?_
    fun user session sessionId found => ?_
  · rintro _ ⟨user, rfl⟩ same
    cases same
  · rw [getSession, addSession_lookup, MapEvent.contents_insert,
      ← tracked.contents]
    rfl
  · rw [MapEvent.inserted_append]
    exact List.subset_append_left _ _
  · obtain ⟨shared, stored, -, known, own⟩ :=
      tracked.shares user _ session found rfl
    have different : sessionId ≠ generated := by
      rintro rfl
      rw [own sessionId rfl] at known
      exact fresh known
    rw [getSession, addSession_lookup, if_neg different]
    exact tracked.removed user session sessionId found

theorem removeSession (tracked : Tracked manager users events) :
    Tracked (manager.removeSession sessionId) users
      (events ++ [.erase .removed sessionId]) := by
  refine tracked.changed tracked.owned.removeSession (.removeSession ?_)
    (fun other => ?_) ?_ fun user session other found => ?_
  · rintro _ ⟨user, rfl⟩ same
    cases same
  · rw [getSession, removeSession_lookup, MapEvent.contents_erase,
      ← tracked.contents]
    rfl
  · rw [MapEvent.inserted_append]
    exact List.subset_append_left _ _
  · rw [getSession, removeSession_lookup]
    split
    · rfl
    · exact tracked.removed user session other found

theorem sweep (tracked : Tracked manager users events)
    {order : List SessionEntry}
    (visits : order.Perm manager.sessions.entries) (readings : List Nat) :
    Tracked (manager.cleanupExpiredSessions order readings) users
      (events ++ (manager.expiredIds order readings).map
        (.erase .expired)) := by
  refine tracked.changed (tracked.owned.sweep order readings)
    (sweep_retains order readings ?_) (fun sessionId => ?_) ?_
    fun user session sessionId found => ?_
  · rintro _ ⟨user, rfl⟩ sessionId - same
    cases same
  · rw [getSession, cleanupExpiredSessions, sweep_lookup,
      MapEvent.contents_erasures, ← tracked.contents]
    exact if_congr (mem_expiredIds_iff tracked.owned visits).symm rfl rfl
  · rw [MapEvent.inserted_append]
    exact List.subset_append_left _ _
  · rw [getSession, cleanupExpiredSessions, sweep_lookup]
    split
    · rfl
    · exact tracked.removed user session sessionId found

theorem modify (tracked : Tracked manager users events)
    (change : GameSession → GameSession)
    (same : ∀ contents, (change contents).sessionId = contents.sessionId) :
    Tracked (manager.modifySession session change) users events := by
  have sessions : (manager.modifySession session change).sessions =
      manager.sessions := modifySession_sessions change
  refine tracked.changed (tracked.owned.modifySession change same)
    (.modifySession change same) (fun sessionId => ?_)
    (List.Subset.refl _) fun user session sessionId found => ?_
  · rw [getSession, sessions]
    exact tracked.contents sessionId
  · rw [getSession, sessions]
    exact tracked.removed user session sessionId found

theorem put (tracked : Tracked manager users events)
    (shares : ∀ session, point.session = some session →
      UserShares manager events user point session)
    (removed : ∀ session sessionId,
      point = .handlerRemoved session sessionId →
      manager.getSession sessionId = none) :
    Tracked manager (users.put user point) events where
  owned := tracked.owned
  contents := tracked.contents
  shares := fun other contents session found has => by
    rcases Heap.put_cases found with ⟨rfl, rfl⟩ | ⟨-, earlier⟩
    · exact shares session has
    · exact tracked.shares other contents session earlier has
  removed := fun other session sessionId found => by
    rcases Heap.put_cases found with ⟨-, same⟩ | ⟨-, earlier⟩
    · exact removed session sessionId same.symm
    · exact tracked.removed other session sessionId earlier

theorem moves {old : SessionPoint} (tracked : Tracked manager users events)
    (found : users.cell user = some old)
    (sameSession : point.session = old.session)
    (sameId : point.sessionId = old.sessionId)
    (removed : ∀ session sessionId,
      point = .handlerRemoved session sessionId →
      manager.getSession sessionId = none) :
    Tracked manager (users.put user point) events := by
  refine tracked.put (fun session has => ?_) removed
  obtain ⟨shared, stored, owns, known, own⟩ :=
    tracked.shares user old session found (sameSession.symm.trans has)
  exact ⟨shared, stored, owns, known,
    fun sessionId isLocal => own sessionId (sameId.symm.trans isLocal)⟩

/-- A user that had no session goes on with a copy of a `shared_ptr`. -/
theorem give (tracked : Tracked manager users events)
    {shared : SharedSession}
    (stored : manager.objects.cell session = some shared)
    (known : shared.session.sessionId ∈ MapEvent.inserted events)
    (has : point.session = some session) (noId : point.sessionId = none) :
    Tracked (manager.share session (.frame user)) (users.put user point)
      events := by
  have retained : Tracked (manager.share session (.frame user)) users
      events := by
    refine tracked.changed (tracked.owned.share _) (.share _)
      (fun sessionId => ?_) (List.Subset.refl _)
      fun user session sessionId found => ?_
    · rw [getSession, share_sessions]
      exact tracked.contents sessionId
    · rw [getSession, share_sessions]
      exact tracked.removed user session sessionId found
  refine retained.put (fun other same => ?_) fun session sessionId same => ?_
  · cases has.symm.trans same
    refine ⟨{ shared with owners := .frame user :: shared.owners }, ?_,
      .head _, known, fun sessionId isLocal => ?_⟩
    · rw [share_cell, if_pos rfl, stored, Option.map_some]
    · cases noId.symm.trans isLocal
  · subst same
    cases noId

theorem finish (tracked : Tracked manager users events)
    (ending : Option SessionPtr) :
    Tracked (match ending with
      | none => manager
      | some session => manager.release session (.frame user))
      (users.free user) events := by
  have retains : Retains GameSession.sessionId
      (fun owner => ∃ other, owner = .frame other ∧ other ≠ user) manager
      (match ending with
        | none => manager
        | some session => manager.release session (.frame user)) := by
    split
    · exact .refl
    · refine .release ?_
      rintro _ ⟨other, rfl, different⟩ same
      exact different (Owner.frame.inj same)
  have lookup : ∀ sessionId, SessionManager.getSession
      (match ending with
        | none => manager
        | some session => manager.release session (.frame user)) sessionId =
      manager.getSession sessionId := by
    intro sessionId
    split
    · rfl
    · rw [getSession, release_sessions]
      rfl
  refine ⟨?_, fun sessionId => ?_, fun other contents session found has => ?_,
    fun other session sessionId found => ?_⟩
  · split
    · exact tracked.owned
    · exact tracked.owned.release user
  · rw [lookup]
    exact tracked.contents sessionId
  · obtain ⟨different, earlier⟩ := Heap.free_cases found
    exact (tracked.shares other contents session earlier has).retained retains
      ⟨other, rfl, different⟩ (List.Subset.refl _)
  · obtain ⟨-, earlier⟩ := Heap.free_cases found
    rw [lookup]
    exact tracked.removed other session sessionId earlier

theorem known (tracked : Tracked manager users events)
    (distinct : (MapEvent.inserted events).Nodup)
    (found : manager.getSession sessionId = some session) :
    ∃ shared, manager.objects.cell session = some shared ∧
      shared.session.sessionId ∈ MapEvent.inserted events := by
  obtain ⟨shared, stored, -, rfl⟩ := tracked.owned sessionId session found
  rw [tracked.contents] at found
  exact ⟨shared, stored,
    ((MapEvent.contents_eq_some_iff distinct).mp found).inserted⟩

end Tracked

variable {threads next last : SessionThreads} {label : SessionLabel}

def SessionThreads.Tracked (threads : SessionThreads)
    (events : List SessionEvent) : Prop :=
  CoUring.Tracked threads.manager threads.users events

theorem fresh_of_distinct
    (distinct : (MapEvent.inserted
      (events ++ [.insert generated session])).Nodup) :
    generated ∉ MapEvent.inserted events := by
  rw [MapEvent.inserted_append] at distinct
  exact fun member => List.disjoint_of_nodup_append distinct member (.head _)

namespace SessionThreads

theorem Advanced.tracked (tracked : threads.Tracked events)
    (distinct : (MapEvent.inserted events).Nodup)
    (advanced : Advanced threads user generated next)
    (distinct' : (MapEvent.inserted (events ++
      (SessionLabel.advance user generated).events threads)).Nodup) :
    next.Tracked
      (events ++ (SessionLabel.advance user generated).events threads) := by
  cases advanced with
  | clientNull found =>
      simp only [SessionLabel.events, found, List.append_nil]
      exact tracked.finish none
  | @clientAdds client found =>
      simp only [SessionLabel.events, found] at distinct' ⊢
      have added := tracked.addSession (some client) threads.clock
        (fresh_of_distinct distinct')
      exact added.put nofun nofun
  | clientGets found entry =>
      simp only [SessionLabel.events, found, List.append_nil]
      obtain ⟨shared, stored, known⟩ := tracked.known distinct entry
      exact tracked.give stored known rfl rfl
  | clientMisses found absent =>
      simp only [SessionLabel.events, found, List.append_nil]
      exact tracked.finish none
  | @clientAwaits session found =>
      simp only [SessionLabel.events, found, List.append_nil]
      obtain ⟨shared, stored, owns, known, -⟩ :=
        tracked.shares user _ session found rfl
      have given : CoUring.Tracked _ (threads.users.put threads.users.next
          (.handlerStarts (some session))) events :=
        tracked.give stored known rfl rfl
      have still := (Heap.cell_put_other threads.users
        (.handlerStarts (some session)) (Heap.ne_next found)).trans found
      exact given.moves still rfl rfl nofun
  | handlerNull found =>
      simp only [SessionLabel.events, found, List.append_nil]
      exact tracked.finish none
  | @handlerConnects session shared found stored =>
      simp only [SessionLabel.events, found, List.append_nil]
      obtain ⟨shared', stored', owns, known, -⟩ :=
        tracked.shares user _ session found rfl
      cases stored.symm.trans stored'
      have retains : Retains GameSession.sessionId (fun _ => True)
          threads.manager (threads.manager.modifySession session
            (·.onConnected threads.clock)) :=
        .modifySession _ fun _ => rfl
      have shares : UserShares threads.manager events user
          (.handlerLoops session shared.session.sessionId) session :=
        ⟨shared, stored, owns, known, fun _ same => Option.some.inj same⟩
      refine (tracked.modify (·.onConnected threads.clock) fun _ => rfl).put
        (fun other same => ?_) nofun
      cases same
      exact shares.retained retains trivial (List.Subset.refl _)
  | handlerDisconnects found =>
      simp only [SessionLabel.events, found, List.append_nil]
      exact (tracked.modify GameSession.onDisconnected fun _ => rfl).moves
        found rfl rfl nofun
  | handlerRemoves found =>
      simp only [SessionLabel.events, found]
      refine tracked.removeSession.moves found rfl rfl
        fun session sessionId same => ?_
      cases same
      rw [getSession, removeSession_lookup, if_pos rfl]
  | handlerEnds found =>
      simp only [SessionLabel.events, found, List.append_nil]
      exact tracked.finish (some _)

theorem Stepped.tracked (tracked : threads.Tracked events)
    (distinct : (MapEvent.inserted events).Nodup)
    (stepped : Stepped threads label next)
    (distinct' : (MapEvent.inserted
      (events ++ label.events threads)).Nodup) :
    next.Tracked (events ++ label.events threads) := by
  have silent : events ++ [] = events := List.append_nil events
  cases stepped with
  | addSession =>
      exact tracked.addSession _ threads.clock (fresh_of_distinct distinct')
  | getSession entry =>
      obtain ⟨shared, stored, known⟩ := tracked.known distinct entry
      exact silent.symm ▸ tracked.give stored known rfl rfl
  | removeSession => exact tracked.removeSession
  | cleanup visits => exact tracked.sweep visits _
  | handleClientSession => exact silent.symm ▸ tracked.put nofun nofun
  | handleNull => exact silent.symm ▸ tracked.put nofun nofun
  | handleSession found =>
      obtain ⟨shared, stored, -, known, -⟩ :=
        tracked.shares _ _ _ found rfl
      exact silent.symm ▸ tracked.give stored known rfl rfl
  | advance advanced => exact advanced.tracked tracked distinct distinct'
  | data found =>
      exact silent.symm ▸
        tracked.modify (·.updateHeartbeat threads.clock) fun _ => rfl
  | leaveLoop found => exact silent.symm ▸ tracked.moves found rfl rfl nofun
  | dropSession found => exact silent.symm ▸ tracked.finish (some _)
  | getNull | count | noData | tick => exact silent.symm ▸ tracked

theorem Tracked.refined (tracked : threads.Tracked events)
    (distinct : (MapEvent.inserted events).Nodup) :
    SessionsRefined events threads := by
  have registered : ∀ sessionId session,
      threads.manager.getSession sessionId = some session ↔
        MapEvent.Present events sessionId session := by
    intro sessionId session
    rw [tracked.contents]
    exact MapEvent.contents_eq_some_iff distinct
  refine ⟨registered, fun sessionId session found => ?_, ?_⟩
  · obtain ⟨shared, stored, -, own⟩ := tracked.owned sessionId session found
    exact ⟨shared, stored, own⟩
  · refine ⟨threads.manager.sessions.entries.map fun entry =>
      (entry.1, entry.2), ⟨?_, fun entry => ?_⟩, ?_⟩
    · refine List.Nodup.map ?_ threads.manager.sessions.nodupKeys.nodup
      rintro ⟨sessionId, session⟩ ⟨sessionId', session'⟩ same
      cases same
      rfl
    · rw [← registered, List.mem_map]
      constructor
      · rintro ⟨listed, member, rfl⟩
        exact AList.mem_lookup_iff.mpr member
      · intro found
        exact ⟨⟨entry.1, entry.2⟩, AList.mem_lookup_iff.mp found, rfl⟩
    · rw [getActiveSessionCount, List.length_map]

/-! The end of a handler. -/

theorem cell_goOn {other : FrameId}
    (gone : (threads.users.put user point).cell other = none) :
    threads.users.cell other = none := by
  have different : other ≠ user := by
    rintro rfl
    rw [Heap.cell_put_self] at gone
    cases gone
  exact (Heap.cell_put_other _ _ different).symm.trans gone

theorem cell_finish {other : FrameId}
    (gone : (threads.users.free user).cell other = none)
    (found : threads.users.cell other = some point) : other = user := by
  by_contra different
  rw [Heap.cell_free_other _ different, found] at gone
  cases gone

theorem Stepped.ends (stepped : Stepped threads label next)
    (found : threads.users.cell user = some point)
    (handler : point.isHandler = true)
    (gone : next.users.cell user = none) :
    point = .handlerStarts none ∧ next.manager = threads.manager ∨
      ∃ session sessionId, point = .handlerRemoved session sessionId ∧
        next = threads.finish user (some session) := by
  have stays : ∀ {other point'},
      (threads.users.put other point').cell user = none → False := by
    intro other point' gone
    cases (cell_goOn gone).symm.trans found
  cases stepped with
  | advance advanced =>
      cases advanced with
      | clientNull here =>
          cases cell_finish gone found
          cases here.symm.trans found
          cases handler
      | clientAdds here => exact (stays gone).elim
      | clientGets here entry => exact (stays gone).elim
      | clientMisses here absent =>
          cases cell_finish gone found
          cases here.symm.trans found
          cases handler
      | clientAwaits here => exact (stays (cell_goOn gone)).elim
      | handlerNull here =>
          cases cell_finish gone found
          cases here.symm.trans found
          exact .inl ⟨rfl, rfl⟩
      | handlerConnects here stored => exact (stays gone).elim
      | handlerDisconnects here => exact (stays gone).elim
      | handlerRemoves here => exact (stays gone).elim
      | @handlerEnds session sessionId here =>
          cases cell_finish gone found
          cases here.symm.trans found
          exact .inr ⟨session, sessionId, rfl, rfl⟩
  | dropSession here =>
      cases cell_finish gone found
      cases here.symm.trans found
      cases handler
  | getSession entry => exact (stays gone).elim
  | handleClientSession => exact (stays gone).elim
  | handleNull => exact (stays gone).elim
  | handleSession here => exact (stays gone).elim
  | leaveLoop here => exact (stays gone).elim
  | addSession | getNull | removeSession | cleanup | count | data | noData
  | tick => cases gone.symm.trans found

theorem advance_removes
    (found : threads.users.cell user =
      some (.handlerRemoves session sessionId)) :
    threads.advance user generated =
      some ((threads.removeSession sessionId).goOn user
        (.handlerRemoved session sessionId)) := by
  rw [advance, found]

theorem Tracked.own (tracked : threads.Tracked events)
    (found : threads.users.cell user = some point)
    (has : point.session = some session)
    (isLocal : point.sessionId = some sessionId) :
    ∃ shared, threads.manager.objects.cell session = some shared ∧
      shared.session.sessionId = sessionId := by
  obtain ⟨shared, stored, -, -, own⟩ :=
    tracked.shares user point session found has
  exact ⟨shared, stored, own sessionId isLocal⟩

theorem Tracked.handlersEnd (tracked : threads.Tracked events)
    (step : threads.step label = some next) :
    HandlersEnd threads label next := by
  refine ⟨fun user generated session sessionId isLabel found => ?_,
    fun user point found handler gone => ?_⟩
  · subst isLabel
    cases (advance_removes found).symm.trans step
    refine ⟨tracked.own found rfl rfl, ?_, fun other different => ?_⟩
    · exact removeSession_lookup.trans (if_pos rfl)
    · exact removeSession_lookup.trans (if_neg different)
  · rcases (step_cases step).ends found handler gone with
      null | ⟨session, sessionId, rfl, rfl⟩
    · exact .inl null
    · have lookup : ∀ other, (threads.finish user
          (some session)).manager.getSession other =
            threads.manager.getSession other := by
        intro other
        exact congrArg (AList.lookup other) release_sessions
      refine .inr ⟨session, sessionId, rfl, tracked.own found rfl rfl, ?_,
        fun other _ => lookup other⟩
      rw [lookup]
      exact tracked.removed user session sessionId found

end SessionThreads

theorem tracked_initial : SessionThreads.Tracked {} [] where
  owned := nofun
  contents := fun _ => rfl
  shares := nofun
  removed := nofun

theorem sessionEvents_snoc
    (history : List (SessionThreads × SessionLabel)) :
    sessionEvents (history ++ [(threads, label)]) =
      sessionEvents history ++ label.events threads := by
  simp [sessionEvents]

/-- The manager refines the set that the calls describe, as long as no id is
generated twice. -/
theorem session_manager_refines_set
    {history : List (SessionThreads × SessionLabel)}
    (run : sessionSystem.Execution {} history last)
    (distinct : GeneratedOnce history) :
    SessionsRefined (sessionEvents history) last ∧
    ∀ taken ∈ history, ∃ after, taken.1.step taken.2 = some after ∧
      HandlersEnd taken.1 taken.2 after := by
  suffices tracked : last.Tracked (sessionEvents history) ∧
      ∀ taken ∈ history, ∃ after, taken.1.step taken.2 = some after ∧
        HandlersEnd taken.1 taken.2 after from
    ⟨tracked.1.refined distinct, tracked.2⟩
  induction run with
  | refl => exact ⟨tracked_initial, nofun⟩
  | @snoc last next history label run step induction =>
      rw [GeneratedOnce, sessionEvents_snoc] at distinct
      have earlier : GeneratedOnce history := by
        rw [MapEvent.inserted_append] at distinct
        exact distinct.of_append_left
      obtain ⟨tracked, ends⟩ := induction earlier
      have stepped := SessionThreads.step_cases step
      rw [sessionEvents_snoc]
      refine ⟨stepped.tracked tracked earlier distinct,
        List.forall_mem_append.mpr ⟨ends, ?_⟩⟩
      exact List.forall_mem_singleton.mpr
        ⟨next, step, tracked.handlersEnd step⟩

/-- A client comes, its session expires and is swept, and the handler removes
it once more when the client leaves. -/
def sweptThenRemoved : List SessionLabel :=
  [.handleClientSession (some (.adopt 7)), .advance 0 "first", .advance 0 "",
    .advance 0 "", .advance 1 "", .tick (GameSession.defaultTimeout + 1),
    .addSession none "second",
    .cleanupExpiredSessions [⟨"second", 1⟩, ⟨"first", 0⟩]
      [GameSession.defaultTimeout + 1, GameSession.defaultTimeout + 1],
    .leaveLoop 1, .advance 1 "", .advance 1 "", .advance 1 ""]

theorem swept_then_removed_refines :
    ∃ last, TransitionSystem.runLabels SessionThreads.step {}
        sweptThenRemoved = some last ∧
      sessionEvents (TransitionSystem.traceLabels SessionThreads.step {}
        sweptThenRemoved) = [.insert "first" 0, .insert "second" 1,
        .erase .expired "first", .erase .removed "first"] ∧
      SessionsRefined (sessionEvents (TransitionSystem.traceLabels
        SessionThreads.step {} sweptThenRemoved)) last ∧
      ∀ taken ∈ TransitionSystem.traceLabels SessionThreads.step {}
          sweptThenRemoved,
        ∃ after, taken.1.step taken.2 = some after ∧
          HandlersEnd taken.1 taken.2 after := by
  have run : ∃ last, TransitionSystem.runLabels SessionThreads.step {}
      sweptThenRemoved = some last := ⟨_, rfl⟩
  have events : sessionEvents (TransitionSystem.traceLabels
      SessionThreads.step {} sweptThenRemoved) = [.insert "first" 0,
        .insert "second" 1, .erase .expired "first",
        .erase .removed "first"] := rfl
  obtain ⟨last, run⟩ := run
  refine ⟨last, run, events, session_manager_refines_set (.runLabels run) ?_⟩
  rw [GeneratedOnce, events]
  decide

end CoUring
