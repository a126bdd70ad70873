import CoUring.Session.SessionMap
import CoUring.Session.SessionThreads

namespace CoUring

open Foundation

/-! Who shares a session, against the count that keeps it alive. -/

namespace SessionManager

variable {manager : SessionManager} {held held' : FrameId → Option SessionPtr}
  {session other : SessionPtr} {owner : Owner} {sessionId : SessionId}
  {user : FrameId}

def ownersOf (manager : SessionManager) (session : SessionPtr) : List Owner :=
  (manager.objects.cell session).elim [] SharedSession.owners

theorem ownersOf_stored {shared : SharedSession}
    (stored : manager.objects.cell session = some shared) :
    manager.ownersOf session = shared.owners := by
  rw [ownersOf, stored]
  rfl

theorem ownersOf_gone (gone : manager.objects.cell session = none) :
    manager.ownersOf session = [] := by
  rw [ownersOf, gone]
  rfl

theorem ownersOf_modifySession (change : GameSession → GameSession) :
    (manager.modifySession session change).ownersOf other =
      manager.ownersOf other := by
  rw [ownersOf, modifySession_cell]
  split
  · rw [ownersOf]
    cases manager.objects.cell other <;> rfl
  · rfl

theorem ownersOf_share {shared : SharedSession}
    (stored : manager.objects.cell session = some shared) :
    (manager.share session owner).ownersOf other =
      if other = session then owner :: manager.ownersOf other
      else manager.ownersOf other := by
  rw [ownersOf, share_cell]
  split
  next same =>
    subst same
    rw [ownersOf, stored]
    rfl
  next different => rfl

theorem ownersOf_release :
    (manager.release session owner).ownersOf other =
      if other = session then (manager.ownersOf other).erase owner
      else manager.ownersOf other := by
  split
  next same =>
    subst same
    cases stored : manager.objects.cell other with
    | none =>
        rw [release, stored, ownersOf_gone stored]
        rfl
    | some shared =>
        rw [ownersOf_stored stored]
        by_cases last : shared.owners.erase owner = []
        · rw [last]
          apply ownersOf_gone
          rw [release, stored]
          dsimp only
          rw [if_pos last]
          exact Heap.cell_free_self _ _
        · exact ownersOf_stored (release_self stored last)
  next different => rw [ownersOf, release_other different, ownersOf]

/-- What an owner refers to: the entry of the map, or the `shared_ptr` that the
frame holds. -/
def Refers (manager : SessionManager) (held : FrameId → Option SessionPtr) :
    Owner → SessionPtr → Prop
  | .mapEntry sessionId, session => manager.getSession sessionId = some session
  | .frame user, session => held user = some session

/-- A session is there as long as something refers to it, and what does is
counted once. -/
structure UseCounted (manager : SessionManager)
    (held : FrameId → Option SessionPtr) : Prop where
  nodup : ∀ session, (manager.ownersOf session).Nodup
  alive : ∀ session shared, manager.objects.cell session = some shared →
    shared.owners ≠ []
  mem_iff : ∀ session owner,
    owner ∈ manager.ownersOf session ↔ manager.Refers held owner session

namespace UseCounted

theorem congr {after : SessionManager} (counted : UseCounted manager held)
    (owners : ∀ session, after.ownersOf session = manager.ownersOf session)
    (alive : ∀ session shared, after.objects.cell session = some shared →
      shared.owners ≠ [])
    (refers : ∀ owner session,
      after.Refers held' owner session ↔ manager.Refers held owner session) :
    UseCounted after held' where
  nodup := fun session => by
    rw [owners]
    exact counted.nodup session
  alive := alive
  mem_iff := fun session owner => by
    rw [owners, refers]
    exact counted.mem_iff session owner

theorem stored (counted : UseCounted manager held)
    (refers : manager.Refers held owner session) :
    ∃ shared, manager.objects.cell session = some shared := by
  have owns := (counted.mem_iff session owner).mpr refers
  cases found : manager.objects.cell session with
  | none =>
      rw [ownersOf_gone found] at owns
      cases owns
  | some shared => exact ⟨shared, rfl⟩

theorem same (counted : UseCounted manager held)
    (owns : owner ∈ manager.ownersOf session)
    (owns' : owner ∈ manager.ownersOf other) : session = other := by
  have refers := (counted.mem_iff session owner).mp owns
  have refers' := (counted.mem_iff other owner).mp owns'
  cases owner with
  | mapEntry sessionId => exact Option.some.inj (refers.symm.trans refers')
  | frame user => exact Option.some.inj (refers.symm.trans refers')

end UseCounted

/-- `AddSession` before it assigns to the map. -/
def created (manager : SessionManager) (contents : GameSession)
    (sessionId : SessionId) : SessionManager :=
  { manager with
    objects := manager.objects.put manager.objects.next
      ⟨contents, [.mapEntry sessionId]⟩ }

theorem ownersOf_created (contents : GameSession) :
    (manager.created contents sessionId).ownersOf session =
      if session = manager.objects.next then [.mapEntry sessionId]
      else manager.ownersOf session := by
  split
  next new =>
    subst new
    rw [ownersOf, created, Heap.cell_put_self]
    rfl
  next old => rw [ownersOf, created, Heap.cell_put_other _ _ old, ownersOf]

theorem ownersOf_releaseEntry :
    (manager.releaseEntry sessionId).ownersOf other =
      if manager.getSession sessionId = some other then
        (manager.ownersOf other).erase (.mapEntry sessionId)
      else manager.ownersOf other := by
  rw [releaseEntry, getSession]
  split
  next absent =>
    rw [if_neg]
    intro found
    cases absent.symm.trans found
  next session found =>
    rw [ownersOf_release, found]
    simp only [Option.some.injEq, eq_comm]

theorem release_alive
    (alive : ∀ session shared, manager.objects.cell session = some shared →
      shared.owners ≠ []) (other : SessionPtr) {shared : SharedSession}
    (found : (manager.release session owner).objects.cell other =
      some shared) : shared.owners ≠ [] := by
  unfold release at found
  split at found
  · exact alive other shared found
  next contents stored =>
    dsimp only at found
    split at found
    · exact alive other shared (Heap.free_cases found).2
    next left =>
      rcases Heap.put_cases found with ⟨-, rfl⟩ | ⟨-, earlier⟩
      · exact left
      · exact alive other shared earlier

theorem releaseEntry_alive
    (alive : ∀ session shared, manager.objects.cell session = some shared →
      shared.owners ≠ []) (other : SessionPtr) {shared : SharedSession}
    (found : (manager.releaseEntry sessionId).objects.cell other =
      some shared) : shared.owners ≠ [] := by
  unfold releaseEntry at found
  split at found
  · exact alive other shared found
  · exact release_alive alive other found

namespace UseCounted

theorem modifySession (counted : UseCounted manager held)
    (change : GameSession → GameSession) :
    UseCounted (manager.modifySession session change) held := by
  apply counted.congr (fun _ => ownersOf_modifySession change)
  · intro other shared found
    rw [modifySession_cell] at found
    split at found
    · obtain ⟨contents, stored, rfl⟩ := Option.map_eq_some_iff.mp found
      exact counted.alive other contents stored
    · exact counted.alive other shared found
  · intro owner other
    cases owner with
    | mapEntry sessionId =>
        rw [Refers, getSession, modifySession_sessions change]
        rfl
    | frame user => rfl

theorem leave (counted : UseCounted manager held)
    (refers : manager.Refers held owner session)
    (sessions : AList fun _ : SessionId => SessionPtr)
    (left : ∀ owner' other,
      { manager with sessions := sessions }.Refers held' owner' other ↔
        owner' ≠ owner ∧ manager.Refers held owner' other) :
    UseCounted { manager.release session owner with sessions := sessions }
      held' where
  nodup := fun other => by
    change ((manager.release session owner).ownersOf other).Nodup
    rw [ownersOf_release]
    split
    · exact (counted.nodup other).erase owner
    · exact counted.nodup other
  alive := fun other shared found =>
    release_alive counted.alive other found
  mem_iff := fun other owner' => by
    have sameRefers : { manager.release session owner with
        sessions := sessions }.Refers held' owner' other ↔
        { manager with sessions := sessions }.Refers held' owner' other := by
      cases owner' <;> rfl
    rw [sameRefers, left, ← counted.mem_iff other owner']
    change owner' ∈ (manager.release session owner).ownersOf other ↔ _
    rw [ownersOf_release]
    split
    · exact (counted.nodup other).mem_erase_iff
    next different =>
      refine (and_iff_right_of_imp ?_).symm
      intro owns same
      subst same
      exact different (counted.same owns
        ((counted.mem_iff session owner').mpr refers))

/-- An owner that referred to nothing shares a session. -/
theorem join (counted : UseCounted manager held)
    (refers : manager.Refers held owner session)
    (free : held user = none)
    (taken : ∀ other, held' other =
      if other = user then some session else held other) :
    UseCounted (manager.share session (.frame user)) held' := by
  obtain ⟨shared, stored⟩ := counted.stored refers
  have noneYet : ∀ other, .frame user ∉ manager.ownersOf other := by
    intro other owns
    cases free.symm.trans ((counted.mem_iff other _).mp owns)
  refine ⟨?_, ?_, ?_⟩
  · intro other
    rw [ownersOf_share stored]
    split
    · exact List.nodup_cons.mpr ⟨noneYet other, counted.nodup other⟩
    · exact counted.nodup other
  · intro other contents found
    rw [share_cell] at found
    split at found
    · obtain ⟨earlier, -, rfl⟩ := Option.map_eq_some_iff.mp found
      exact List.cons_ne_nil _ _
    · exact counted.alive other contents found
  · intro other owner'
    rw [ownersOf_share stored]
    cases owner' with
    | mapEntry sessionId =>
        rw [Refers, getSession, share_sessions]
        split
        · rw [List.mem_cons, or_iff_right nofun]
          exact counted.mem_iff other (.mapEntry sessionId)
        · exact counted.mem_iff other (.mapEntry sessionId)
    | frame user' =>
        have member := counted.mem_iff other (.frame user')
        rw [Refers] at member ⊢
        rw [taken]
        by_cases same : user' = user
        · subst same
          rw [if_pos rfl]
          split
          next here => simp [here]
          next different =>
            exact ⟨fun owns => (noneYet other owns).elim,
              fun isSession => (different (Option.some.inj isSession).symm).elim⟩
        · rw [if_neg same]
          split
          · rw [List.mem_cons, or_iff_right (by simpa using same)]
            exact member
          · exact member

theorem removeSession (counted : UseCounted manager held) :
    UseCounted (manager.removeSession sessionId) held := by
  have refersLeft : ∀ owner other,
      { manager with sessions := manager.sessions.erase sessionId }.Refers held
          owner other ↔
        owner ≠ .mapEntry sessionId ∧ manager.Refers held owner other := by
    intro owner other
    cases owner with
    | frame user => exact (and_iff_right nofun).symm
    | mapEntry otherId =>
        change AList.lookup otherId (manager.sessions.erase sessionId) = _ ↔ _
        by_cases same : otherId = sessionId
        · subst same
          simp [AList.lookup_erase]
        · simp [AList.lookup_erase_ne same, same, Refers, getSession]
  rw [SessionManager.removeSession, releaseEntry]
  split
  next absent =>
    refine counted.congr (fun _ => rfl) counted.alive fun owner other => ?_
    refine (refersLeft owner other).trans (and_iff_right_of_imp ?_)
    intro refers same
    subst same
    cases absent.symm.trans refers
  next session found =>
    have refers : manager.Refers held (.mapEntry sessionId) session := found
    exact counted.leave refers _ refersLeft

theorem sweep (counted : UseCounted manager held)
    (order : List SessionEntry) (readings : List Nat) :
    UseCounted (manager.sweep order readings) held := by
  induction order generalizing manager readings with
  | nil => exact counted
  | cons entry order induction =>
      cases readings with
      | nil => exact counted
      | cons now readings =>
          rw [SessionManager.sweep]
          split
          · exact induction counted.removeSession readings
          · exact induction counted readings

theorem unused (counted : UseCounted manager held) (owner : Owner) :
    ¬ manager.Refers held owner manager.objects.next := by
  intro refers
  obtain ⟨shared, stored⟩ := counted.stored refers
  cases (Heap.cell_next manager.objects).symm.trans stored

theorem ownersOf_addSession (counted : UseCounted manager held)
    (client : Option File) (now : Nat) (session : SessionPtr) :
    (manager.addSession client sessionId now).ownersOf session =
      if session = manager.objects.next then [.mapEntry sessionId]
      else (manager.removeSession sessionId).ownersOf session := by
  have reads : (manager.created { client, sessionId, lastHeartbeat := now }
      sessionId).getSession sessionId = manager.getSession sessionId := rfl
  change ((manager.created { client, sessionId, lastHeartbeat := now }
    sessionId).releaseEntry sessionId).ownersOf session = if _ then _
      else (manager.releaseEntry sessionId).ownersOf session
  rw [ownersOf_releaseEntry, ownersOf_releaseEntry, ownersOf_created, reads]
  by_cases new : session = manager.objects.next
  · have unused : ¬ manager.getSession sessionId = some manager.objects.next :=
      counted.unused (.mapEntry sessionId)
    subst new
    rw [if_neg unused, if_pos rfl, if_pos rfl]
  · rw [if_neg new, if_neg new]

theorem addSession (counted : UseCounted manager held)
    (client : Option File) (now : Nat) :
    UseCounted (manager.addSession client sessionId now) held := by
  have removed : UseCounted (manager.removeSession sessionId) held :=
    counted.removeSession
  refine ⟨fun session => ?_, fun session shared found => ?_,
    fun session owner => ?_⟩
  · rw [counted.ownersOf_addSession]
    split
    · exact List.nodup_singleton _
    · exact removed.nodup session
  · refine releaseEntry_alive ?_ session found
    intro other contents stored
    rcases Heap.put_cases stored with ⟨-, rfl⟩ | ⟨-, earlier⟩
    · exact List.cons_ne_nil _ _
    · exact counted.alive other contents earlier
  · rw [counted.ownersOf_addSession]
    have earlier := removed.mem_iff session owner
    cases owner with
    | frame user =>
        split
        next new =>
          subst new
          exact iff_of_false (by simp) (counted.unused (.frame user))
        next old => exact earlier
    | mapEntry otherId =>
        rw [Refers, getSession, removeSession_lookup] at earlier
        rw [Refers, getSession, addSession_lookup]
        have unused := counted.unused (.mapEntry otherId)
        rw [Refers, getSession] at unused
        by_cases sameId : otherId = sessionId
        · subst sameId
          rw [if_pos rfl] at earlier ⊢
          split
          next new => simp [new]
          next old =>
            refine earlier.trans (iff_of_false nofun ?_)
            exact fun found => old (Option.some.inj found).symm
        · rw [if_neg sameId] at earlier ⊢
          split
          next new =>
            subst new
            exact iff_of_false (by simpa using sameId) unused
          next old => exact earlier

end UseCounted

end SessionManager

namespace SessionThreads

open SessionManager

variable {threads next last : SessionThreads} {label : SessionLabel}
  {users : Heap SessionPoint} {user : FrameId} {generated : SessionId}
  {manager : SessionManager} {point : SessionPoint} {session : SessionPtr}

def held (users : Heap SessionPoint) (user : FrameId) : Option SessionPtr :=
  (users.cell user).bind SessionPoint.session

theorem held_found (found : users.cell user = some point) :
    held users user = point.session := by
  rw [held, found, Option.bind_some]

theorem held_put (other : FrameId) :
    held (users.put user point) other =
      if other = user then point.session else held users other := by
  split
  next same =>
    subst same
    exact held_found (Heap.cell_put_self _ _ _)
  next different => rw [held, Heap.cell_put_other _ _ different, held]

theorem held_free (other : FrameId) :
    held (users.free user) other =
      if other = user then none else held users other := by
  split
  next same =>
    subst same
    rw [held, Heap.cell_free_self, Option.bind_none]
  next different => rw [held, Heap.cell_free_other _ different, held]

theorem held_next : held users users.next = none := by
  rw [held, Heap.cell_next, Option.bind_none]

abbrev Counted (threads : SessionThreads) : Prop :=
  UseCounted threads.manager (held threads.users)

theorem UseCounted.moves {old : SessionPoint}
    (counted : UseCounted manager (held users))
    (found : users.cell user = some old)
    (same : point.session = old.session) :
    UseCounted manager (held (users.put user point)) := by
  have unchanged : held (users.put user point) = held users := by
    funext other
    rw [held_put]
    split
    next here => rw [here, held_found found, same]
    next => rfl
  rw [unchanged]
  exact counted

theorem UseCounted.starts (counted : UseCounted manager (held users))
    (none : point.session = none) :
    UseCounted manager (held (users.put users.next point)) := by
  have unchanged : held (users.put users.next point) = held users := by
    funext other
    rw [held_put]
    split
    next here => rw [here, none, held_next]
    next => rfl
  rw [unchanged]
  exact counted

theorem UseCounted.give (counted : UseCounted manager (held users))
    (owner : Owner) (refers : manager.Refers (held users) owner session)
    (free : held users user = none) (has : point.session = some session) :
    UseCounted (manager.share session (.frame user))
      (held (users.put user point)) :=
  counted.join refers free fun other => by rw [held_put, has]

theorem UseCounted.drop (counted : UseCounted manager (held users))
    (found : held users user = some session) :
    UseCounted (manager.release session (.frame user))
      (held (users.free user)) := by
  have refers : manager.Refers (held users) (.frame user) session := found
  have sessions : (manager.release session (.frame user)).sessions =
      manager.sessions := release_sessions
  have left : UseCounted { manager.release session (.frame user) with
      sessions := manager.sessions } (held (users.free user)) := by
    refine counted.leave refers _ fun owner other => ?_
    cases owner with
    | mapEntry sessionId => exact (and_iff_right nofun).symm
    | frame user' =>
        rw [Refers, Refers, held_free]
        by_cases same : user' = user
        · simp [same]
        · simp [same]
  rw [← sessions] at left
  exact left

theorem Counted.finish (counted : threads.Counted)
    (found : threads.users.cell user = some point) :
    (threads.finish user point.session).Counted := by
  have holds := held_found found
  unfold SessionThreads.finish Counted
  cases has : point.session with
  | none =>
      have unchanged : held (threads.users.free user) = held threads.users := by
        funext other
        rw [held_free]
        split
        next here => rw [here, holds, has]
        next => rfl
      change UseCounted threads.manager (held (threads.users.free user))
      rw [unchanged]
      exact counted
  | some session => exact UseCounted.drop counted (holds.trans has)

theorem Advanced.counted (counted : threads.Counted)
    (advanced : Advanced threads user generated next) : next.Counted := by
  cases advanced with
  | clientNull found => exact Counted.finish counted found
  | clientAdds found =>
      exact UseCounted.moves (counted.addSession _ _) found rfl
  | clientGets found entry =>
      exact UseCounted.give counted (.mapEntry _) entry
        (held_found found) rfl
  | clientMisses found absent => exact Counted.finish counted found
  | @clientAwaits session found =>
      have given : UseCounted _ (held (threads.users.put threads.users.next
          (.handlerStarts (some session)))) :=
        UseCounted.give counted (.frame user) (held_found found) held_next rfl
      have still := (Heap.cell_put_other threads.users
        (.handlerStarts (some session)) (Heap.ne_next found)).trans found
      exact UseCounted.moves given still rfl
  | handlerNull found => exact Counted.finish counted found
  | handlerConnects found stored =>
      exact UseCounted.moves
        (counted.modifySession (·.onConnected threads.clock)) found rfl
  | handlerDisconnects found =>
      exact UseCounted.moves
        (counted.modifySession GameSession.onDisconnected) found rfl
  | handlerRemoves found =>
      exact UseCounted.moves counted.removeSession found rfl
  | handlerEnds found => exact Counted.finish counted found

theorem Stepped.counted (counted : threads.Counted)
    (stepped : Stepped threads label next) : next.Counted := by
  cases stepped with
  | addSession => exact counted.addSession _ _
  | getSession entry =>
      exact UseCounted.give counted (.mapEntry _) entry held_next rfl
  | removeSession => exact counted.removeSession
  | cleanup visits => exact counted.sweep _ _
  | handleClientSession => exact UseCounted.starts counted rfl
  | handleNull => exact UseCounted.starts counted rfl
  | @handleSession keeper session found =>
      exact UseCounted.give counted (.frame keeper) (held_found found) held_next
        rfl
  | advance advanced => exact advanced.counted counted
  | data found =>
      exact counted.modifySession (·.updateHeartbeat threads.clock)
  | leaveLoop found => exact UseCounted.moves counted found rfl
  | dropSession found => exact Counted.finish counted found
  | getNull | count | noData | tick => exact counted

theorem counted_initial : Counted {} where
  nodup := fun _ => .nil
  alive := fun _ _ found => by cases found
  mem_iff := fun session owner => by
    refine iff_of_false List.not_mem_nil fun refers => ?_
    cases owner with
    | mapEntry sessionId => cases refers
    | frame user => cases refers

/-- Between any threads, each session is there as long as the map or a frame
shares it, and each of these is counted once. -/
theorem sessions_use_counted {history : List (SessionThreads × SessionLabel)}
    (run : sessionSystem.Execution {} history last) : last.Counted := by
  induction run with
  | refl => exact counted_initial
  | snoc run step induction =>
      exact Stepped.counted induction (step_cases step)

/-- The entry is replaced and removed while a thread and a handler share the
first session. -/
def sharedThenReplaced : List SessionLabel :=
  [.addSession (some (.adopt 7)) "id", .getSession "id",
    .handleSession (some 0), .addSession none "id", .getSession "id",
    .removeSession "id", .advance 1 "", .dropSession 0]

theorem shared_then_replaced_counted :
    ∃ last, TransitionSystem.runLabels SessionThreads.step {}
        sharedThenReplaced = some last ∧
      last.manager.ownersOf 0 = [.frame 1] ∧
      last.manager.ownersOf 1 = [.frame 2] ∧ last.Counted := by
  have run : ∃ last, TransitionSystem.runLabels SessionThreads.step {}
      sharedThenReplaced = some last ∧
      last.manager.ownersOf 0 = [.frame 1] ∧
      last.manager.ownersOf 1 = [.frame 2] := ⟨_, rfl, rfl, rfl⟩
  obtain ⟨last, run, first, second⟩ := run
  exact ⟨last, run, first, second, sessions_use_counted (.runLabels run)⟩

end SessionThreads

end CoUring
