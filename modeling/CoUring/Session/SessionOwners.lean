import CoUring.Session.SessionManager

namespace CoUring

open Foundation

namespace SessionManager

variable {before middle after manager : SessionManager}
  {kept : FrameId → Prop}
  {session other : SessionPtr} {owner : Owner} {sessionId : SessionId}

/-- Sessions that a kept frame owns survive, with their client. No session is
created and no entry added. -/
structure Lasting (kept : FrameId → Prop)
    (before after : SessionManager) : Prop where
  next : after.objects.next = before.objects.next
  entries : ∀ sessionId session,
    after.sessions.lookup sessionId = some session →
      before.sessions.lookup sessionId = some session
  owned : ∀ session shared frame, kept frame →
    before.objects.cell session = some shared →
    .frame frame ∈ shared.owners →
    ∃ shared', after.objects.cell session = some shared' ∧
      .frame frame ∈ shared'.owners ∧
      shared'.session.client = shared.session.client

theorem Lasting.refl (manager : SessionManager) :
    Lasting kept manager manager where
  next := rfl
  entries := fun _ _ found => found
  owned := fun _ shared _ _ stored owns =>
    ⟨shared, stored, owns, rfl⟩

theorem Lasting.trans (first : Lasting kept before middle)
    (second : Lasting kept middle after) :
    Lasting kept before after where
  next := second.next.trans first.next
  entries := fun sessionId session found =>
    first.entries _ _ (second.entries _ _ found)
  owned := fun session shared frame keeps stored owns => by
    obtain ⟨shared', stored', owns', client'⟩ :=
      first.owned session shared frame keeps stored owns
    obtain ⟨shared'', stored'', owns'', client''⟩ :=
      second.owned session shared' frame keeps stored' owns'
    exact ⟨shared'', stored'', owns'', client''.trans client'⟩

/-! The stored objects after each operation. -/

theorem modifySession_cell (change : GameSession → GameSession) :
    (manager.modifySession session change).objects.cell other =
      if other = session then
        (manager.objects.cell other).map fun shared =>
          { shared with session := change shared.session }
      else manager.objects.cell other := by
  unfold modifySession
  split
  next missing =>
    split
    next same => simp [same, missing]
    next different => rfl
  next shared stored =>
    split
    next same =>
      subst same
      simp [stored]
    next different => exact Heap.cell_put_other _ _ different

theorem share_cell :
    (manager.share session owner).objects.cell other =
      if other = session then
        (manager.objects.cell other).map fun shared =>
          { shared with owners := owner :: shared.owners }
      else manager.objects.cell other := by
  unfold share
  split
  next missing =>
    split
    next same => simp [same, missing]
    next different => rfl
  next shared stored =>
    split
    next same =>
      subst same
      simp [stored]
    next different => exact Heap.cell_put_other _ _ different

theorem release_other (different : other ≠ session) :
    (manager.release session owner).objects.cell other =
      manager.objects.cell other := by
  unfold release
  split
  · rfl
  · dsimp only
    split
    · exact Heap.cell_free_other _ different
    · exact Heap.cell_put_other _ _ different

theorem release_self {shared : SharedSession}
    (stored : manager.objects.cell session = some shared)
    (left : shared.owners.erase owner ≠ []) :
    (manager.release session owner).objects.cell session =
      some { shared with owners := shared.owners.erase owner } := by
  simp [release, stored, left]

theorem release_sessions :
    (manager.release session owner).sessions = manager.sessions := by
  unfold release
  split
  · rfl
  · dsimp only
    split <;> rfl

theorem modifySession_next (change : GameSession → GameSession) :
    (manager.modifySession session change).objects.next =
      manager.objects.next := by
  unfold modifySession
  split
  · rfl
  next shared stored => exact Heap.next_put_of_lt _ (Heap.lt_next stored)

theorem modifySession_sessions (change : GameSession → GameSession) :
    (manager.modifySession session change).sessions = manager.sessions := by
  unfold modifySession
  split <;> rfl

theorem share_next :
    (manager.share session owner).objects.next = manager.objects.next := by
  unfold share
  split
  · rfl
  next shared stored => exact Heap.next_put_of_lt _ (Heap.lt_next stored)

theorem share_sessions :
    (manager.share session owner).sessions = manager.sessions := by
  unfold share
  split <;> rfl

theorem release_next :
    (manager.release session owner).objects.next = manager.objects.next := by
  unfold release
  split
  · rfl
  next shared stored =>
    dsimp only
    split
    · rfl
    · exact Heap.next_put_of_lt _ (Heap.lt_next stored)

/-! Each operation lets the owned sessions last. -/

theorem modifySession_lasting (change : GameSession → GameSession)
    (client : ∀ contents, (change contents).client = contents.client) :
    Lasting kept manager (manager.modifySession session change) where
  next := modifySession_next change
  entries := fun _ _ found => by
    rwa [modifySession_sessions] at found
  owned := fun other shared frame keeps stored owns => by
    rw [modifySession_cell]
    split
    next same =>
      subst same
      rw [stored, Option.map_some]
      exact ⟨_, rfl, owns, client shared.session⟩
    next different => exact ⟨shared, stored, owns, rfl⟩

theorem release_lasting
    (foreign : ∀ frame, kept frame → owner ≠ .frame frame) :
    Lasting kept manager (manager.release session owner) where
  next := release_next
  entries := fun _ _ found => by
    rwa [release_sessions] at found
  owned := fun other shared frame keeps stored owns => by
    have still : .frame frame ∈ shared.owners.erase owner :=
      (List.mem_erase_of_ne (foreign frame keeps).symm).mpr owns
    by_cases same : other = session
    · subst same
      exact ⟨_, release_self stored (List.ne_nil_of_mem still), still, rfl⟩
    · exact ⟨shared, (release_other same).trans stored, owns, rfl⟩

theorem releaseEntry_lasting :
    Lasting kept manager (manager.releaseEntry sessionId) := by
  unfold releaseEntry
  split
  · exact .refl manager
  · exact release_lasting fun _ _ same => by cases same

theorem removeSession_lasting :
    Lasting kept manager (manager.removeSession sessionId) := by
  have released : Lasting kept manager
      (manager.releaseEntry sessionId) := releaseEntry_lasting
  refine ⟨released.next, ?_, released.owned⟩
  intro other session found
  by_cases same : other = sessionId
  · subst same
    simp [removeSession, AList.lookup_erase] at found
  · simpa [removeSession, AList.lookup_erase_ne same] using found

theorem sweep_lasting (entries : List ((_ : SessionId) × SessionPtr))
    (readings : List Nat) :
    Lasting kept manager (manager.sweep entries readings) := by
  induction entries generalizing manager readings with
  | nil => exact .refl manager
  | cons entry entries lasts =>
      cases readings with
      | nil => exact .refl manager
      | cons now readings =>
          rw [sweep]
          split
          · exact removeSession_lasting.trans (lasts readings)
          · exact lasts readings

theorem cleanupExpiredSessions_lasting (order : List SessionEntry)
    (readings : List Nat) :
    Lasting kept manager (manager.cleanupExpiredSessions order readings) :=
  sweep_lasting _ readings

/-! A new session. -/

/-- Every entry of the map names a session made by this manager. -/
def EntriesMade (manager : SessionManager) : Prop :=
  ∀ sessionId session, manager.sessions.lookup sessionId = some session →
    session < manager.objects.next

theorem Lasting.entriesMade (lasting : Lasting kept before after)
    (made : before.EntriesMade) : after.EntriesMade := by
  intro sessionId session found
  rw [lasting.next]
  exact made sessionId session (lasting.entries _ _ found)

structure Added (before after : SessionManager) (client : Option File)
    (sessionId : SessionId) (now : Nat) : Prop where
  next : after.objects.next = before.objects.next + 1
  found : after.getSession sessionId = some before.objects.next
  created : after.objects.cell before.objects.next =
    some ⟨{ client, sessionId, lastHeartbeat := now }, [.mapEntry sessionId]⟩
  entries : ∀ other session,
    after.sessions.lookup other = some session → other ≠ sessionId →
      before.sessions.lookup other = some session
  owned : ∀ session shared frame,
    before.objects.cell session = some shared →
    .frame frame ∈ shared.owners →
    ∃ owners, after.objects.cell session = some { shared with owners } ∧
      .frame frame ∈ owners

theorem addSession_added (made : manager.EntriesMade) (client : Option File)
    (sessionId : SessionId) (now : Nat) :
    Added manager (manager.addSession client sessionId now) client sessionId
      now := by
  have entry : ∀ session, manager.sessions.lookup sessionId = some session →
      session ≠ manager.objects.next :=
    fun session found => Nat.ne_of_lt (made sessionId session found)
  have size : ∀ value, (manager.objects.put manager.objects.next value).next =
      manager.objects.next + 1 := fun value => by
    rw [Heap.next_put]
    omega
  unfold addSession
  dsimp only
  refine ⟨?_, AList.lookup_insert _, ?_, ?_, ?_⟩
  · unfold releaseEntry
    split
    · exact size _
    · rw [release_next]
      exact size _
  · unfold releaseEntry
    split
    · exact Heap.cell_put_self _ _ _
    next session found =>
      rw [release_other (entry session found).symm]
      exact Heap.cell_put_self _ _ _
  · intro other session found different
    rwa [AList.lookup_insert_ne different] at found
  · intro session shared frame stored owns
    have old : session ≠ manager.objects.next := Heap.ne_next stored
    have kept : (manager.objects.put manager.objects.next
        (⟨{ client, sessionId, lastHeartbeat := now },
          [.mapEntry sessionId]⟩ : SharedSession)).cell session =
        some shared := (Heap.cell_put_other _ _ old).trans stored
    unfold releaseEntry
    split
    · exact ⟨shared.owners, kept, owns⟩
    next replaced found =>
      by_cases same : session = replaced
      · subst same
        have still : .frame frame ∈ shared.owners.erase
            (.mapEntry sessionId) :=
          (List.mem_erase_of_ne (by simp)).mpr owns
        exact ⟨_, release_self kept (List.ne_nil_of_mem still), still⟩
      · rw [release_other same]
        exact ⟨shared.owners, kept, owns⟩

theorem Added.entriesMade {client : Option File} {now : Nat}
    (added : Added before after client sessionId now)
    (made : before.EntriesMade) : after.EntriesMade := by
  intro other session found
  rw [added.next]
  by_cases same : other = sessionId
  · subst same
    rw [show after.sessions.lookup other = some before.objects.next from
      added.found] at found
    cases found
    exact Nat.lt_succ_self _
  · exact Nat.lt_succ_of_lt
      (made other session (added.entries other session found same))

/-- What a new connection does to the manager: `HandleClientSession` adds the
session and gets it, and the coroutine it calls marks it connected. -/
def connectSession (manager : SessionManager) (client : File)
    (generated : SessionId) (now : Nat) (frame handler : FrameId) :
    SessionManager :=
  let session := manager.objects.next
  (((manager.addSession (some client) generated now).share session
    (.frame frame)).share session (.frame handler)).modifySession session
      fun contents => contents.onConnected now

variable {client : File} {generated : SessionId} {now : Nat}
  {frame handler : FrameId}

theorem connectSession_created (made : manager.EntriesMade) :
    (manager.connectSession client generated now frame handler).objects.cell
      manager.objects.next =
      some ⟨⟨some client, generated, now, true⟩,
        [.frame handler, .frame frame, .mapEntry generated]⟩ := by
  have added := addSession_added made (some client) generated now
  simp [connectSession, modifySession_cell, share_cell, added.created,
    GameSession.onConnected, GameSession.updateHeartbeat]

theorem connectSession_next (made : manager.EntriesMade) :
    (manager.connectSession client generated now frame handler).objects.next =
      manager.objects.next + 1 := by
  have added := addSession_added made (some client) generated now
  simp only [connectSession, modifySession_next, share_next, added.next]

theorem connectSession_entriesMade (made : manager.EntriesMade) :
    (manager.connectSession client generated now frame
      handler).EntriesMade := by
  have added := addSession_added made (some client) generated now
  intro sessionId session found
  simp only [connectSession, modifySession_sessions, share_sessions] at found
  rw [connectSession_next made, ← added.next]
  exact added.entriesMade made sessionId session found

theorem connectSession_owned (made : manager.EntriesMade)
    {shared : SharedSession} {owning : FrameId}
    (stored : manager.objects.cell session = some shared)
    (owns : .frame owning ∈ shared.owners) :
    ∃ owners, (manager.connectSession client generated now frame
        handler).objects.cell session = some { shared with owners } ∧
      .frame owning ∈ owners := by
  have added := addSession_added made (some client) generated now
  obtain ⟨owners, stored', owns'⟩ := added.owned session shared owning stored
    owns
  have old : session ≠ manager.objects.next := Heap.ne_next stored
  refine ⟨owners, ?_, owns'⟩
  simp [connectSession, modifySession_cell, share_cell, old, stored']

end SessionManager

end CoUring
