import CoUring.Session.SessionOwners

namespace CoUring

open Foundation

namespace SessionManager

universe u

variable {β : Type u} {view : GameSession → β} {kept : Owner → Prop}
  {before middle after manager : SessionManager}
  {session other : SessionPtr} {owner : Owner}
  {sessionId otherId : SessionId}

/-! What the owners of a session keep of it. -/

/-- Sessions that a kept owner shares survive, and look the same. -/
structure Retains (view : GameSession → β) (kept : Owner → Prop)
    (before after : SessionManager) : Prop where
  next : before.objects.next ≤ after.objects.next
  owned : ∀ session shared owner, kept owner →
    before.objects.cell session = some shared → owner ∈ shared.owners →
    ∃ shared', after.objects.cell session = some shared' ∧
      owner ∈ shared'.owners ∧ view shared'.session = view shared.session

namespace Retains

theorem refl : Retains view kept manager manager where
  next := Nat.le_refl _
  owned := fun _ shared _ _ stored owns => ⟨shared, stored, owns, rfl⟩

theorem trans (first : Retains view kept before middle)
    (second : Retains view kept middle after) :
    Retains view kept before after where
  next := Nat.le_trans first.next second.next
  owned := fun session shared owner keeps stored owns => by
    obtain ⟨shared', stored', owns', same'⟩ :=
      first.owned session shared owner keeps stored owns
    obtain ⟨shared'', stored'', owns'', same''⟩ :=
      second.owned session shared' owner keeps stored' owns'
    exact ⟨shared'', stored'', owns'', same''.trans same'⟩

theorem modifySession (change : GameSession → GameSession)
    (same : ∀ contents, view (change contents) = view contents) :
    Retains view kept manager (manager.modifySession session change) where
  next := Nat.le_of_eq (modifySession_next change).symm
  owned := fun other shared owner _ stored owns => by
    rw [modifySession_cell]
    split
    next found =>
      subst found
      rw [stored, Option.map_some]
      exact ⟨_, rfl, owns, same shared.session⟩
    next different => exact ⟨shared, stored, owns, rfl⟩

theorem share (added : Owner) :
    Retains view kept manager (manager.share session added) where
  next := Nat.le_of_eq share_next.symm
  owned := fun other shared owner _ stored owns => by
    rw [share_cell]
    split
    next found =>
      subst found
      rw [stored, Option.map_some]
      exact ⟨_, rfl, .tail _ owns, rfl⟩
    next different => exact ⟨shared, stored, owns, rfl⟩

theorem release (foreign : ∀ other, kept other → other ≠ owner) :
    Retains view kept manager (manager.release session owner) where
  next := Nat.le_of_eq release_next.symm
  owned := fun other shared keeping keeps stored owns => by
    have still : keeping ∈ shared.owners.erase owner :=
      (List.mem_erase_of_ne (foreign keeping keeps)).mpr owns
    by_cases same : other = session
    · subst same
      exact ⟨_, release_self stored (List.ne_nil_of_mem still), still, rfl⟩
    · exact ⟨shared, (release_other same).trans stored, owns, rfl⟩

theorem releaseEntry
    (foreign : ∀ other, kept other → other ≠ .mapEntry sessionId) :
    Retains view kept manager (manager.releaseEntry sessionId) := by
  unfold SessionManager.releaseEntry
  split
  · exact refl
  · exact release foreign

theorem removeSession
    (foreign : ∀ other, kept other → other ≠ .mapEntry sessionId) :
    Retains view kept manager (manager.removeSession sessionId) := by
  have released : Retains view kept manager
      (manager.releaseEntry sessionId) := releaseEntry foreign
  exact ⟨released.next, released.owned⟩

theorem addSession (client : Option File) (now : Nat)
    (foreign : ∀ other, kept other → other ≠ .mapEntry sessionId) :
    Retains view kept manager
      (manager.addSession client sessionId now) := by
  have created : Retains view kept manager { manager with
      objects := manager.objects.put manager.objects.next
        { session := { client, sessionId, lastHeartbeat := now }
          owners := [.mapEntry sessionId] } } := by
    refine ⟨Nat.le_max_left _ _, ?_⟩
    intro session shared owner _ stored owns
    exact ⟨shared, (Heap.cell_put_other _ _ (Heap.ne_next stored)).trans
      stored, owns, rfl⟩
  have assigned := created.trans (releaseEntry foreign)
  exact ⟨assigned.next, assigned.owned⟩

end Retains

/-! The map after each operation. -/

theorem removeSession_lookup :
    (manager.removeSession sessionId).sessions.lookup otherId =
      if otherId = sessionId then none
      else manager.sessions.lookup otherId := by
  rw [removeSession]
  split
  next same =>
    subst same
    exact AList.lookup_erase _ _
  next different => exact AList.lookup_erase_ne different

theorem addSession_lookup (client : Option File) (now : Nat) :
    (manager.addSession client sessionId now).sessions.lookup otherId =
      if otherId = sessionId then some manager.objects.next
      else manager.sessions.lookup otherId := by
  rw [addSession]
  split
  next same =>
    subst same
    exact AList.lookup_insert _
  next different => exact AList.lookup_insert_ne different

def foundExpired (manager : SessionManager) :
    List ((_ : SessionId) × SessionPtr) → List Nat → List SessionId
  | entry :: entries, now :: readings =>
      if manager.entryExpired entry.2 now then
        entry.1 :: (manager.removeSession entry.1).foundExpired entries readings
      else manager.foundExpired entries readings
  | _, _ => []

theorem sweep_lookup (entries : List ((_ : SessionId) × SessionPtr))
    (readings : List Nat) :
    (manager.sweep entries readings).sessions.lookup sessionId =
      if sessionId ∈ manager.foundExpired entries readings then none
      else manager.sessions.lookup sessionId := by
  induction entries generalizing manager readings with
  | nil => rfl
  | cons entry entries induction =>
      cases readings with
      | nil => rfl
      | cons now readings =>
          rw [sweep, foundExpired]
          split
          · rw [induction, removeSession_lookup]
            by_cases same : sessionId = entry.1
            · simp [same]
            · simp [same]
          · exact induction readings

theorem sweep_retains (entries : List ((_ : SessionId) × SessionPtr))
    (readings : List Nat)
    (foreign : ∀ other, kept other →
      ∀ sessionId ∈ manager.foundExpired entries readings,
        other ≠ .mapEntry sessionId) :
    Retains view kept manager (manager.sweep entries readings) := by
  induction entries generalizing manager readings with
  | nil => exact .refl
  | cons entry entries induction =>
      cases readings with
      | nil => exact .refl
      | cons now readings =>
          rw [foundExpired] at foreign
          rw [sweep]
          split
          next expired =>
            rw [if_pos expired] at foreign
            refine (Retains.removeSession fun other keeps =>
              foreign other keeps entry.1 (.head _)).trans
                (induction readings fun other keeps sessionId member => ?_)
            exact foreign other keeps sessionId (.tail _ member)
          next fresh =>
            rw [if_neg fresh] at foreign
            exact induction readings foreign

/-- A sweep that finds nothing expired changes nothing. -/
theorem foundExpired_eq_nil (entries : List ((_ : SessionId) × SessionPtr))
    (readings : List Nat) :
    manager.foundExpired entries readings = [] ↔
      ∀ visited ∈ entries.zip readings,
        manager.entryExpired visited.1.2 visited.2 = false := by
  induction entries generalizing readings with
  | nil => simp [foundExpired]
  | cons entry entries induction =>
      cases readings with
      | nil => simp [foundExpired]
      | cons now readings =>
          rw [foundExpired, List.zip_cons_cons, List.forall_mem_cons]
          split
          next expired => simp [expired]
          next fresh =>
            rw [induction]
            exact (and_iff_right (by simpa using fresh)).symm

theorem mem_foundExpired {entries : List ((_ : SessionId) × SessionPtr)}
    {readings : List Nat}
    (found : sessionId ∈ manager.foundExpired entries readings) :
    ∃ session, ⟨sessionId, session⟩ ∈ entries := by
  induction entries generalizing manager readings with
  | nil => cases found
  | cons entry entries induction =>
      cases readings with
      | nil => cases found
      | cons now readings =>
          rw [foundExpired] at found
          split at found
          · rcases List.mem_cons.mp found with rfl | later
            · exact ⟨entry.2, .head _⟩
            · obtain ⟨session, member⟩ := induction later
              exact ⟨session, .tail _ member⟩
          · obtain ⟨session, member⟩ := induction found
            exact ⟨session, .tail _ member⟩

theorem foundExpired_found {order : List SessionEntry} {readings : List Nat}
    (visits : order.Perm manager.sessions.entries)
    (found : sessionId ∈ manager.foundExpired order readings) :
    ∃ session, manager.getSession sessionId = some session := by
  obtain ⟨session, member⟩ := mem_foundExpired found
  exact ⟨session, AList.mem_lookup_iff.mpr (visits.mem_iff.mp member)⟩

/-! Entries own their sessions. -/

/-- Each entry shares a living session under that session's own id. -/
def EntriesOwned (manager : SessionManager) : Prop :=
  ∀ sessionId session, manager.sessions.lookup sessionId = some session →
    ∃ shared, manager.objects.cell session = some shared ∧
      .mapEntry sessionId ∈ shared.owners ∧
      shared.session.sessionId = sessionId

namespace EntriesOwned

theorem made (owned : manager.EntriesOwned) : manager.EntriesMade := by
  intro sessionId session found
  obtain ⟨shared, stored, -⟩ := owned sessionId session found
  exact Heap.lt_next stored

theorem retained (owned : before.EntriesOwned)
    (retains : Retains GameSession.sessionId kept before after)
    (left : ∀ sessionId session,
      after.sessions.lookup sessionId = some session →
      before.sessions.lookup sessionId = some session ∧
        kept (.mapEntry sessionId)) : after.EntriesOwned := by
  intro sessionId session found
  obtain ⟨earlier, keeps⟩ := left sessionId session found
  obtain ⟨shared, stored, owns, same⟩ := owned sessionId session earlier
  obtain ⟨shared', stored', owns', same'⟩ :=
    retains.owned session shared _ keeps stored owns
  exact ⟨shared', stored', owns', same'.trans same⟩

theorem removeSession (owned : manager.EntriesOwned) :
    (manager.removeSession sessionId).EntriesOwned := by
  have retains : Retains GameSession.sessionId
      (fun other => other ≠ .mapEntry sessionId) manager
        (manager.removeSession sessionId) :=
    .removeSession fun _ keeps => keeps
  refine owned.retained retains ?_
  intro other session found
  rw [removeSession_lookup] at found
  obtain ⟨different, earlier⟩ := Option.ite_none_left_eq_some.mp found
  exact ⟨earlier, fun same => different (Owner.mapEntry.inj same)⟩

theorem sweep (owned : manager.EntriesOwned)
    (entries : List ((_ : SessionId) × SessionPtr)) (readings : List Nat) :
    (manager.sweep entries readings).EntriesOwned := by
  induction entries generalizing manager readings with
  | nil => exact owned
  | cons entry entries induction =>
      cases readings with
      | nil => exact owned
      | cons now readings =>
          rw [SessionManager.sweep]
          split
          · exact induction owned.removeSession readings
          · exact induction owned readings

theorem addSession (owned : manager.EntriesOwned) (client : Option File)
    (now : Nat) :
    (manager.addSession client sessionId now).EntriesOwned := by
  have added := addSession_added owned.made client sessionId now
  have retains : Retains GameSession.sessionId
      (fun other => other ≠ .mapEntry sessionId) manager
        (manager.addSession client sessionId now) :=
    .addSession client now fun _ keeps => keeps
  intro other session found
  rw [addSession_lookup] at found
  split at found
  next same =>
    cases found
    subst same
    exact ⟨_, added.created, .head _, rfl⟩
  next different =>
    obtain ⟨shared, stored, owns, same⟩ := owned other session found
    obtain ⟨shared', stored', owns', same'⟩ := retains.owned session shared _
      (fun equal => different (Owner.mapEntry.inj equal)) stored owns
    exact ⟨shared', stored', owns', same'.trans same⟩

theorem of_sessions (owned : before.EntriesOwned)
    (sessions : after.sessions = before.sessions)
    (retains : Retains GameSession.sessionId
      (fun owner => ∃ sessionId, owner = .mapEntry sessionId)
      before after) : after.EntriesOwned := by
  refine owned.retained retains fun sessionId session found => ?_
  rw [sessions] at found
  exact ⟨found, sessionId, rfl⟩

theorem modifySession (owned : manager.EntriesOwned)
    (change : GameSession → GameSession)
    (same : ∀ contents, (change contents).sessionId = contents.sessionId) :
    (manager.modifySession session change).EntriesOwned :=
  owned.of_sessions (modifySession_sessions change)
    (.modifySession change same)

theorem share (owned : manager.EntriesOwned) (added : Owner) :
    (manager.share session added).EntriesOwned :=
  owned.of_sessions share_sessions (.share added)

theorem release (owned : manager.EntriesOwned) (frame : FrameId) :
    (manager.release session (.frame frame)).EntriesOwned := by
  refine owned.of_sessions release_sessions (.release ?_)
  rintro _ ⟨sessionId, rfl⟩ same
  cases same

end EntriesOwned

end SessionManager

end CoUring
