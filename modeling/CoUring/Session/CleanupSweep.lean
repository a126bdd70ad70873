import CoUring.Foundation.EraseLoop
import CoUring.Session.SessionMap
import Mathlib.Order.Monotone.Defs

namespace CoUring

open Foundation

namespace SessionManager

variable {manager : SessionManager} {order : List SessionEntry}
  {readings : List Nat} {clock : Nat → Nat} {entry : SessionEntry}
  {session : SessionPtr} {sessionId : SessionId} {now later : Nat}

/-! `CleanupExpiredSessions` over the nodes of the map. -/

/-- `it->second->IsExpired()`, which reads the clock anew each time. -/
def expiryTest (manager : SessionManager) (clock : Nat → Nat) (count : Nat)
    (entry : SessionEntry) : Bool :=
  manager.entryExpired entry.2 (clock count)

/-- The loop, after as many iterations as the map has nodes; it counts the
sessions it removes. -/
def cleanupLoop (manager : SessionManager) (order : List SessionEntry)
    (clock : Nat → Nat) : EraseLoop SessionEntry :=
  .run (manager.expiryTest clock) order.length { nodes := order }

structure CleanupExact (manager : SessionManager) (order : List SessionEntry)
    (clock : Nat → Nat) : Prop where
  /-- The iterator arrives at the end after the last node, not before. -/
  goesOn : ∀ count < order.length, ∃ next,
    (EraseLoop.run (manager.expiryTest clock) count
      { nodes := order }).step (manager.expiryTest clock) = some next
  ends : (manager.cleanupLoop order clock).step (manager.expiryTest clock) =
    none
  examined : (manager.cleanupLoop order clock).examined = order
  once : ((manager.cleanupLoop order clock).examined.map Sigma.fst).Nodup
  left : ∀ sessionId session,
    ⟨sessionId, session⟩ ∈ (manager.cleanupLoop order clock).nodes ↔
      manager.getSession sessionId = some session ∧
      ∃ index, order[index]? = some ⟨sessionId, session⟩ ∧
        manager.entryExpired session (clock index) = false
  unordered : (manager.cleanupLoop order clock).nodes.Sublist order
  counted : (manager.cleanupLoop order clock).erased +
    (manager.cleanupLoop order clock).nodes.length = order.length
  /-- Expired when the sweep began. -/
  gone : ∀ began ≤ clock 0, ∀ entry ∈ order,
    manager.entryExpired entry.2 began = true →
      entry ∉ (manager.cleanupLoop order clock).nodes
  /-- Unexpired when the sweep ended. -/
  kept : ∀ ended, (∀ index < order.length, clock index ≤ ended) →
    ∀ entry ∈ order, manager.entryExpired entry.2 ended = false →
      entry ∈ (manager.cleanupLoop order clock).nodes
  again : ∀ reading, (∀ index < order.length, clock index = reading) →
    let left := (manager.cleanupLoop order clock).nodes
    (manager.cleanupLoop left fun _ => reading).nodes = left ∧
      (manager.cleanupLoop left fun _ => reading).erased = 0
  /-- The map after the sweep, where its entries own their sessions. -/
  swept : manager.EntriesOwned → ∀ sessionId session,
    (manager.cleanupExpiredSessions order
        ((List.range order.length).map clock)).getSession sessionId =
          some session ↔
      ⟨sessionId, session⟩ ∈ (manager.cleanupLoop order clock).nodes

theorem entryExpired_iff :
    manager.entryExpired session now = true ↔
      ∃ shared, manager.objects.cell session = some shared ∧
        GameSession.defaultTimeout < now - shared.session.lastHeartbeat := by
  rw [entryExpired, Option.any_eq_true]
  simp only [GameSession.isExpired, decide_eq_true_eq]

theorem entryExpired_later
    (expired : manager.entryExpired session now = true)
    (passed : now ≤ later) : manager.entryExpired session later = true := by
  obtain ⟨shared, stored, idle⟩ := entryExpired_iff.mp expired
  apply entryExpired_iff.mpr
  refine ⟨shared, stored, ?_⟩
  omega

theorem mem_cleanupLoop_iff :
    entry ∈ (manager.cleanupLoop order clock).nodes ↔
      ∃ index, order[index]? = some entry ∧
        manager.entryExpired entry.2 (clock index) = false := by
  obtain ⟨-, -, left, -⟩ :=
    EraseLoop.run_exact (manager.expiryTest clock) order
  rw [cleanupLoop, left, EraseLoop.mem_survivors_iff]
  simp only [expiryTest, Nat.zero_add]

theorem cleanupLoop_again {reading : Nat}
    (steady : ∀ index < order.length, clock index = reading) :
    let left := (manager.cleanupLoop order clock).nodes
    (manager.cleanupLoop left fun _ => reading).nodes = left ∧
      (manager.cleanupLoop left fun _ => reading).erased = 0 := by
  intro left
  obtain ⟨-, -, nodes, counts⟩ :=
    EraseLoop.run_exact (manager.expiryTest fun _ => reading) left
  have same : (manager.cleanupLoop left fun _ => reading).nodes = left := by
    apply nodes.trans
    apply EraseLoop.survivors_eq_self
    intro index entry found
    obtain ⟨first, atFirst, fresh⟩ :=
      mem_cleanupLoop_iff.mp (List.mem_of_getElem? found)
    obtain ⟨within, -⟩ := List.getElem?_eq_some_iff.mp atFirst
    rw [steady first within] at fresh
    exact fresh
  refine ⟨same, ?_⟩
  change (manager.cleanupLoop left fun _ => reading).erased +
    (manager.cleanupLoop left fun _ => reading).nodes.length =
      left.length at counts
  rw [same] at counts
  omega

theorem entries_of_visits (visits : order.Perm manager.sessions.entries) :
    (∀ entry ∈ order, manager.getSession entry.1 = some entry.2) ∧
      (order.map Sigma.fst).Nodup := by
  constructor
  · intro entry member
    exact AList.mem_lookup_iff.mpr (visits.mem_iff.mp member)
  · apply (visits.map Sigma.fst).nodup_iff.mpr
    exact manager.sessions.nodupKeys

/-! The same sweep as one step of the manager. -/

theorem removeSession_entryExpired (owned : manager.EntriesOwned)
    {otherId : SessionId} {other : SessionPtr}
    (found : manager.getSession otherId = some other)
    (different : otherId ≠ sessionId) :
    (manager.removeSession sessionId).entryExpired other now =
      manager.entryExpired other now := by
  obtain ⟨shared, stored, owns, -⟩ := owned otherId other found
  have retains : Retains id (fun owner => owner ≠ .mapEntry sessionId)
      manager (manager.removeSession sessionId) :=
    .removeSession fun _ keeps => keeps
  obtain ⟨shared', stored', -, same⟩ := retains.owned other shared _
    (fun equal => different (Owner.mapEntry.inj equal)) stored owns
  rw [entryExpired, entryExpired, stored, stored']
  exact congrArg (fun contents => contents.isExpired now) same

/-- A sweep finds the entries whose own test is true, whatever it has removed
before it comes to them. -/
theorem mem_foundExpired_iff (owned : manager.EntriesOwned)
    (entries : ∀ entry ∈ order, manager.getSession entry.1 = some entry.2)
    (distinct : (order.map Sigma.fst).Nodup) :
    sessionId ∈ manager.foundExpired order readings ↔
      ∃ visited ∈ order.zip readings, visited.1.1 = sessionId ∧
        manager.entryExpired visited.1.2 visited.2 = true := by
  induction order generalizing manager readings with
  | nil => simp [foundExpired]
  | cons entry order induction =>
      cases readings with
      | nil => simp [foundExpired]
      | cons now readings =>
          rw [List.map_cons, List.nodup_cons] at distinct
          have others : ∀ other ∈ order,
              manager.getSession other.1 = some other.2 :=
            fun other member => entries other (.tail _ member)
          simp only [foundExpired, List.zip_cons_cons, List.exists_mem_cons_iff]
          split
          next expired =>
            have apart : ∀ other ∈ order, other.1 ≠ entry.1 := by
              intro other member same
              exact distinct.1 (same ▸ List.mem_map_of_mem member)
            have kept : ∀ other ∈ order,
                (manager.removeSession entry.1).getSession other.1 =
                  some other.2 := by
              intro other member
              exact removeSession_lookup.trans
                ((if_neg (apart other member)).trans (others other member))
            rw [List.mem_cons, induction owned.removeSession kept distinct.2]
            simp only [expired, and_true]
            apply or_congr eq_comm
            apply exists_congr
            intro visited
            apply and_congr_right
            intro member
            have isOther := (List.of_mem_zip member).1
            rw [removeSession_entryExpired owned (others _ isOther)
              (apart _ isOther)]
          next fresh =>
            rw [induction owned others distinct.2]
            apply Iff.symm
            apply or_iff_right
            rintro ⟨-, expired⟩
            exact fresh expired

theorem cleanup_removes_iff (owned : manager.EntriesOwned)
    (visits : order.Perm manager.sessions.entries)
    (counted : readings.length = order.length)
    {visited : SessionEntry × Nat} (member : visited ∈ order.zip readings) :
    (manager.cleanupExpiredSessions order readings).getSession
        visited.1.1 = none ↔
      manager.entryExpired visited.1.2 visited.2 = true := by
  obtain ⟨entries, distinct⟩ := entries_of_visits visits
  have keys : (order.zip readings).map (fun visited => visited.1.1) =
      order.map Sigma.fst := by
    have firsts := List.map_fst_zip (Nat.le_of_eq counted.symm)
    exact List.map_map.symm.trans (congrArg (List.map Sigma.fst) firsts)
  have found := entries visited.1 (List.of_mem_zip member).1
  have isFound : visited.1.1 ∈ manager.foundExpired order readings ↔ _ :=
    mem_foundExpired_iff owned entries distinct
  rw [getSession, cleanupExpiredSessions, sweep_lookup]
  constructor
  · intro removed
    have swept : visited.1.1 ∈ manager.foundExpired order readings := by
      by_contra fresh
      rw [if_neg fresh] at removed
      cases removed.symm.trans found
    obtain ⟨other, otherMember, same, expired⟩ := isFound.mp swept
    rw [← keys] at distinct
    obtain rfl := List.inj_on_of_nodup_map distinct otherMember member same
    exact expired
  · intro expired
    exact if_pos (isFound.mpr ⟨visited, member, rfl, expired⟩)

theorem cleanupExpiredSessions_absent (owned : manager.EntriesOwned)
    (visits : order.Perm manager.sessions.entries)
    (found : manager.getSession sessionId = some session) :
    (manager.cleanupExpiredSessions order
        ((List.range order.length).map clock)).getSession sessionId = none ↔
      ⟨sessionId, session⟩ ∉ (manager.cleanupLoop order clock).nodes := by
  have member := visits.mem_iff.mpr (AList.mem_lookup_iff.mp found)
  obtain ⟨index, atIndex⟩ := List.getElem?_of_mem member
  obtain ⟨within, -⟩ := List.getElem?_eq_some_iff.mp atIndex
  have visited : ((⟨sessionId, session⟩ : SessionEntry), clock index) ∈
      order.zip ((List.range order.length).map clock) := by
    apply List.mem_of_getElem?
    rw [List.getElem?_zip_eq_some]
    exact ⟨atIndex, by simp [within]⟩
  rw [cleanup_removes_iff owned visits (by simp) visited,
    mem_cleanupLoop_iff, ← Bool.not_eq_false, not_iff_not]
  constructor
  · intro fresh
    exact ⟨index, atIndex, fresh⟩
  · rintro ⟨other, atOther, fresh⟩
    have distinct : order.Nodup := by
      apply visits.nodup_iff.mpr
      exact manager.sessions.nodupKeys.nodup
    obtain rfl := (List.getElem?_inj within distinct).mp
      (atIndex.trans atOther.symm)
    exact fresh

theorem cleanupExpiredSessions_getSession (owned : manager.EntriesOwned)
    (visits : order.Perm manager.sessions.entries) :
    (manager.cleanupExpiredSessions order
        ((List.range order.length).map clock)).getSession sessionId =
          some session ↔
      ⟨sessionId, session⟩ ∈ (manager.cleanupLoop order clock).nodes := by
  have kept : ∀ left, (manager.cleanupExpiredSessions order
      ((List.range order.length).map clock)).getSession sessionId = some left →
      manager.getSession sessionId = some left := by
    intro left found
    rw [getSession, cleanupExpiredSessions, sweep_lookup] at found
    exact (Option.ite_none_left_eq_some.mp found).2
  constructor
  · intro found
    by_contra gone
    rw [(cleanupExpiredSessions_absent owned visits (kept _ found)).mpr
      gone] at found
    cases found
  · intro stays
    obtain ⟨index, atIndex, -⟩ := mem_cleanupLoop_iff.mp stays
    have entry : manager.getSession sessionId = some session :=
      (entries_of_visits visits).1 ⟨sessionId, session⟩
        (List.mem_of_getElem? atIndex)
    have present := mt
      (cleanupExpiredSessions_absent owned visits entry).mp (not_not.mpr stays)
    obtain ⟨left, found⟩ := Option.ne_none_iff_exists'.mp present
    cases entry.symm.trans (kept left found)
    exact found

/-! The whole. -/

/-- `CleanupExpiredSessions` removes exactly the expired sessions, in whatever
order the map is visited. -/
theorem cleanup_removes_exactly_expired
    (visits : order.Perm manager.sessions.entries)
    (passes : Monotone clock) : manager.CleanupExact order clock := by
  obtain ⟨ends, examined, nodes, counts⟩ :=
    EraseLoop.run_exact (manager.expiryTest clock) order
  have distinct := (entries_of_visits visits).2
  constructor
  · intro count before
    exact EraseLoop.run_goes_on _ _ before
  · exact ends
  · exact examined
  · rw [cleanupLoop, examined]
    exact distinct
  · intro sessionId session
    rw [mem_cleanupLoop_iff]
    constructor
    · rintro ⟨index, found, fresh⟩
      have member := visits.mem_iff.mp (List.mem_of_getElem? found)
      exact ⟨AList.mem_lookup_iff.mpr member, index, found, fresh⟩
    · rintro ⟨-, survives⟩
      exact survives
  · rw [cleanupLoop, nodes]
    exact EraseLoop.survivors_sublist
  · exact counts
  · intro began early entry member expired remains
    obtain ⟨index, -, fresh⟩ := mem_cleanupLoop_iff.mp remains
    have passed : began ≤ clock index :=
      early.trans (passes (Nat.zero_le index))
    rw [entryExpired_later expired passed] at fresh
    cases fresh
  · intro ended late entry member fresh
    obtain ⟨index, found⟩ := List.getElem?_of_mem member
    apply mem_cleanupLoop_iff.mpr
    refine ⟨index, found, ?_⟩
    obtain ⟨within, -⟩ := List.getElem?_eq_some_iff.mp found
    by_contra expired
    rw [Bool.not_eq_false] at expired
    rw [entryExpired_later expired (late index within)] at fresh
    cases fresh
  · intro reading steady
    exact cleanupLoop_again steady
  · intro owned sessionId session
    exact cleanupExpiredSessions_getSession owned visits

def oneActive : SessionManager :=
  let added := ((({} : SessionManager).addSession none "first" 0).addSession
    none "second" 0).addSession none "third" 0
  added.modifySession 1 (·.updateHeartbeat GameSession.defaultTimeout)

theorem neighbours_swept :
    let order : List SessionEntry :=
      [⟨"first", 0⟩, ⟨"third", 2⟩, ⟨"second", 1⟩]
    let clock := fun count => GameSession.defaultTimeout + 1 + count
    (oneActive.cleanupLoop order clock).nodes = [⟨"second", 1⟩] ∧
      oneActive.CleanupExact order clock := by
  refine ⟨rfl, cleanup_removes_exactly_expired (by decide) ?_⟩
  intro first second before
  exact Nat.add_le_add_left before _

end SessionManager

end CoUring
