import CoUring.Foundation.Simulation
import CoUring.Session.UseCounts

namespace CoUring

open Foundation

/-! The descriptors that sessions own. A `socket_client` closes its own when the
last `shared_ptr` to the session goes. -/

namespace SessionManager

variable {before after manager : SessionManager} {clients : List (Option File)}
  {session other : SessionPtr} {owner : Owner} {sessionId : SessionId}

/-- What the destruction of a session with this client closes. -/
def closedWith (session : SessionPtr) (client : Option File) :
    List (SessionPtr × RawFd) :=
  (client.elim [] File.closedOnDestruction).map fun rawFd => (session, rawFd)

def closedBy (manager : SessionManager) (session : SessionPtr) :
    List (SessionPtr × RawFd) :=
  manager.closed.filter fun entry => entry.1 = session

/-- Where the clients of the sessions are, which were made in this order: with
their session while that exists, and closed once after it. -/
structure ClientsOwned (manager : SessionManager)
    (clients : List (Option File)) : Prop where
  made : clients.length = manager.objects.next
  held : ∀ session shared, manager.objects.cell session = some shared →
    clients[session]? = some shared.session.client ∧
      manager.closedBy session = []
  closed : ∀ session client, clients[session]? = some client →
    manager.objects.cell session = none →
    manager.closedBy session = closedWith session client
  known : ∀ entry ∈ manager.closed, entry.1 < manager.objects.next

theorem filter_closedWith_self (client : Option File) :
    (closedWith session client).filter (fun entry => entry.1 = session) =
      closedWith session client := by
  apply List.filter_eq_self.mpr
  intro entry member
  obtain ⟨rawFd, -, rfl⟩ := List.mem_map.mp member
  exact decide_eq_true rfl

theorem filter_closedWith_other (different : other ≠ session)
    (client : Option File) :
    (closedWith session client).filter (fun entry => entry.1 = other) =
      [] := by
  apply List.filter_eq_nil_iff.mpr
  intro entry member
  obtain ⟨rawFd, -, rfl⟩ := List.mem_map.mp member
  simpa using different.symm

namespace ClientsOwned

theorem congr (owned : ClientsOwned before clients)
    (next : after.objects.next = before.objects.next)
    (clientsKept : ∀ session,
      (after.objects.cell session).map (fun shared => shared.session.client) =
        (before.objects.cell session).map fun shared => shared.session.client)
    (closed : after.closed = before.closed) : ClientsOwned after clients where
  made := owned.made.trans next.symm
  held := fun session shared stored => by
    have kept := clientsKept session
    rw [stored, Option.map_some] at kept
    obtain ⟨shared', stored', same⟩ := Option.map_eq_some_iff.mp kept.symm
    rw [← same, closedBy, closed]
    exact owned.held session shared' stored'
  closed := fun session client isClient gone => by
    have kept := clientsKept session
    rw [gone, Option.map_none] at kept
    rw [closedBy, closed]
    exact owned.closed session client isClient
      (Option.map_eq_none_iff.mp kept.symm)
  known := fun entry member => by
    rw [closed] at member
    rw [next]
    exact owned.known entry member

theorem modifySession (owned : ClientsOwned manager clients)
    (change : GameSession → GameSession)
    (client : ∀ contents, (change contents).client = contents.client) :
    ClientsOwned (manager.modifySession session change) clients := by
  apply owned.congr (modifySession_next change)
  · intro other
    rw [modifySession_cell]
    split
    · rw [Option.map_map]
      exact congrArg (Option.map · _) (funext fun shared => client _)
    · rfl
  · unfold SessionManager.modifySession
    split <;> rfl

theorem share (owned : ClientsOwned manager clients) :
    ClientsOwned (manager.share session owner) clients := by
  apply owned.congr share_next
  · intro other
    rw [share_cell]
    split
    · rw [Option.map_map]
      rfl
    · rfl
  · unfold SessionManager.share
    split <;> rfl

theorem destroyed (owned : ClientsOwned manager clients)
    {shared : SharedSession}
    (stored : manager.objects.cell session = some shared) :
    ClientsOwned { manager with
      objects := manager.objects.free session
      closed := manager.closed ++
        closedWith session shared.session.client } clients := by
  obtain ⟨isClient, noneYet⟩ := owned.held session shared stored
  have others : ∀ other, other ≠ session →
      (manager.closed ++ closedWith session shared.session.client).filter
        (fun entry => entry.1 = other) = manager.closedBy other := by
    intro other different
    rw [List.filter_append, filter_closedWith_other different, List.append_nil]
    rfl
  refine ⟨owned.made, ?_, ?_, ?_⟩
  · intro other contents found
    obtain ⟨different, found⟩ := Heap.free_cases found
    obtain ⟨isClient', noneYet'⟩ := owned.held other contents found
    exact ⟨isClient', (others other different).trans noneYet'⟩
  · intro other client isClient' gone
    by_cases same : other = session
    · subst same
      obtain rfl := Option.some.inj (isClient.symm.trans isClient')
      rw [closedBy, List.filter_append, filter_closedWith_self]
      exact congrArg (· ++ _) noneYet
    · exact (others other same).trans (owned.closed other client isClient'
        ((Heap.cell_free_other _ same).symm.trans gone))
  · intro entry member
    rcases List.mem_append.mp member with earlier | added
    · exact owned.known entry earlier
    · obtain ⟨rawFd, -, rfl⟩ := List.mem_map.mp added
      change session < manager.objects.next
      exact Heap.lt_next stored

theorem release (owned : ClientsOwned manager clients) :
    ClientsOwned (manager.release session owner) clients := by
  unfold SessionManager.release
  split
  · exact owned
  next shared stored =>
    dsimp only
    split
    · exact owned.destroyed stored
    · apply owned.congr
      · exact Heap.next_put_of_lt _ (Heap.lt_next stored)
      · intro other
        by_cases same : other = session
        · subst same
          rw [Heap.cell_put_self, stored]
          rfl
        · rw [Heap.cell_put_other _ _ same]
      · rfl

theorem setSessions (owned : ClientsOwned manager clients)
    (sessions : AList fun _ : SessionId => SessionPtr) :
    ClientsOwned { manager with sessions := sessions } clients :=
  owned.congr rfl (fun _ => rfl) rfl

theorem releaseEntry (owned : ClientsOwned manager clients) :
    ClientsOwned (manager.releaseEntry sessionId) clients := by
  unfold SessionManager.releaseEntry
  split
  · exact owned
  · exact owned.release

theorem removeSession (owned : ClientsOwned manager clients) :
    ClientsOwned (manager.removeSession sessionId) clients :=
  owned.releaseEntry.setSessions _

theorem sweep (owned : ClientsOwned manager clients)
    (order : List SessionEntry) (readings : List Nat) :
    ClientsOwned (manager.sweep order readings) clients := by
  induction order generalizing manager readings with
  | nil => exact owned
  | cons entry order induction =>
      cases readings with
      | nil => exact owned
      | cons now readings =>
          rw [SessionManager.sweep]
          split
          · exact induction owned.removeSession readings
          · exact induction owned readings

theorem create (owned : ClientsOwned manager clients)
    (contents : SharedSession) :
    ClientsOwned { manager with
      objects := manager.objects.put manager.objects.next contents }
      (clients ++ [contents.session.client]) := by
  have grown : max manager.objects.next (manager.objects.next + 1) =
      manager.objects.next + 1 := Nat.max_eq_right (Nat.le_succ _)
  have noneYet : manager.closedBy manager.objects.next = [] := by
    apply List.filter_eq_nil_iff.mpr
    intro entry member
    simpa using Nat.ne_of_lt (owned.known entry member)
  refine ⟨?_, ?_, ?_, ?_⟩
  · rw [List.length_append, List.length_singleton, owned.made]
    exact grown.symm
  · intro session shared found
    rcases Heap.put_cases found with ⟨rfl, rfl⟩ | ⟨different, earlier⟩
    · refine ⟨?_, noneYet⟩
      rw [← owned.made, List.getElem?_concat_length]
    · obtain ⟨isClient, noneClosed⟩ := owned.held session shared earlier
      refine ⟨?_, noneClosed⟩
      rw [List.getElem?_append_left]
      · exact isClient
      · rw [owned.made]
        exact Heap.lt_next earlier
  · intro session client isClient gone
    have different : session ≠ manager.objects.next := by
      intro same
      rw [same, Heap.cell_put_self] at gone
      cases gone
    have below : session < clients.length := by
      obtain ⟨bound, -⟩ := List.getElem?_eq_some_iff.mp isClient
      rw [List.length_append, List.length_singleton] at bound
      rw [owned.made] at bound ⊢
      exact Nat.lt_of_le_of_ne (Nat.le_of_lt_succ bound) different
    rw [List.getElem?_append_left below] at isClient
    exact owned.closed session client isClient
      ((Heap.cell_put_other _ _ different).symm.trans gone)
  · intro entry member
    exact Nat.lt_of_lt_of_le (owned.known entry member) (Nat.le_max_left _ _)

theorem addSession (owned : ClientsOwned manager clients)
    (client : Option File) (now : Nat) :
    ClientsOwned (manager.addSession client sessionId now)
      (clients ++ [client]) :=
  (owned.create
    { session := { client, sessionId, lastHeartbeat := now }
      owners := [.mapEntry sessionId] }).releaseEntry.setSessions _

theorem empty : ClientsOwned {} [] where
  made := rfl
  held := fun _ _ found => by cases found
  closed := fun _ _ isClient => by cases isClient
  known := fun _ member => by cases member

end ClientsOwned

end SessionManager

namespace SessionThreads

open SessionManager

variable {threads next last : SessionThreads} {label : SessionLabel}
  {clients : List (Option File)} {user : FrameId} {generated : SessionId}
  {history : List (SessionThreads × SessionLabel)}

def addedClient (threads : SessionThreads) :
    SessionLabel → Option (Option File)
  | .addSession client _ => some client
  | .advance user _ =>
      match threads.users.cell user with
      | some (.clientStarts (some client)) => some (some client)
      | _ => none
  | _ => none

def addedClients (history : List (SessionThreads × SessionLabel)) :
    List (Option File) :=
  TransitionSystem.observed addedClient history

theorem ClientsOwned.finish (owned : ClientsOwned threads.manager clients)
    (session : Option SessionPtr) :
    ClientsOwned (threads.finish user session).manager clients := by
  cases session with
  | none => exact owned
  | some session => exact owned.release

theorem Advanced.clientsOwned (owned : ClientsOwned threads.manager clients)
    (advanced : Advanced threads user generated next) :
    ClientsOwned next.manager (clients ++
      (threads.addedClient (.advance user generated)).toList) := by
  cases advanced with
  | clientNull found =>
      rw [addedClient, found, Option.toList_none, List.append_nil]
      exact ClientsOwned.finish owned none
  | @clientAdds client found =>
      rw [addedClient, found]
      exact owned.addSession (some client) threads.clock
  | clientGets found entry =>
      rw [addedClient, found, Option.toList_none, List.append_nil]
      exact owned.share
  | clientMisses found absent =>
      rw [addedClient, found, Option.toList_none, List.append_nil]
      exact ClientsOwned.finish owned none
  | clientAwaits found =>
      rw [addedClient, found, Option.toList_none, List.append_nil]
      exact owned.share
  | handlerNull found =>
      rw [addedClient, found, Option.toList_none, List.append_nil]
      exact ClientsOwned.finish owned none
  | handlerConnects found stored =>
      rw [addedClient, found, Option.toList_none, List.append_nil]
      exact owned.modifySession (·.onConnected threads.clock) fun _ => rfl
  | handlerDisconnects found =>
      rw [addedClient, found, Option.toList_none, List.append_nil]
      exact owned.modifySession GameSession.onDisconnected fun _ => rfl
  | handlerRemoves found =>
      rw [addedClient, found, Option.toList_none, List.append_nil]
      exact owned.removeSession
  | handlerEnds found =>
      rw [addedClient, found, Option.toList_none, List.append_nil]
      exact ClientsOwned.finish owned (some _)

/-- A step that adds no session. -/
theorem ClientsOwned.sameClients (owned : ClientsOwned next.manager clients)
    (none : threads.addedClient label = none) :
    ClientsOwned next.manager
      (clients ++ (threads.addedClient label).toList) := by
  rw [none, Option.toList_none, List.append_nil]
  exact owned

theorem Stepped.clientsOwned (owned : ClientsOwned threads.manager clients)
    (stepped : Stepped threads label next) :
    ClientsOwned next.manager
      (clients ++ (threads.addedClient label).toList) := by
  cases stepped with
  | addSession => exact owned.addSession _ threads.clock
  | advance advanced => exact advanced.clientsOwned owned
  | getSession entry => exact ClientsOwned.sameClients owned.share rfl
  | removeSession => exact ClientsOwned.sameClients owned.removeSession rfl
  | cleanup visits => exact ClientsOwned.sameClients (owned.sweep _ _) rfl
  | handleSession found => exact ClientsOwned.sameClients owned.share rfl
  | data found =>
      exact ClientsOwned.sameClients
        (owned.modifySession (·.updateHeartbeat threads.clock) fun _ => rfl) rfl
  | dropSession found =>
      exact ClientsOwned.sameClients
        (ClientsOwned.finish owned (some _)) rfl
  | getNull | count | handleClientSession | handleNull | noData | leaveLoop
  | tick =>
      exact ClientsOwned.sameClients owned rfl

theorem clientsOwned_of_run
    (run : sessionSystem.Execution {} history last) :
    ClientsOwned last.manager (addedClients history) := by
  induction run with
  | refl => exact .empty
  | @snoc last next history label run step induction =>
      rw [addedClients, TransitionSystem.observed_snoc]
      exact Stepped.clientsOwned induction (step_cases step)

/-- The clients of the sessions made in this order, open as long as something
shares the session and closed once when nothing does any more. -/
structure ClientsClosed (threads : SessionThreads)
    (clients : List (Option File)) : Prop where
  made : clients.length = threads.manager.objects.next
  shared : ∀ session owner,
    threads.manager.Refers (held threads.users) owner session →
    threads.manager.closedBy session = []
  unshared : ∀ session client, clients[session]? = some client →
    (∀ owner,
      ¬ threads.manager.Refers (held threads.users) owner session) →
    threads.manager.closedBy session = closedWith session client
  known : ∀ entry ∈ threads.manager.closed, entry.1 < clients.length

/-- No `socket_client` is closed under a user of its session, leaked by the
last one, or closed twice. -/
theorem clients_closed_once
    (run : sessionSystem.Execution {} history last) :
    ClientsClosed last (addedClients history) := by
  have owned := clientsOwned_of_run run
  have counted := sessions_use_counted run
  refine ⟨owned.made, fun session owner refers => ?_,
    fun session client isClient unshared => ?_, fun entry member => ?_⟩
  · obtain ⟨shared, stored⟩ := counted.stored refers
    exact (owned.held session shared stored).2
  · apply owned.closed session client isClient
    cases stored : last.manager.objects.cell session with
    | none => rfl
    | some shared =>
        obtain ⟨owner, owns⟩ :=
          List.exists_mem_of_ne_nil _ (counted.alive session shared stored)
        rw [← ownersOf_stored stored] at owns
        exact (unshared owner ((counted.mem_iff session owner).mp owns)).elim
  · rw [owned.made]
    exact owned.known entry member

/-- The last `shared_ptr` to the first session is that of a thread. -/
def droppedLast : List SessionLabel :=
  [.addSession (some (.adopt 7)) "first", .addSession (some (.adopt 8)) "second",
    .getSession "first", .removeSession "first", .removeSession "second",
    .dropSession 0]

theorem dropped_last_closed_once :
    ∃ last, TransitionSystem.runLabels SessionThreads.step {} droppedLast =
        some last ∧
      last.manager.closed = [(1, 8), (0, 7)] ∧
      ClientsClosed last (addedClients
        (TransitionSystem.traceLabels SessionThreads.step {} droppedLast)) := by
  have run : ∃ last, TransitionSystem.runLabels SessionThreads.step {}
      droppedLast = some last ∧ last.manager.closed = [(1, 8), (0, 7)] :=
    ⟨_, rfl, rfl⟩
  obtain ⟨last, run, closed⟩ := run
  exact ⟨last, run, closed, clients_closed_once (.runLabels run)⟩

end SessionThreads

end CoUring
