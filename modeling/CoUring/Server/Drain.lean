import CoUring.Foundation.Simulation
import CoUring.Server.OwnRequests
import CoUring.Session.Descriptors

namespace CoUring

open Foundation

/-! What the server is to its clients: it takes what they send until they stop,
and gives nothing back. -/

structure DrainConnection where
  worker : WorkerId
  rawFd : RawFd
  receiving : Bool
  deriving DecidableEq, Repr

structure DrainServer where
  connections : List DrainConnection := []
  deriving DecidableEq, Repr

inductive DrainAction
  | accept (connection : Nat) (worker : WorkerId) (rawFd : RawFd)
  | drain (connection : Nat) (size : Nat)
  | finish (connection : Nat)
  deriving DecidableEq, Repr

namespace DrainAction

def connection : DrainAction → Nat
  | .accept connection _ _ => connection
  | .drain connection _ => connection
  | .finish connection => connection

end DrainAction

namespace DrainServer

def receives (server : DrainServer) (connection : Nat) : Bool :=
  server.connections[connection]?.any DrainConnection.receiving

def finished (server : DrainServer) (connection : Nat) : DrainServer :=
  ⟨server.connections.modify connection
    fun contents => { contents with receiving := false }⟩

def step (server : DrainServer) : DrainAction → Option DrainServer
  | .accept connection worker rawFd =>
      if connection = server.connections.length then
        some ⟨server.connections ++ [⟨worker, rawFd, true⟩]⟩
      else none
  | .drain connection size =>
      if server.receives connection = true ∧ 0 < size then some server
      else none
  | .finish connection =>
      if server.receives connection = true then
        some (server.finished connection)
      else none

end DrainServer

def drainSystem : TransitionSystem DrainServer DrainAction :=
  .ofFunction (· = {}) DrainServer.step

/-! The life of a connection. -/

/-- What happens to a connection: it is accepted, drained any number of times,
and finished unless it still receives. -/
def Lifecycle (connection : Nat) (contents : DrainConnection)
    (events : List DrainAction) : Prop :=
  ∃ sizes : List Nat, (∀ size ∈ sizes, 0 < size) ∧
    events = .accept connection contents.worker contents.rawFd ::
      (sizes.map (.drain connection) ++
        if contents.receiving then [] else [.finish connection])

def eventsOf (connection : Nat) (events : List DrainAction) :
    List DrainAction :=
  events.filter fun action => action.connection = connection

/-- Every connection lives its own life, and nothing happens to others. -/
def Lives (events : List DrainAction) (server : DrainServer) : Prop :=
  ∀ connection, match server.connections[connection]? with
    | some contents =>
        Lifecycle connection contents (eventsOf connection events)
    | none => eventsOf connection events = []

variable {server next last : DrainServer} {events : List DrainAction}
  {action : DrainAction} {connection : Nat}

theorem eventsOf_snoc :
    eventsOf connection (events ++ [action]) =
      eventsOf connection events ++
        if action.connection = connection then [action] else [] := by
  rw [eventsOf, List.filter_append, List.filter_cons, List.filter_nil]
  simp only [decide_eq_true_eq]
  rfl

namespace DrainServer

theorem receives_iff :
    server.receives connection = true ↔
      ∃ contents, server.connections[connection]? = some contents ∧
        contents.receiving = true := by
  rw [receives, Option.any_eq_true]

theorem finished_self {contents : DrainConnection}
    (found : server.connections[connection]? = some contents) :
    (server.finished connection).connections[connection]? =
      some { contents with receiving := false } := by
  simp [finished, found]

theorem finished_other {other : Nat} (different : connection ≠ other) :
    (server.finished connection).connections[other]? =
      server.connections[other]? := by
  simp [finished, different]

theorem accepted_other (contents : DrainConnection)
    (different : connection ≠ server.connections.length) :
    (server.connections ++ [contents])[connection]? =
      server.connections[connection]? := by
  rcases Nat.lt_or_gt_of_ne different with below | beyond
  · exact List.getElem?_append_left below
  · rw [List.getElem?_eq_none (Nat.le_of_lt beyond),
      List.getElem?_eq_none (by simpa [Nat.succ_le_iff] using beyond)]

end DrainServer

theorem Lifecycle.receiving {contents : DrainConnection}
    (lives : Lifecycle connection contents events)
    (receives : contents.receiving = true) :
    ∃ sizes : List Nat, (∀ size ∈ sizes, 0 < size) ∧
      events = .accept connection contents.worker contents.rawFd ::
        sizes.map (.drain connection) := by
  obtain ⟨sizes, positive, same⟩ := lives
  rw [receives, if_pos rfl, List.append_nil] at same
  exact ⟨sizes, positive, same⟩

theorem Lives.step (lives : Lives events server)
    (step : server.step action = some next) :
    Lives (events ++ [action]) next := by
  intro connection
  have earlier := lives connection
  rw [eventsOf_snoc]
  cases action with
  | accept new worker rawFd =>
      obtain ⟨rfl, same⟩ := Option.ite_none_right_eq_some.mp step
      cases same
      by_cases isNew : connection = server.connections.length
      · subst isNew
        rw [List.getElem?_eq_none (Nat.le_refl _)] at earlier
        rw [List.getElem?_concat_length, earlier]
        exact ⟨[], nofun, if_pos rfl⟩
      · rw [DrainServer.accepted_other _ isNew, DrainAction.connection,
          if_neg (Ne.symm isNew), List.append_nil]
        exact earlier
  | drain drained size =>
      obtain ⟨⟨receives, positive⟩, same⟩ :=
        Option.ite_none_right_eq_some.mp step
      cases same
      by_cases here : drained = connection
      · subst here
        obtain ⟨contents, found, receiving⟩ :=
          DrainServer.receives_iff.mp receives
        rw [found] at earlier ⊢
        obtain ⟨sizes, isPositive, same⟩ := earlier.receiving receiving
        refine ⟨sizes ++ [size], ?_, ?_⟩
        · exact List.forall_mem_append.mpr
            ⟨isPositive, List.forall_mem_singleton.mpr positive⟩
        · rw [same, receiving, DrainAction.connection]
          simp
      · rw [DrainAction.connection, if_neg here, List.append_nil]
        exact earlier
  | finish ended =>
      obtain ⟨receives, same⟩ := Option.ite_none_right_eq_some.mp step
      cases same
      by_cases here : ended = connection
      · subst here
        obtain ⟨contents, found, receiving⟩ :=
          DrainServer.receives_iff.mp receives
        rw [found] at earlier
        obtain ⟨sizes, isPositive, same⟩ := earlier.receiving receiving
        rw [DrainServer.finished_self found, same, DrainAction.connection,
          if_pos rfl]
        exact ⟨sizes, isPositive, rfl⟩
      · rw [DrainServer.finished_other here, DrainAction.connection,
          if_neg here, List.append_nil]
        exact earlier

theorem lives_of_run {history : List (DrainServer × DrainAction)}
    (run : drainSystem.Execution {} history last) :
    Lives (TransitionSystem.trace history) last := by
  induction run with
  | refl => exact fun _ => rfl
  | snoc run step induction =>
      rw [TransitionSystem.trace_snoc]
      exact induction.step step

end CoUring
