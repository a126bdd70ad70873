import CoUring.Foundation.Transition
import Mathlib.Data.List.Basic

namespace CoUring

open Foundation

/-! The socket of the clients: `connect`, `disconnect` and the destructor, which
calls `disconnect`. -/

structure ConnectOutcome where
  socket : Int
  /-- `inet_pton` understands the host. -/
  address : Bool := true
  connected : Bool := true
  deriving DecidableEq, Repr

structure ClientSocket where
  sock : Int := -1
  /-- What `socket` has opened, and `close` has not closed yet. -/
  descriptors : List Int := []
  closed : List Int := []
  deriving DecidableEq, Repr

namespace ClientSocket

/-- `close(sock_); sock_ = -1;` -/
def closeSock (client : ClientSocket) : ClientSocket where
  sock := -1
  descriptors := client.descriptors.erase client.sock
  closed := client.closed ++ [client.sock]

def cleanUp (closes : Bool) (client : ClientSocket) : ClientSocket :=
  if closes then client.closeSock else client

def openSocket (client : ClientSocket) (socket : Int) : ClientSocket :=
  { client with
    sock := socket
    descriptors :=
      if socket < 0 then client.descriptors
      else socket :: client.descriptors }

/-- `connect`, where `closes` says whether the socket is closed once it turns
out to be of no use. -/
def connect (closes : Bool) (client : ClientSocket)
    (outcome : ConnectOutcome) : Bool × ClientSocket :=
  let client := client.openSocket outcome.socket
  if client.sock < 0 then (false, client)
  else if outcome.address = false then (false, client.cleanUp closes)
  else if outcome.connected = false then (false, client.cleanUp closes)
  else (true, client)

def disconnect (client : ClientSocket) : ClientSocket :=
  if client.sock < 0 then client else client.closeSock

end ClientSocket

def SimpleClient.connect (client : ClientSocket) (outcome : ConnectOutcome) :
    Bool × ClientSocket := client.connect false outcome

def TestClient.connect (client : ClientSocket) (outcome : ConnectOutcome) :
    Bool × ClientSocket := client.connect true outcome

inductive ClientSocketLabel
  | connect (outcome : ConnectOutcome)
  | disconnect
  deriving DecidableEq, Repr

namespace ClientSocket

/-- The kernel gives out descriptors that are not open. -/
def step (closes : Bool) (client : ClientSocket) :
    ClientSocketLabel → Option ClientSocket
  | .connect outcome =>
      if outcome.socket ∈ client.descriptors then none
      else some (client.connect closes outcome).2
  | .disconnect => some client.disconnect

end ClientSocket

def clientSocketSystem (closes : Bool) :
    TransitionSystem ClientSocket ClientSocketLabel :=
  .ofFunction (fun client => client = {}) (ClientSocket.step closes)

namespace ClientSocket

variable {closes : Bool} {client last : ClientSocket}
  {outcome : ConnectOutcome}
  {history : List (ClientSocket × ClientSocketLabel)}

def opened : ClientSocketLabel → List Int
  | .connect outcome => if outcome.socket < 0 then [] else [outcome.socket]
  | .disconnect => []

def held (client : ClientSocket) : List Int :=
  if client.sock < 0 then [] else [client.sock]

def forgotten (client : ClientSocket) : ClientSocketLabel → List Int
  | .connect _ => client.held
  | .disconnect => []

def openedIn (history : List (ClientSocket × ClientSocketLabel)) : List Int :=
  history.flatMap fun taken => opened taken.2

def forgottenIn (history : List (ClientSocket × ClientSocketLabel)) :
    List Int :=
  history.flatMap fun taken => taken.1.forgotten taken.2

inductive Connects (closes : Bool) (client : ClientSocket)
    (outcome : ConnectOutcome) : Bool × ClientSocket → Prop
  | refused (invalid : outcome.socket < 0) :
      Connects closes client outcome (false, client.openSocket outcome.socket)
  | failed (valid : 0 ≤ outcome.socket) :
      Connects closes client outcome
        (false, (client.openSocket outcome.socket).cleanUp closes)
  | connected (valid : 0 ≤ outcome.socket) :
      Connects closes client outcome (true, client.openSocket outcome.socket)

theorem connects (closes : Bool) (client : ClientSocket)
    (outcome : ConnectOutcome) :
    Connects closes client outcome (client.connect closes outcome) := by
  rw [connect]
  split
  next invalid => exact .refused invalid
  next valid =>
    split
    next => exact .failed (Int.not_lt.mp valid)
    next =>
      split
      next => exact .failed (Int.not_lt.mp valid)
      next => exact .connected (Int.not_lt.mp valid)

/-- Every descriptor that was opened is held, closed or forgotten. -/
structure Balanced (client : ClientSocket) (opened forgotten : List Int) :
    Prop where
  nodup : client.descriptors.Nodup
  live : client.descriptors.Perm (client.held ++ forgotten)
  all : opened.Perm (client.held ++ forgotten ++ client.closed)

namespace Balanced

variable {opened forgotten : List Int}

theorem closeSock (balanced : Balanced client opened forgotten)
    (valid : 0 ≤ client.sock) :
    Balanced client.closeSock opened forgotten := by
  have held : client.held = [client.sock] := if_neg (by omega)
  obtain ⟨nodup, live, all⟩ := balanced
  rw [held] at live all
  refine ⟨nodup.erase _, ?_, ?_⟩
  · have erased := live.erase client.sock
    rw [List.singleton_append, List.erase_cons_head] at erased
    exact erased
  · refine all.trans ?_
    change (client.sock :: (forgotten ++ client.closed)).Perm
      (forgotten ++ (client.closed ++ [client.sock]))
    rw [← List.append_assoc]
    exact (List.perm_append_singleton _ _).symm

theorem disconnect (balanced : Balanced client opened forgotten) :
    Balanced client.disconnect opened forgotten := by
  rw [ClientSocket.disconnect]
  split
  next => exact balanced
  next valid => exact balanced.closeSock (Int.not_lt.mp valid)

theorem openSocket (balanced : Balanced client opened forgotten)
    {socket : Int} (fresh : socket ∉ client.descriptors) :
    Balanced (client.openSocket socket)
      (opened ++ if socket < 0 then [] else [socket])
      (forgotten ++ client.held) := by
  obtain ⟨nodup, live, all⟩ := balanced
  have kept : (forgotten ++ client.held).Perm (client.held ++ forgotten) :=
    List.perm_append_comm
  by_cases invalid : socket < 0
  · have none : (client.openSocket socket).held = [] := if_pos invalid
    have same : (client.openSocket socket).descriptors = client.descriptors :=
      if_pos invalid
    rw [if_pos invalid, List.append_nil]
    refine ⟨same ▸ nodup, ?_, ?_⟩
    · rw [none, same]
      exact live.trans kept.symm
    · rw [none]
      exact all.trans (kept.symm.append_right _)
  · have one : (client.openSocket socket).held = [socket] := if_neg invalid
    have more : (client.openSocket socket).descriptors =
        socket :: client.descriptors := if_neg invalid
    rw [if_neg invalid]
    refine ⟨more ▸ List.nodup_cons.mpr ⟨fresh, nodup⟩, ?_, ?_⟩
    · rw [one, more]
      exact (live.trans kept.symm).cons socket
    · rw [one]
      exact (List.perm_append_singleton socket opened).trans
        ((all.trans (kept.symm.append_right _)).cons socket)

theorem connect (balanced : Balanced client opened forgotten)
    (fresh : outcome.socket ∉ client.descriptors) :
    Balanced (client.connect closes outcome).2
      (opened ++ ClientSocket.opened (.connect outcome))
      (forgotten ++ client.forgotten (.connect outcome)) := by
  have after := balanced.openSocket fresh
  have result := client.connects closes outcome
  generalize client.connect closes outcome = connected at result
  cases result with
  | refused invalid => exact after
  | connected valid => exact after
  | failed valid =>
      cases closes with
      | false => exact after
      | true => exact after.closeSock valid

end Balanced

theorem balanced_of_run
    (run : (clientSocketSystem closes).Execution {} history last) :
    Balanced last (openedIn history) (forgottenIn history) := by
  induction run with
  | refl => exact ⟨.nil, .nil, .nil⟩
  | @snoc client next history label run step induction =>
      have more : openedIn (history ++ [(client, label)]) =
          openedIn history ++ opened label := by
        simp [openedIn]
      have lost : forgottenIn (history ++ [(client, label)]) =
          forgottenIn history ++ client.forgotten label := by
        simp [forgottenIn]
      rw [more, lost]
      cases label with
      | connect outcome =>
          obtain ⟨fresh, same⟩ := Option.ite_none_left_eq_some.mp step
          cases same
          exact induction.connect fresh
      | disconnect =>
          cases step
          rw [opened, forgotten, List.append_nil, List.append_nil]
          exact induction.disconnect

theorem held_eq_nil : client.held = [] ↔ client.sock < 0 := by
  rw [held]
  split
  next invalid => exact iff_of_true rfl invalid
  next valid => exact iff_of_false (List.cons_ne_nil _ _) valid

theorem forgottenIn_eq_nil :
    forgottenIn history = [] ↔
      ∀ client outcome, (client, .connect outcome) ∈ history →
        client.sock < 0 := by
  rw [forgottenIn, List.flatMap_eq_nil_iff]
  constructor
  · intro none client outcome member
    exact held_eq_nil.mp (none _ member)
  · intro unheld taken member
    obtain ⟨client, label⟩ := taken
    cases label with
    | connect outcome => exact held_eq_nil.mpr (unheld client outcome member)
    | disconnect => rfl

theorem connect_succeeded
    (connected : (client.connect closes outcome).1 = true) :
    0 ≤ (client.connect closes outcome).2.sock := by
  have result := client.connects closes outcome
  generalize client.connect closes outcome = reached at result connected
  cases result with
  | refused invalid => cases connected
  | connected valid => exact valid
  | failed valid => cases connected

/-- Every descriptor that a client opens is closed once by the end of its
destructor, but for those it held when it was told to `connect` again. -/
theorem descriptors_accounted
    (run : (clientSocketSystem closes).Execution {} history last) :
    (openedIn history).Perm
        (last.disconnect.closed ++ forgottenIn history) ∧
      last.disconnect.descriptors.Perm (forgottenIn history) ∧
      (last.disconnect.descriptors = [] ↔
        ∀ client outcome, (client, .connect outcome) ∈ history →
          client.sock < 0) := by
  have balanced := (balanced_of_run run).disconnect
  have none : last.disconnect.held = [] := by
    rw [ClientSocket.disconnect]
    split
    next invalid => exact if_pos invalid
    next => exact if_pos (show (-1 : Int) < 0 by decide)
  obtain ⟨-, live, all⟩ := balanced
  rw [none, List.nil_append] at live all
  refine ⟨all.trans List.perm_append_comm, live, ?_⟩
  rw [← forgottenIn_eq_nil]
  constructor
  · intro none
    rw [none] at live
    exact live.nil_eq.symm
  · intro none
    rw [none] at live
    exact live.eq_nil

/-- The second attempt of a client whose first one was refused. -/
def retries : List ClientSocketLabel :=
  [.connect ⟨3, true, false⟩, .connect ⟨4, true, true⟩]

theorem simple_client_retries :
    ∃ last, TransitionSystem.runLabels (ClientSocket.step false) {} retries =
        some last ∧
      (openedIn (TransitionSystem.traceLabels (ClientSocket.step false) {}
        retries)).Perm (last.disconnect.closed ++ [3]) := by
  have run : ∃ last, TransitionSystem.runLabels (ClientSocket.step false) {}
      retries = some last := ⟨_, rfl⟩
  obtain ⟨last, run⟩ := run
  exact ⟨last, run, (descriptors_accounted (.runLabels run)).1⟩

end ClientSocket

end CoUring
