import CoUring.Server.DrainSimulation

namespace CoUring

open Foundation TransitionSystem

/-! The server with any number of clients at the other end of its connections,
whatever program these run. -/

abbrev ClientId := Nat

inductive ConnectionState
  | none
  | established
  | closed
  deriving DecidableEq, Repr

/-- A step of a client sees the bytes that have come for it, and whether the
server has closed; it leaves the client, what it sent and how much it took. -/
structure ClientProgram (State Action : Type) where
  initial : State → Prop
  connection : State → ConnectionState
  step : State → Action → List UInt8 → Bool →
    Option (State × List UInt8 × Nat)

structure Network (State : Type) where
  server : Server := {}
  clients : ClientId → State
  /-- Sent and not received yet, in either direction. -/
  toServer : ClientId → List UInt8 := fun _ => []
  toClient : ClientId → List UInt8 := fun _ => []
  /-- The descriptors that workers accepted, with the clients behind them. -/
  accepted : List (RawFd × ClientId) := []

inductive NetworkLabel (Action : Type)
  | client (client : ClientId) (action : Action)
  | accept (worker : WorkerId) (index : Nat) (client : ClientId)
      (rawFd : RawFd) (more : Bool)
  | deliver (worker : WorkerId) (index : Nat) (bytes : List UInt8)
  | hangUp (worker : WorkerId) (index : Nat) (selects : Bool)
  | transmit (worker : WorkerId) (index : Nat) (read : List UInt8)
  | server (label : Label)
  deriving DecidableEq, Repr

/-- Whether a label of the server has nothing to do with what clients do. -/
def Label.isInternal : Label → Bool
  | .complete _ _ (.accepted res _) => res < 0
  | .complete _ _ (.received _) => false
  | .complete _ _ (.ended _) => false
  | .complete _ _ (.sent res) => res < 0
  | _ => true

section

variable {State Action : Type}

namespace Network

def requestAt (network : Network State) (worker : WorkerId) (index : Nat) :
    Option Request :=
  (network.server.workers worker).ioUring.inflight[index]?

def peer (network : Network State) (rawFd : RawFd) : Option ClientId :=
  network.accepted.lookup rawFd

def peerAt (network : Network State) (worker : WorkerId) (index : Nat) :
    Option ClientId :=
  (network.requestAt worker index).bind fun request =>
    network.peer request.rawFd

def closedByServer (network : Network State) (client : ClientId) : Bool :=
  network.server.manager.closed.any fun entry =>
    network.peer entry.2 = some client

def serve (network : Network State) (label : Label) :
    Option (Network State) :=
  (network.server.step label).map fun server =>
    { network with server := server }

variable (program : ClientProgram State Action)

def act (network : Network State) (client : ClientId) (action : Action) :
    Option (Network State) :=
  (program.step (network.clients client) action (network.toClient client)
    (network.closedByServer client)).map fun (contents, sent, taken) =>
      { network with
        clients := Function.update network.clients client contents
        toServer := Function.update network.toServer client
          (network.toServer client ++ sent)
        toClient := Function.update network.toClient client
          ((network.toClient client).drop taken) }

def accept (network : Network State) (worker : WorkerId) (index : Nat)
    (client : ClientId) (rawFd : RawFd) (more : Bool) :
    Option (Network State) :=
  if program.connection (network.clients client) ≠ .none ∧
      rawFd ∉ network.accepted.map Prod.fst ∧
      client ∉ network.accepted.map Prod.snd then
    (network.serve (.complete worker index (.accepted rawFd more))).map
      fun served =>
        { served with accepted := (rawFd, client) :: network.accepted }
  else none

def deliver (network : Network State) (worker : WorkerId) (index : Nat)
    (bytes : List UInt8) : Option (Network State) :=
  (network.peerAt worker index).bind fun client =>
    if bytes <+: network.toServer client then
      (network.serve (.complete worker index (.received bytes))).map
        fun served =>
          { served with
            toServer := Function.update network.toServer client
              ((network.toServer client).drop bytes.length) }
    else none

def hangUp (network : Network State) (worker : WorkerId) (index : Nat)
    (selects : Bool) : Option (Network State) :=
  (network.peerAt worker index).bind fun client =>
    if program.connection (network.clients client) = .closed ∧
        network.toServer client = [] then
      network.serve (.complete worker index (.ended selects))
    else none

def transmit (network : Network State) (worker : WorkerId) (index : Nat)
    (read : List UInt8) : Option (Network State) :=
  (network.peerAt worker index).bind fun client =>
    (network.serve (.complete worker index (.sent read.length))).map
      fun served =>
        { served with
          toClient := Function.update network.toClient client
            (network.toClient client ++ read) }

def step (network : Network State) :
    NetworkLabel Action → Option (Network State)
  | .client client action => network.act program client action
  | .accept worker index client rawFd more =>
      network.accept program worker index client rawFd more
  | .deliver worker index bytes => network.deliver worker index bytes
  | .hangUp worker index selects => network.hangUp program worker index selects
  | .transmit worker index read => network.transmit worker index read
  | .server label => if label.isInternal then network.serve label else none

end Network

def networkSystem (program : ClientProgram State Action) :
    TransitionSystem (Network State) (NetworkLabel Action) :=
  .ofFunction (fun network =>
    (∀ client, program.initial (network.clients client)) ∧
      network = { clients := network.clients }) (Network.step program)

/-- A client to whom nothing comes. -/
def silentSystem (program : ClientProgram State Action) :
    TransitionSystem State Action where
  initial := program.initial
  step := fun client action next => ∃ sent taken,
    program.step client action [] false = some (next, sent, taken)

namespace Network

variable {program : ClientProgram State Action}
  {network next : Network State} {client : ClientId} {worker : WorkerId}
  {index : Nat}

/-- The server sends nothing to any client. -/
structure Mute (network : Network State) : Prop where
  reachable : serverSystem.Reachable network.server
  empty : ∀ client, network.toClient client = []

namespace Mute

theorem unclosed (mute : Mute network) (client : ClientId) :
    network.closedByServer client = false := by
  rw [closedByServer, closed_of_reachable mute.reachable]
  rfl

theorem serve (mute : Mute network) {label : Label}
    (served : network.serve label = some next) :
    Mute next ∧ next.clients = network.clients := by
  obtain ⟨server, step, rfl⟩ := Option.map_eq_some_iff.mp served
  exact ⟨⟨mute.reachable.step step, mute.empty⟩, rfl⟩

theorem act {action : Action} (mute : Mute network)
    (step : network.act program client action = some next) :
    Mute next ∧ ∃ contents,
      (silentSystem program).step (network.clients client) action contents ∧
      next.clients = Function.update network.clients client contents := by
  obtain ⟨⟨contents, sent, taken⟩, acted, rfl⟩ := Option.map_eq_some_iff.mp step
  rw [mute.empty, mute.unclosed] at acted
  refine ⟨⟨mute.reachable, fun other => ?_⟩, contents, ⟨sent, taken, acted⟩,
    rfl⟩
  dsimp only
  by_cases here : other = client
  · subst here
    rw [Function.update_self, mute.empty]
    exact List.drop_nil
  · rw [Function.update_of_ne here]
    exact mute.empty other

theorem accept {rawFd : RawFd} {more : Bool} (mute : Mute network)
    (step : network.accept program worker index client rawFd more =
      some next) : Mute next ∧ next.clients = network.clients := by
  obtain ⟨-, step⟩ := Option.ite_none_right_eq_some.mp step
  obtain ⟨served, serves, rfl⟩ := Option.map_eq_some_iff.mp step
  obtain ⟨after, same⟩ := mute.serve serves
  exact ⟨⟨after.reachable, after.empty⟩, same⟩

theorem deliver {bytes : List UInt8} (mute : Mute network)
    (step : network.deliver worker index bytes = some next) :
    Mute next ∧ next.clients = network.clients := by
  obtain ⟨client, -, step⟩ := Option.bind_eq_some_iff.mp step
  obtain ⟨-, step⟩ := Option.ite_none_right_eq_some.mp step
  obtain ⟨served, serves, rfl⟩ := Option.map_eq_some_iff.mp step
  obtain ⟨after, same⟩ := mute.serve serves
  exact ⟨⟨after.reachable, after.empty⟩, same⟩

theorem hangUp {selects : Bool} (mute : Mute network)
    (step : network.hangUp program worker index selects = some next) :
    Mute next ∧ next.clients = network.clients := by
  obtain ⟨client, -, step⟩ := Option.bind_eq_some_iff.mp step
  obtain ⟨-, serves⟩ := Option.ite_none_right_eq_some.mp step
  exact mute.serve serves

theorem no_send (mute : Mute network) {res : Int} :
    (network.server.workers worker).complete index (.sent res) = none := by
  apply Option.eq_none_iff_forall_ne_some.mpr
  intro after completed
  obtain ⟨request, found, completed⟩ := Option.bind_eq_some_iff.mp completed
  have requested : (network.server.workers worker).ioUring.Requested request :=
    .inr (List.mem_of_getElem? found)
  cases (ownRequests_of_reachable mute.reachable).requests worker request
      requested with
  | accept | recv => cases completed

theorem transmit (mute : Mute network) {read : List UInt8} :
    network.transmit worker index read = none := by
  apply Option.eq_none_iff_forall_ne_some.mpr
  intro next step
  obtain ⟨client, -, step⟩ := Option.bind_eq_some_iff.mp step
  obtain ⟨served, serves, -⟩ := Option.map_eq_some_iff.mp step
  obtain ⟨server, taken, -⟩ := Option.map_eq_some_iff.mp serves
  obtain ⟨-, performed⟩ := Option.ite_none_left_eq_some.mp taken
  obtain ⟨after, completed, -⟩ := Option.map_eq_some_iff.mp performed
  cases completed.symm.trans mute.no_send

end Mute

def actionOf (client : ClientId) (_ : Network State) :
    NetworkLabel Action → Option Action
  | .client other action => if other = client then some action else none
  | _ => none

inductive SilentStep (program : ClientProgram State Action)
    (network : Network State) :
    NetworkLabel Action → Network State → Prop
  | client {client : ClientId} {action : Action} {contents : State}
      {next : Network State}
      (acts : (silentSystem program).step (network.clients client) action
        contents)
      (clients : next.clients =
        Function.update network.clients client contents) :
      SilentStep program network (.client client action) next
  | other {label : NetworkLabel Action} {next : Network State}
      (unseen : ∀ client, actionOf client network label = none)
      (clients : next.clients = network.clients) :
      SilentStep program network label next

theorem Mute.step {label : NetworkLabel Action} (mute : Mute network)
    (step : network.step program label = some next) :
    Mute next ∧ SilentStep program network label next := by
  cases label with
  | client client action =>
      obtain ⟨after, contents, acts, clients⟩ := mute.act step
      exact ⟨after, .client acts clients⟩
  | accept worker index client rawFd more =>
      obtain ⟨after, clients⟩ := mute.accept step
      exact ⟨after, .other (fun _ => rfl) clients⟩
  | deliver worker index bytes =>
      obtain ⟨after, clients⟩ := mute.deliver step
      exact ⟨after, .other (fun _ => rfl) clients⟩
  | hangUp worker index selects =>
      obtain ⟨after, clients⟩ := mute.hangUp step
      exact ⟨after, .other (fun _ => rfl) clients⟩
  | transmit worker index read =>
      cases step.symm.trans mute.transmit
  | server label =>
      obtain ⟨-, serves⟩ := Option.ite_none_right_eq_some.mp step
      obtain ⟨after, clients⟩ := mute.serve serves
      exact ⟨after, .other (fun _ => rfl) clients⟩

theorem Mute.initial (start : (networkSystem program).initial network) :
    Mute network := by
  rw [start.2]
  exact ⟨.initial rfl, fun _ => rfl⟩

def Shows (client : ClientId) (network : Network State) (contents : State) :
    Prop :=
  Mute network ∧ network.clients client = contents

end Network

open Network

variable {program : ClientProgram State Action} {first last : Network State}
  {history : List (Network State × NetworkLabel Action)}

end

/-- It talks before the server accepts it, and on. -/
def talks : List (NetworkLabel Unit) :=
  [.server (.start 0 ⟨0, none, 0, some 3, 0⟩), .server (.submit 0),
    .client 5 (), .accept 0 0 5 7 true, .server (.wake 0),
    .server (.dispatch 0 "id"), .server (.endBatch 0), .server (.submit 0),
    .client 5 (), .deliver 0 1 [7, 7], .server (.wake 0),
    .server (.dispatch 0 ""), .client 5 ()]

end CoUring
