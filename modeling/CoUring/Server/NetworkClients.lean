import CoUring.Client.Interactive
import CoUring.Client.SimpleClient
import CoUring.Server.Network

namespace CoUring

open Foundation

/-! The clients of this repository against its server. -/

namespace SimpleClient

def connection (client : SimpleClient) : ConnectionState :=
  match client.point with
  | .connecting => .none
  | .sending _ => .established
  | .receiving _ _ _ => .established
  | .finished code => if code = 0 then .closed else .none

def program (messages : List Message) :
    ClientProgram SimpleClient SimpleClientAction where
  initial := fun client => client = {}
  connection := connection
  step := step messages

variable {messages left : List Message} {client next : SimpleClient}
  {message : Message} {action : SimpleClientAction}

/-- A client that has had no answer: it has sent its first message at most. -/
def Unanswered (messages : List Message) (client : SimpleClient) : Prop :=
  client.reports = [] ∧
    match client.point with
    | .connecting => True
    | .sending left => left = messages
    | .receiving message _ left => message :: left = messages
    | .finished _ => True

namespace Unanswered

theorem finish (unanswered : client.Unanswered messages) :
    client.finish.Unanswered messages := ⟨unanswered.1, trivial⟩

theorem begin (unanswered : client.Unanswered messages)
    (outcome : ConnectOutcome) :
    (client.begin messages outcome).Unanswered messages := by
  unfold SimpleClient.begin
  dsimp only
  split
  next => exact ⟨unanswered.1, rfl⟩
  next => exact ⟨unanswered.1, trivial⟩

theorem sendNext (unanswered : client.Unanswered messages)
    (sending : client.point = .sending (message :: left)) (sent : Int) :
    (client.sendNext message left sent).Unanswered messages := by
  unfold SimpleClient.sendNext
  split
  next =>
    obtain ⟨none, point⟩ := unanswered
    rw [sending] at point
    exact ⟨none, point⟩
  next => exact unanswered.finish

theorem receiveNext (unanswered : client.Unanswered messages)
    (sent : Nat) (received : Int) :
    (client.receiveNext message sent left received []).Unanswered
      messages := by
  have empty : client.receiveMessage received [] = [] := by
    rw [SimpleClient.receiveMessage, List.take_nil, ite_self, ite_self,
      ite_self]
  rw [SimpleClient.receiveNext, empty]
  exact unanswered.finish

theorem step (unanswered : client.Unanswered messages)
    (step : (silentSystem (program messages)).step client action next) :
    next.Unanswered messages := by
  obtain ⟨sent, taken, stepped⟩ := step
  cases step_cases stepped with
  | connect here => exact unanswered.begin _
  | send here fits => exact unanswered.sendNext here _
  | receive here came =>
      rw [List.take_nil]
      exact unanswered.receiveNext _ _
  | finish here => exact unanswered.finish

end Unanswered

end SimpleClient

namespace Network

variable {messages : List Message} {first last : Network SimpleClient}
  {history : List (Network SimpleClient × NetworkLabel SimpleClientAction)}

end Network

namespace InteractiveClient

def connection (state : InteractiveClient) : ConnectionState :=
  match state.point with
  | .host | .port | .connecting => .none
  | .leaving code => if code = 0 then .established else .none
  | .exited code => if code = 0 then .closed else .none
  | .terminated => if state.socket.descriptors = [] then .none else .closed
  | _ => .established

def act (order : ByteOrder) (state : InteractiveClient)
    (label : InteractiveLabel) (incoming : List UInt8) (ended : Bool) :
    Option (InteractiveClient × List UInt8 × Nat) :=
  match label with
  | .arrive _ => none
  | .close => none
  | label =>
      (step order { state with incoming := incoming, ended := ended }
        label).map fun next =>
          (next, next.outgoing.drop state.outgoing.length,
            incoming.length - next.incoming.length)

def program (order : ByteOrder) :
    ClientProgram InteractiveClient InteractiveLabel where
  initial := fun state => ∃ lines, state = { cin := lines }
  connection := connection
  step := act order

variable {order : ByteOrder} {state next last : InteractiveClient}
  {label : InteractiveLabel}

end InteractiveClient

namespace Network

variable {order : ByteOrder} {first last : Network InteractiveClient}
  {history : List (Network InteractiveClient × NetworkLabel InteractiveLabel)}

end Network

end CoUring
