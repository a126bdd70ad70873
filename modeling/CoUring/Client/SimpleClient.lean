import CoUring.Client.ClientSocket
import Mathlib.Logic.Function.Basic

namespace CoUring

open Foundation

/-! `main` of the simple client: it sends its messages one by one and expects
each of them back. -/

abbrev Message := List UInt8

structure EchoReport where
  message : Message
  sent : Nat
  response : Message
  deriving DecidableEq, Repr

def EchoReport.confirmed (report : EchoReport) : Bool :=
  report.response = report.message

inductive SimpleClientPoint
  | connecting
  | sending (left : List Message)
  | receiving (message : Message) (sent : Nat) (left : List Message)
  | finished (code : Nat)
  deriving DecidableEq, Repr

structure SimpleClient where
  socket : ClientSocket := {}
  point : SimpleClientPoint := .connecting
  reports : List EchoReport := []
  deriving DecidableEq, Repr

namespace SimpleClient

/-- `sizeof(buffer) - 1` -/
def receiveSize : Nat := 1023

def testMessages : List Message :=
  ["Hello Server!", "Test Message 1", "게임 연결 테스트", "Echo Test 123",
    "Final Message"].map fun text => text.toUTF8.data.toList

def sendMessage (client : SimpleClient) (sent : Int) : Bool :=
  if client.socket.sock < 0 then false
  else if sent < 0 then false
  else true

/-- `bytes` is what `recv` stored, and `received` what it returned. -/
def receiveMessage (client : SimpleClient) (received : Int)
    (bytes : List UInt8) : Message :=
  if client.socket.sock < 0 then []
  else if received < 0 then []
  else if received = 0 then []
  else bytes.take received.toNat

/-- `main` up to its loop. -/
def begin (messages : List Message) (client : SimpleClient)
    (outcome : ConnectOutcome) : SimpleClient :=
  let (connected, socket) := connect client.socket outcome
  if connected then { client with socket, point := .sending messages }
  else { client with socket := socket.disconnect, point := .finished 1 }

def finish (client : SimpleClient) : SimpleClient :=
  { client with
    socket := client.socket.disconnect
    point := .finished 0 }

def sendNext (client : SimpleClient) (message : Message)
    (left : List Message) (sent : Int) : SimpleClient :=
  if client.sendMessage sent then
    { client with point := .receiving message sent.toNat left }
  else client.finish

def receiveNext (client : SimpleClient) (message : Message) (sent : Nat)
    (left : List Message) (received : Int) (bytes : List UInt8) :
    SimpleClient :=
  let response := client.receiveMessage received bytes
  if response = [] then client.finish
  else
    { client with
      point := .sending left
      reports := client.reports ++ [⟨message, sent, response⟩] }

end SimpleClient

inductive SimpleClientAction
  | connect (outcome : ConnectOutcome)
  | send (sent : Int)
  | receive (received : Int)
  | finish
  deriving DecidableEq, Repr

namespace SimpleClient

/-- `recv` waits for bytes or for the end of the stream, or fails. -/
def comes (incoming : List UInt8) (ended : Bool) (received : Int) : Bool :=
  received < 0 ∨ received = 0 ∧ incoming = [] ∧ ended = true ∨
    0 < received ∧ received ≤ min receiveSize incoming.length

/-- The client after a step, what the step sent, and how much it took of what
had come. -/
def step (messages : List Message) (client : SimpleClient)
    (action : SimpleClientAction) (incoming : List UInt8) (ended : Bool) :
    Option (SimpleClient × List UInt8 × Nat) :=
  match action, client.point with
  | .connect outcome, .connecting =>
      some (client.begin messages outcome, [], 0)
  | .send sent, .sending (message :: left) =>
      if sent ≤ message.length then
        some (client.sendNext message left sent, message.take sent.toNat, 0)
      else none
  | .receive received, .receiving message sent left =>
      if comes incoming ended received then
        some (client.receiveNext message sent left received
          (incoming.take received.toNat), [], received.toNat)
      else none
  | .finish, .sending [] => some (client.finish, [], 0)
  | _, _ => none

inductive Stepped (messages : List Message) (client : SimpleClient)
    (incoming : List UInt8) (ended : Bool) :
    SimpleClientAction → SimpleClient × List UInt8 × Nat → Prop
  | connect {outcome : ConnectOutcome} (here : client.point = .connecting) :
      Stepped messages client incoming ended (.connect outcome)
        (client.begin messages outcome, [], 0)
  | send {message : Message} {left : List Message} {sent : Int}
      (here : client.point = .sending (message :: left))
      (fits : sent ≤ message.length) :
      Stepped messages client incoming ended (.send sent)
        (client.sendNext message left sent, message.take sent.toNat, 0)
  | receive {message : Message} {sent : Nat} {left : List Message}
      {received : Int} (here : client.point = .receiving message sent left)
      (came : comes incoming ended received = true) :
      Stepped messages client incoming ended (.receive received)
        (client.receiveNext message sent left received
          (incoming.take received.toNat), [], received.toNat)
  | finish (here : client.point = .sending []) :
      Stepped messages client incoming ended .finish (client.finish, [], 0)

theorem step_cases {messages : List Message} {client : SimpleClient}
    {action : SimpleClientAction} {incoming : List UInt8} {ended : Bool}
    {result : SimpleClient × List UInt8 × Nat}
    (step : client.step messages action incoming ended = some result) :
    Stepped messages client incoming ended action result := by
  unfold SimpleClient.step at step
  split at step
  next here =>
    cases step
    exact .connect here
  next here =>
    obtain ⟨fits, same⟩ := Option.ite_none_right_eq_some.mp step
    cases same
    exact .send here fits
  next here =>
    obtain ⟨came, same⟩ := Option.ite_none_right_eq_some.mp step
    cases same
    exact .receive here came
  next here =>
    cases step
    exact .finish here
  next => cases step

end SimpleClient

end CoUring
