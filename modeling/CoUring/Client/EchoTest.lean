import CoUring.Client.SimpleClient
import CoUring.Foundation.Transition
import Mathlib.Data.List.Forall2

namespace CoUring

open Foundation

/-! The simple client with a server that sends back whatever it receives, at
its own pace. -/

structure EchoTest where
  client : SimpleClient := {}
  /-- Sent and not echoed yet, and echoed and not received yet. -/
  toServer : List UInt8 := []
  toClient : List UInt8 := []
  deriving DecidableEq, Repr

inductive EchoTestLabel
  | client (action : SimpleClientAction)
  | echo (count : Nat)
  deriving DecidableEq, Repr

namespace EchoTest

def step (messages : List Message) (test : EchoTest) :
    EchoTestLabel → Option EchoTest
  | .client action =>
      (test.client.step messages action test.toClient false).map
        fun (client, sent, taken) =>
          { client
            toServer := test.toServer ++ sent
            toClient := test.toClient.drop taken }
  | .echo count =>
      some { test with
        toServer := test.toServer.drop count
        toClient := test.toClient ++ test.toServer.take count }

end EchoTest

def echoTestSystem (messages : List Message) :
    TransitionSystem EchoTest EchoTestLabel :=
  .ofFunction (fun test => test = {}) (EchoTest.step messages)

namespace EchoTestLabel

/-- What was passed to `send`, with what `send` returned. -/
def sends (test : EchoTest) : EchoTestLabel → List (Message × Int)
  | .client (.send sent) =>
      match test.client.point with
      | .sending (message :: _) => [(message, sent)]
      | _ => []
  | _ => []

def answers (test : EchoTest) : EchoTestLabel → List Message
  | .client (.receive received) => [test.toClient.take received.toNat]
  | _ => []

end EchoTestLabel

namespace EchoTest

def sends (history : List (EchoTest × EchoTestLabel)) :
    List (Message × Int) :=
  history.flatMap fun taken => taken.2.sends taken.1

def answers (history : List (EchoTest × EchoTestLabel)) : List Message :=
  history.flatMap fun taken => taken.2.answers taken.1

theorem sends_snoc (history : List (EchoTest × EchoTestLabel))
    (test : EchoTest) (label : EchoTestLabel) :
    sends (history ++ [(test, label)]) =
      sends history ++ label.sends test := by
  simp [sends]

theorem answers_snoc (history : List (EchoTest × EchoTestLabel))
    (test : EchoTest) (label : EchoTestLabel) :
    answers (history ++ [(test, label)]) =
      answers history ++ label.answers test := by
  simp [answers]

end EchoTest

/-- `send` took the whole message, and `recv` gave as many bytes. -/
def EchoReport.Whole (report : EchoReport) : Prop :=
  report.sent = report.message.length ∧
    report.response.length = report.message.length

def EchoReport.ofExchange (exchange : (Message × Int) × Message) :
    EchoReport where
  message := exchange.1.1
  sent := exchange.1.2.toNat
  response := exchange.2

/-- `send` took the whole message, and `recv` gave it in one piece. -/
def AnsweredWhole (send : Message × Int) (answer : Message) : Prop :=
  send.2 = send.1.length ∧ answer ≠ [] ∧ answer.length = send.1.length

def reportsOf (sends : List (Message × Int)) (answers : List Message) :
    List EchoReport :=
  ((sends.zip answers).filter fun exchange => exchange.2 ≠ []).map
    EchoReport.ofExchange

structure EchoesJudged (messages : List Message)
    (sends : List (Message × Int)) (answers : List Message)
    (client : SimpleClient) : Prop where
  inOrder : sends.map Prod.fst <+: messages
  reported : client.reports = reportsOf sends answers
  judged : (∀ report ∈ client.reports, report.confirmed = true) ↔
    ∀ report ∈ client.reports, report.Whole
  /-- Every message that was sent is confirmed. -/
  confirmed : (client.reports.map EchoReport.message = sends.map Prod.fst ∧
      ∀ report ∈ client.reports, report.confirmed = true) ↔
    List.Forall₂ AnsweredWhole sends answers
  /-- Every message there is was sent and confirmed. -/
  complete : client.point = .finished 0 →
    ((client.reports.map EchoReport.message = messages ∧
        ∀ report ∈ client.reports, report.confirmed = true) ↔
      List.Forall₂ AnsweredWhole sends answers)

section Exchanges

variable {messages : List Message} {sends : List (Message × Int)}
  {answers : List Message} {client : SimpleClient}

theorem length_reportsOf (sends : List (Message × Int))
    (answers : List Message) :
    (reportsOf sends answers).length ≤ (sends.zip answers).length := by
  rw [reportsOf, List.length_map]
  exact List.length_filter_le _ _

theorem reportsOf_snoc (send : Message × Int) (answer : Message)
    (length : sends.length = answers.length) :
    reportsOf (sends ++ [send]) (answers ++ [answer]) =
      reportsOf sends answers ++
        if answer = [] then [] else [.ofExchange (send, answer)] := by
  rw [reportsOf, List.zip_append length, List.filter_append, List.map_append,
    ← reportsOf]
  by_cases empty : answer = []
  · simp [empty]
  · simp [empty]

theorem zip_unanswered (send : Message × Int)
    (length : sends.length = answers.length) :
    (sends ++ [send]).zip answers = sends.zip answers := by
  have added := @List.zip_append _ _ sends [send] answers [] length
  rwa [List.append_nil, List.zip_nil_right, List.append_nil] at added

theorem reportsOf_unanswered (send : Message × Int)
    (length : sends.length = answers.length) :
    reportsOf (sends ++ [send]) answers = reportsOf sends answers := by
  rw [reportsOf, zip_unanswered send length, reportsOf]

theorem AnsweredWhole.of_snoc {send : Message × Int} {answer : Message}
    (length : sends.length = answers.length)
    (whole : List.Forall₂ AnsweredWhole (sends ++ [send])
      (answers ++ [answer])) : AnsweredWhole send answer := by
  refine List.forall₂_zip whole ?_
  rw [List.zip_append length]
  exact List.mem_append_right _ (.head _)

/-- Reports of all that was sent are as many as the sends, so there was an
answer to each, and none was empty. -/
theorem answered_of_reported (fewer : answers.length ≤ sends.length)
    (reported : (reportsOf sends answers).length = sends.length) :
    sends.length = answers.length ∧
      ∀ exchange ∈ sends.zip answers, exchange.2 ≠ [] := by
  have most := length_reportsOf sends answers
  have paired : (sends.zip answers).length = answers.length := by
    rw [List.length_zip, Nat.min_eq_right fewer]
  refine ⟨by omega, fun exchange member => ?_⟩
  rw [reportsOf, List.length_map] at reported most
  have all := List.length_filter_eq_length_iff.mp
    (Nat.le_antisymm most (by omega))
  exact of_decide_eq_true (all exchange member)

theorem confirmed_iff_answered (fewer : answers.length ≤ sends.length)
    (taken : ∀ exchange ∈ sends.zip answers, 0 ≤ exchange.1.2) :
    ((reportsOf sends answers).map EchoReport.message =
        sends.map Prod.fst ∧
      ∀ report ∈ reportsOf sends answers, report.Whole) ↔
    List.Forall₂ AnsweredWhole sends answers := by
  rw [List.forall₂_iff_zip]
  constructor
  · intro ⟨same, whole⟩
    have length := congrArg List.length same
    rw [List.length_map, List.length_map] at length
    obtain ⟨all, answered⟩ := answered_of_reported fewer length
    refine ⟨all, fun {send answer} member => ?_⟩
    have nonempty := answered _ member
    obtain ⟨sent, received⟩ := whole (.ofExchange (send, answer))
      (List.mem_map_of_mem
        (List.mem_filter.mpr ⟨member, decide_eq_true nonempty⟩))
    have positive : 0 ≤ send.2 := taken _ member
    change send.2.toNat = send.1.length at sent
    exact ⟨by omega, nonempty, received⟩
  · intro ⟨length, whole⟩
    have all : reportsOf sends answers =
        (sends.zip answers).map EchoReport.ofExchange := by
      rw [reportsOf, List.filter_eq_self.mpr]
      intro exchange member
      exact decide_eq_true
        (@whole exchange.1 exchange.2 member).2.1
    rw [all]
    constructor
    · calc ((sends.zip answers).map EchoReport.ofExchange).map
            EchoReport.message
          = ((sends.zip answers).map Prod.fst).map Prod.fst := by
            rw [List.map_map, List.map_map]
            rfl
        _ = sends.map Prod.fst := by
            rw [List.map_fst_zip (Nat.le_of_eq length)]
    · intro report member
      obtain ⟨⟨send, answer⟩, paired, rfl⟩ := List.mem_map.mp member
      obtain ⟨sent, -, received⟩ := whole paired
      exact ⟨congrArg Int.toNat sent, received⟩

theorem EchoesJudged.of_sent (inOrder : sends.map Prod.fst <+: messages)
    (fewer : answers.length ≤ sends.length)
    (taken : ∀ exchange ∈ sends.zip answers, 0 ≤ exchange.1.2)
    (reported : client.reports = reportsOf sends answers)
    (judged : (∀ report ∈ client.reports, report.confirmed = true) ↔
      ∀ report ∈ client.reports, report.Whole)
    (exited : client.point = .finished 0 →
      List.Forall₂ AnsweredWhole sends answers →
      sends.map Prod.fst = messages) :
    EchoesJudged messages sends answers client := by
  have confirmed : (client.reports.map EchoReport.message =
        sends.map Prod.fst ∧
      ∀ report ∈ client.reports, report.confirmed = true) ↔
      List.Forall₂ AnsweredWhole sends answers := by
    rw [judged, reported]
    exact confirmed_iff_answered fewer taken
  refine ⟨inOrder, reported, judged, confirmed, fun done => ⟨?_, ?_⟩⟩
  · intro ⟨same, each⟩
    refine confirmed.mp ⟨?_, each⟩
    rw [same]
    refine (inOrder.eq_of_length_le ?_).symm
    have most := length_reportsOf sends answers
    rw [List.length_zip] at most
    rw [← same, reported, List.length_map, List.length_map]
    omega
  · intro whole
    obtain ⟨same, each⟩ := confirmed.mpr whole
    exact ⟨same.trans (exited done whole), each⟩

end Exchanges

namespace EchoTest

variable {messages : List Message} {test next last : EchoTest}
  {label : EchoTestLabel} {history : List (EchoTest × EchoTestLabel)}
  {sends : List (Message × Int)} {answers : List Message}

def UnderWay (test : EchoTest) : SimpleClientPoint → Prop
  | .connecting => test.toClient ++ test.toServer = []
  | .sending _ => test.toClient ++ test.toServer = []
  | .receiving message sent _ => sent ≤ message.length ∧
      test.toClient ++ test.toServer = message.take sent
  | .finished _ => True

structure Judged (test : EchoTest) : Prop where
  underWay : (∀ report ∈ test.client.reports, report.Whole) →
    test.UnderWay test.client.point
  agree : (∀ report ∈ test.client.reports, report.confirmed = true) ↔
    ∀ report ∈ test.client.reports, report.Whole

/-- The messages that were sent, and how many answers there are to them. -/
def Exchanged (messages : List Message) (sends : List (Message × Int))
    (answers : List Message) (client : SimpleClient) :
    SimpleClientPoint → Prop
  | .connecting => sends = [] ∧ answers = []
  | .sending left => 0 ≤ client.socket.sock ∧
      sends.length = answers.length ∧ sends.map Prod.fst ++ left = messages
  | .receiving message sent left => 0 ≤ client.socket.sock ∧
      ∃ earlier, sends = earlier ++ [(message, (sent : Int))] ∧
        earlier.length = answers.length ∧
        earlier.map Prod.fst ++ message :: left = messages
  | .finished code => answers.length ≤ sends.length ∧
      sends.map Prod.fst <+: messages ∧
      (code = 0 → List.Forall₂ AnsweredWhole sends answers →
        sends.map Prod.fst = messages)

structure Accounted (messages : List Message) (sends : List (Message × Int))
    (answers : List Message) (client : SimpleClient) : Prop where
  reported : client.reports = reportsOf sends answers
  taken : ∀ exchange ∈ sends.zip answers, 0 ≤ exchange.1.2
  exchanged : Exchanged messages sends answers client client.point

/-- An answer that starts like the message is the message if it is as long. -/
theorem confirmed_iff {report : EchoReport}
    (starts : report.response <+: report.message.take report.sent)
    (taken : report.sent ≤ report.message.length) :
    report.confirmed = true ↔ report.Whole := by
  rw [EchoReport.confirmed, decide_eq_true_iff]
  constructor
  · intro same
    have shorter := starts.length_le
    rw [same, List.length_take, Nat.min_eq_left taken] at shorter
    exact ⟨Nat.le_antisymm taken shorter, congrArg List.length same⟩
  · intro whole
    obtain ⟨all, long⟩ := whole
    rw [all, List.take_length] at starts
    exact starts.eq_of_length long

theorem receiveMessage_eq {client : SimpleClient} {received : Int}
    {bytes : List UInt8} (valid : 0 ≤ client.socket.sock) :
    client.receiveMessage received bytes = bytes.take received.toNat := by
  rw [SimpleClient.receiveMessage, if_neg (by omega)]
  by_cases failed : received ≤ 0
  · rw [Int.toNat_of_nonpos failed, List.take_zero]
    simp
  · rw [if_neg (by omega), if_neg (by omega)]

namespace Judged

theorem same_reports (judged : Judged test)
    (reports : next.client.reports = test.client.reports)
    (underWay : test.UnderWay test.client.point →
      next.UnderWay next.client.point) : Judged next where
  underWay := fun whole =>
    underWay (judged.underWay (reports ▸ whole))
  agree := reports ▸ judged.agree

theorem finish {client : SimpleClient} (judged : Judged test)
    (reports : client.reports = test.client.reports)
    (toServer toClient : List UInt8) :
    Judged ⟨client.finish, toServer, toClient⟩ :=
  judged.same_reports reports fun _ => trivial

theorem connect {outcome : ConnectOutcome} (judged : Judged test)
    (connecting : test.client.point = .connecting) :
    Judged { test with client := test.client.begin messages outcome } := by
  rw [SimpleClient.begin]
  cases connected : (SimpleClient.connect test.client.socket outcome).1 with
  | true =>
      refine judged.same_reports ?_ fun underWay => ?_
      · simp [connected]
      · rw [connecting] at underWay
        simp only [connected, if_true]
        exact underWay
  | false =>
      refine judged.same_reports ?_ fun underWay => ?_
      · simp [connected]
      · simp only [connected]
        trivial

theorem send {message : Message} {left : List Message} {sent : Int}
    (judged : Judged test)
    (sending : test.client.point = .sending (message :: left))
    (fits : sent ≤ message.length) :
    Judged { test with
      client := test.client.sendNext message left sent
      toServer := test.toServer ++ message.take sent.toNat } := by
  rw [SimpleClient.sendNext]
  split
  next went =>
    refine judged.same_reports rfl fun underWay => ?_
    rw [sending] at underWay
    change test.toClient ++ test.toServer = [] at underWay
    refine ⟨by omega, ?_⟩
    change test.toClient ++ (test.toServer ++ message.take sent.toNat) = _
    rw [← List.append_assoc, underWay, List.nil_append]
  next => exact judged.finish rfl _ _

theorem echo (judged : Judged test) (count : Nat) :
    Judged { test with
      toServer := test.toServer.drop count
      toClient := test.toClient ++ test.toServer.take count } := by
  have same : test.toClient ++ test.toServer.take count ++
      test.toServer.drop count = test.toClient ++ test.toServer := by
    rw [List.append_assoc, List.take_append_drop]
  refine judged.same_reports rfl fun underWay => ?_
  change UnderWay _ test.client.point
  cases point : test.client.point with
  | connecting =>
      rw [point] at underWay
      exact same.trans underWay
  | sending left =>
      rw [point] at underWay
      exact same.trans underWay
  | receiving message sent left =>
      rw [point] at underWay
      exact ⟨underWay.1, same.trans underWay.2⟩
  | finished code => trivial

theorem receive {message : Message} {sent : Nat} {left : List Message}
    {received : Int} (judged : Judged test)
    (valid : 0 ≤ test.client.socket.sock)
    (receiving : test.client.point = .receiving message sent left)
    (long : received.toNat ≤ test.toClient.length) :
    Judged { test with
      client := test.client.receiveNext message sent left received
        (test.toClient.take received.toNat)
      toClient := test.toClient.drop received.toNat } := by
  rw [SimpleClient.receiveNext, receiveMessage_eq valid, List.take_take,
    Nat.min_self]
  split
  next => exact judged.finish rfl _ _
  next answered =>
    have earlier : ∀ {property : EchoReport → Prop},
        (∀ report ∈ test.client.reports ++
          [⟨message, sent, test.toClient.take received.toNat⟩],
            property report) ↔
        (∀ report ∈ test.client.reports, property report) ∧
          property ⟨message, sent, test.toClient.take received.toNat⟩ := by
      intro property
      rw [List.forall_mem_append, List.forall_mem_singleton]
    refine ⟨fun whole => ?_, ?_⟩
    · obtain ⟨before, all, complete⟩ := earlier.mp whole
      have underWay := judged.underWay before
      rw [receiving] at underWay
      obtain ⟨-, stream⟩ := underWay
      dsimp only at all complete ⊢
      rw [List.length_take, Nat.min_eq_left long] at complete
      rw [all, List.take_length] at stream
      have length := congrArg List.length stream
      rw [List.length_append] at length
      apply List.eq_nil_of_length_eq_zero
      change (test.toClient.drop received.toNat ++ test.toServer).length = 0
      rw [List.length_append, List.length_drop]
      omega
    · change (∀ report ∈ test.client.reports ++ [_], _) ↔
        ∀ report ∈ test.client.reports ++ [_], _
      rw [earlier, earlier, ← judged.agree]
      refine and_congr_right fun confirmed => ?_
      have underWay := judged.underWay (judged.agree.mp confirmed)
      rw [receiving] at underWay
      obtain ⟨taken, stream⟩ := underWay
      refine confirmed_iff ?_ taken
      rw [← stream]
      exact (List.take_prefix _ _).trans (List.prefix_append _ _)

end Judged

namespace Accounted

variable {client : SimpleClient}

theorem connect {outcome : ConnectOutcome}
    (accounted : Accounted messages sends answers client)
    (connecting : client.point = .connecting) :
    Accounted messages sends answers (client.begin messages outcome) := by
  obtain ⟨reported, taken, exchanged⟩ := accounted
  rw [connecting] at exchanged
  obtain ⟨rfl, rfl⟩ := exchanged
  rw [SimpleClient.begin]
  cases connected : (SimpleClient.connect client.socket outcome).1 with
  | true =>
      refine ⟨by simpa [connected] using reported, taken, ?_⟩
      simp only [connected, if_true]
      exact ⟨ClientSocket.connect_succeeded connected, rfl, rfl⟩
  | false =>
      refine ⟨by simpa [connected] using reported, taken, ?_⟩
      simp only [connected]
      exact ⟨Nat.le_refl 0, List.nil_prefix, nofun⟩

theorem finish (accounted : Accounted messages sends answers client)
    (fewer : answers.length ≤ sends.length)
    (inOrder : sends.map Prod.fst <+: messages)
    (exited : List.Forall₂ AnsweredWhole sends answers →
      sends.map Prod.fst = messages) :
    Accounted messages sends answers client.finish :=
  ⟨accounted.reported, accounted.taken, fewer, inOrder, fun _ => exited⟩

theorem send {message : Message} {left : List Message} {sent : Int}
    (accounted : Accounted messages sends answers client)
    (sending : client.point = .sending (message :: left)) :
    Accounted messages (sends ++ [(message, sent)]) answers
      (client.sendNext message left sent) := by
  obtain ⟨reported, taken, exchanged⟩ := accounted
  rw [sending] at exchanged
  obtain ⟨valid, length, inOrder⟩ := exchanged
  have reported' : client.reports =
      reportsOf (sends ++ [(message, sent)]) answers := by
    rw [reported, reportsOf_unanswered _ length]
  have taken' : ∀ exchange ∈ (sends ++ [(message, sent)]).zip answers,
      0 ≤ exchange.1.2 := by
    rw [zip_unanswered _ length]
    exact taken
  rw [SimpleClient.sendNext, SimpleClient.sendMessage,
    if_neg (by omega : ¬ client.socket.sock < 0)]
  by_cases failed : sent < 0
  · rw [if_pos failed]
    have inOrder' : (sends ++ [(message, sent)]).map Prod.fst <+:
        messages := by
      rw [List.map_append, ← inOrder]
      exact (List.prefix_append_right_inj _).mpr ⟨left, rfl⟩
    refine ⟨reported', taken', ?_, inOrder', fun _ whole => ?_⟩
    · rw [List.length_append]
      omega
    · have same := whole.length_eq
      rw [List.length_append, List.length_singleton] at same
      omega
  · rw [if_neg failed]
    refine ⟨reported', taken', valid, sends, ?_, length, inOrder⟩
    rw [Int.toNat_of_nonneg (by omega)]

theorem receive {message : Message} {sent : Nat} {left : List Message}
    (accounted : Accounted messages sends answers client)
    (receiving : client.point = .receiving message sent left)
    (received : Int) (bytes : List UInt8) :
    Accounted messages sends (answers ++ [bytes.take received.toNat])
      (client.receiveNext message sent left received bytes) := by
  obtain ⟨reported, taken, exchanged⟩ := accounted
  rw [receiving] at exchanged
  obtain ⟨valid, earlier, rfl, length, inOrder⟩ := exchanged
  rw [reportsOf_unanswered _ length] at reported
  rw [zip_unanswered _ length] at taken
  have reported' := reportsOf_snoc (message, (sent : Int))
    (bytes.take received.toNat) length
  rw [← reported] at reported'
  have taken' : ∀ exchange ∈ (earlier ++ [(message, (sent : Int))]).zip
      (answers ++ [bytes.take received.toNat]), 0 ≤ exchange.1.2 := by
    rw [List.zip_append length, List.forall_mem_append]
    exact ⟨taken, List.forall_mem_singleton.mpr (Int.natCast_nonneg sent)⟩
  have length' : (earlier ++ [(message, (sent : Int))]).length =
      (answers ++ [bytes.take received.toNat]).length := by
    rw [List.length_append, List.length_append, length]
    rfl
  have inOrder' : (earlier ++ [(message, (sent : Int))]).map Prod.fst ++
      left = messages := by
    rw [List.map_append, List.append_assoc]
    exact inOrder
  rw [SimpleClient.receiveNext, receiveMessage_eq valid]
  by_cases empty : bytes.take received.toNat = []
  · rw [if_pos empty] at reported' ⊢
    rw [List.append_nil] at reported'
    refine ⟨reported'.symm, taken', Nat.le_of_eq length'.symm,
      ⟨left, inOrder'⟩, fun _ whole => ?_⟩
    exact absurd empty (AnsweredWhole.of_snoc length whole).2.1
  · rw [if_neg empty] at reported' ⊢
    exact ⟨reported'.symm, taken', valid, length', inOrder'⟩

end Accounted

variable {sends : List (Message × Int)} {answers : List Message}

theorem step_accounted (judged : Judged test)
    (accounted : Accounted messages sends answers test.client)
    (step : test.step messages label = some next) :
    Judged next ∧ Accounted messages (sends ++ label.sends test)
      (answers ++ label.answers test) next.client := by
  cases label with
  | client action =>
      obtain ⟨result, stepped, rfl⟩ := Option.map_eq_some_iff.mp step
      cases SimpleClient.step_cases stepped with
      | connect connecting =>
          dsimp only [EchoTestLabel.sends, EchoTestLabel.answers]
          rw [List.append_nil, List.append_nil, List.append_nil,
            List.drop_zero]
          exact ⟨judged.connect connecting, accounted.connect connecting⟩
      | send sending fits =>
          dsimp only [EchoTestLabel.sends, EchoTestLabel.answers]
          rw [sending, List.append_nil]
          exact ⟨judged.send sending fits, accounted.send sending⟩
      | @receive message sent left received receiving came =>
          rw [SimpleClient.comes, decide_eq_true_iff] at came
          have exchanged := accounted.exchanged
          rw [receiving] at exchanged
          dsimp only [EchoTestLabel.sends, EchoTestLabel.answers]
          rw [List.append_nil, List.append_nil]
          refine ⟨judged.receive exchanged.1 receiving (by omega), ?_⟩
          have received := accounted.receive receiving received
            (test.toClient.take received.toNat)
          rwa [List.take_take, Nat.min_self] at received
      | finish done =>
          have exchanged := accounted.exchanged
          rw [done] at exchanged
          obtain ⟨-, length, inOrder⟩ := exchanged
          rw [List.append_nil] at inOrder
          dsimp only [EchoTestLabel.sends, EchoTestLabel.answers]
          rw [List.append_nil, List.append_nil, List.append_nil]
          exact ⟨judged.finish rfl _ _, accounted.finish
            (Nat.le_of_eq length.symm) (inOrder ▸ List.prefix_rfl)
            fun _ => inOrder⟩
  | echo count =>
      cases step
      dsimp only [EchoTestLabel.sends, EchoTestLabel.answers]
      rw [List.append_nil, List.append_nil]
      exact ⟨judged.echo count, accounted⟩

theorem Accounted.judged {client : SimpleClient}
    (accounted : Accounted messages sends answers client)
    (judged : (∀ report ∈ client.reports, report.confirmed = true) ↔
      ∀ report ∈ client.reports, report.Whole) :
    EchoesJudged messages sends answers client := by
  obtain ⟨reported, taken, exchanged⟩ := accounted
  cases point : client.point with
  | connecting =>
      rw [point] at exchanged
      obtain ⟨rfl, rfl⟩ := exchanged
      refine .of_sent List.nil_prefix (Nat.le_refl _) taken reported judged ?_
      simp [point]
  | sending left =>
      rw [point] at exchanged
      obtain ⟨-, length, inOrder⟩ := exchanged
      refine .of_sent ⟨left, inOrder⟩ (Nat.le_of_eq length.symm) taken
        reported judged ?_
      simp [point]
  | receiving message sent left =>
      rw [point] at exchanged
      obtain ⟨-, earlier, rfl, length, inOrder⟩ := exchanged
      refine .of_sent ⟨left, ?_⟩ ?_ taken reported judged ?_
      · rw [List.map_append, List.append_assoc]
        exact inOrder
      · rw [List.length_append]
        omega
      · simp [point]
  | finished code =>
      rw [point] at exchanged
      obtain ⟨fewer, inOrder, exited⟩ := exchanged
      refine .of_sent inOrder fewer taken reported judged fun done => ?_
      rw [point] at done
      exact exited (SimpleClientPoint.finished.inj done)

/-- With a server that echoes everything, the client confirms all it sent just
when every `send` took its whole message and every `recv` gave the message in
one piece. -/
theorem echoes_confirmed_iff
    {history : List (EchoTest × EchoTestLabel)}
    (run : (echoTestSystem messages).Execution {} history last) :
    EchoesJudged messages (EchoTest.sends history)
      (EchoTest.answers history) last.client := by
  suffices tracked : Judged last ∧ Accounted messages
      (EchoTest.sends history) (EchoTest.answers history) last.client from
    tracked.2.judged tracked.1.agree
  induction run with
  | refl =>
      exact ⟨⟨fun _ => rfl, iff_of_true nofun nofun⟩, rfl, nofun, rfl, rfl⟩
  | @snoc last next history label run step induction =>
      obtain ⟨judged, accounted⟩ := induction
      rw [sends_snoc, answers_snoc]
      exact step_accounted judged accounted step

/-- The second message is sent in part, and no answer to it is received. -/
def shortSend : List EchoTestLabel :=
  [.client (.connect ⟨3, true, true⟩), .client (.send 13), .echo 13,
    .client (.receive 13), .client (.send 4), .echo 4,
    .client (.receive (-1))]

theorem short_send_not_confirmed :
    let hello := "Hello Server!".toUTF8.data.toList
    ∃ last, TransitionSystem.runLabels
        (EchoTest.step SimpleClient.testMessages) {} shortSend = some last ∧
      last.client.point = .finished 0 ∧
      last.client.reports = [⟨hello, 13, hello⟩] ∧
      (∀ report ∈ last.client.reports, report.confirmed = true) ∧
      ¬ (last.client.reports.map EchoReport.message =
          SimpleClient.testMessages ∧
        ∀ report ∈ last.client.reports, report.confirmed = true) := by
  intro hello
  have run : ∃ last, TransitionSystem.runLabels
      (EchoTest.step SimpleClient.testMessages) {} shortSend = some last ∧
      last.client.point = .finished 0 ∧
      last.client.reports = [⟨hello, 13, hello⟩] := ⟨_, rfl, rfl, rfl⟩
  obtain ⟨last, run, finished, reports⟩ := run
  have judged := echoes_confirmed_iff (.runLabels run)
  have whole : ∀ report ∈ last.client.reports, report.Whole := by
    rw [reports]
    exact List.forall_mem_singleton.mpr ⟨rfl, rfl⟩
  refine ⟨last, run, finished, reports, judged.judged.mpr whole, ?_⟩
  intro all
  have answered := (judged.complete finished).mp all
  obtain ⟨-, answered⟩ := List.forall₂_cons.mp answered
  exact (List.forall₂_cons.mp answered).1.2.1 rfl

end EchoTest

end CoUring
