import CoUring.Client.ClientSocket
import CoUring.Client.ReceivePacket

namespace CoUring

open Foundation

/-! `main` of the test client: its menu, and the thread that receives. -/

abbrev Line := List UInt8

namespace Line

def isSpace (byte : UInt8) : Bool := byte = 32 ∨ 9 ≤ byte ∧ byte ≤ 13

def isDigit (byte : UInt8) : Bool := 48 ≤ byte ∧ byte ≤ 57

def digitsValue (digits : Line) : Nat :=
  digits.foldl (fun value digit => value * 10 + (digit.toNat - 48)) 0

def splitSign : Line → Bool × Line
  | 45 :: rest => (true, rest)
  | 43 :: rest => (false, rest)
  | text => (false, text)

/-- `std::stoi`, where `none` stands for an exception. -/
def stoi (line : Line) : Option Int :=
  let (negative, text) := splitSign (line.dropWhile isSpace)
  let digits := text.takeWhile isDigit
  let value : Int :=
    if negative then -digitsValue digits else digitsValue digits
  if digits = [] then none
  else if -2147483648 ≤ value ∧ value ≤ 2147483647 then some value
  else none

end Line

inductive MenuPoint
  | host
  | port
  | connecting
  | creating
  | menu
  | chat
  | askingId
  | message (packetId : UInt16)
  | sending (packet : Packet)
  /-- The automatic test, with as many packets after this one. -/
  | testing (left : Nat)
  | clearing
  | joining
  | leaving (code : Nat)
  | exited (code : Nat)
  /-- An exception has left `main`. -/
  | terminated
  deriving DecidableEq, Repr

namespace MenuPoint

def choose : Int → MenuPoint
  | 1 => .sending ⟨1, []⟩
  | 2 => .sending ⟨2, [10, 20, 30, 40]⟩
  | 3 => .chat
  | 4 => .askingId
  | 5 => .menu
  | 6 => .testing 4
  | 0 => .clearing
  | _ => .menu

def afterLine (line : Line) : MenuPoint → Option MenuPoint
  | .host => some .port
  | .port =>
      if line = [] then some .connecting
      else
        match line.stoi with
        | some _ => some .connecting
        | none => some .terminated
  | .menu =>
      match line.stoi with
      | some choice => some (choose choice)
      | none => some .menu
  | .chat => if line = [] then some .menu else some (.sending ⟨3, line⟩)
  | .askingId =>
      match line.stoi with
      | some packetId =>
          if packetId < 1 ∨ packetId > 65535 then some .menu
          else some (.message (UInt16.ofNat packetId.toNat))
      | none => some .menu
  | .message packetId => some (.sending ⟨packetId, line⟩)
  | _ => none

def afterTest (succeeded : Bool) : Nat → MenuPoint
  | 0 => .menu
  | left + 1 => if succeeded then .testing left else .menu

end MenuPoint

inductive ReceiverPoint
  | unstarted
  | checking
  | receiving
  | ended
  deriving DecidableEq, Repr

structure InteractiveClient where
  socket : ClientSocket := {}
  point : MenuPoint := .host
  receiver : ReceiverPoint := .unstarted
  receiveThreadRunning : Bool := false
  /-- The `input` of `main`, which its loop reads into again and again. -/
  input : Line := []
  /-- The lines that are left to read. The last of them is what follows the
  last newline, so it may be empty. -/
  cin : List Line := []
  outgoing : List UInt8 := []
  /-- What has come from the server, and whether nothing more will. -/
  incoming : List UInt8 := []
  ended : Bool := false
  deriving DecidableEq, Repr

inductive InteractiveLabel
  | read
  | connect (outcome : ConnectOutcome)
  | createThread (created : Bool)
  | send (sent : Int)
  | clear
  | join
  | leave
  | check
  | receive (errors : RecvErrors) (memory : HeaderMemory)
  | arrive (bytes : List UInt8)
  | close
  deriving DecidableEq, Repr

namespace InteractiveClient

def client (state : InteractiveClient) : TestClient := ⟨state.socket.sock⟩

/-- Once `std::cin` has met its end, `std::getline` leaves the string `str` as
it was. -/
def getline (state : InteractiveClient) (str : Line) :
    Line × InteractiveClient :=
  match state.cin with
  | [] => (str, state)
  | line :: cin => (line, { state with cin := cin })

/-- The string of every other `getline` is new. -/
def read (state : InteractiveClient) : Option InteractiveClient :=
  match state.point with
  | .menu =>
      let (input, next) := state.getline state.input
      (MenuPoint.menu.afterLine input).map fun point =>
        { next with input := input, point := point }
  | point =>
      let (line, next) := state.getline []
      (point.afterLine line).map fun point => { next with point := point }

def sendPacket (order : ByteOrder) (state : InteractiveClient)
    (packet : Packet) (sent : Int) : Bool × InteractiveClient :=
  let (succeeded, bytes) :=
    state.client.sendPacket order packet.id packet.data sent
  (succeeded, { state with outgoing := state.outgoing ++ bytes })

/-- Whether the two `recv` calls of a `receivePacket` come back. -/
def returns (order : ByteOrder) (state : InteractiveClient)
    (errors : RecvErrors) : Bool :=
  errors.header || state.ended ||
    match state.incoming with
    | size₀ :: size₁ :: _ :: _ :: data =>
        errors.data ||
          (order.word size₀ size₁).toNat - sizeofPacketHeader ≤ data.length
    | _ => false

def step (order : ByteOrder) (state : InteractiveClient) :
    InteractiveLabel → Option InteractiveClient
  | .read => state.read
  | .connect outcome =>
      if state.point = .connecting then
        let (connected, socket) := TestClient.connect state.socket outcome
        some { state with
          socket := socket
          point := if connected then .creating else .leaving 1 }
      else none
  | .createThread created =>
      if state.point = .creating then
        if created then
          some { state with
            receiveThreadRunning := true
            receiver := .checking
            point := .menu }
        else
          some { state with
            receiveThreadRunning := true
            point := .terminated }
      else none
  | .send sent =>
      match state.point with
      | .sending packet =>
          some { (state.sendPacket order packet sent).2 with point := .menu }
      | .testing left =>
          let (succeeded, next) := state.sendPacket order ⟨1, []⟩ sent
          some { next with point := .afterTest succeeded left }
      | _ => none
  | .clear =>
      if state.point = .clearing then
        some { state with receiveThreadRunning := false, point := .joining }
      else none
  | .join =>
      if state.point = .joining ∧ state.receiver = .ended then
        some { state with point := .leaving 0 }
      else none
  | .leave =>
      match state.point with
      | .leaving code =>
          some { state with
            socket := state.socket.disconnect
            point := .exited code }
      | _ => none
  | .check =>
      if state.receiver = .checking then
        some { state with
          receiver :=
            if state.receiveThreadRunning then .receiving else .ended }
      else none
  | .receive errors memory =>
      if state.receiver = .receiving ∧ state.returns order errors = true then
        let (packet, rest) :=
          state.client.receivePacket order errors memory state.incoming
        some { state with
          incoming := rest
          receiver := if packet.isSome then .checking else .ended }
      else none
  | .arrive bytes =>
      if state.ended then none
      else some { state with incoming := state.incoming ++ bytes }
  | .close => some { state with ended := true }

end InteractiveClient

def interactiveSystem (order : ByteOrder) (lines : List Line) :
    TransitionSystem InteractiveClient InteractiveLabel :=
  .ofFunction (fun state => state = { cin := lines })
    (InteractiveClient.step order)

namespace MenuPoint

def talks : MenuPoint → Bool
  | .menu => true
  | .chat => true
  | .askingId => true
  | .message _ => true
  | .sending _ => true
  | .testing _ => true
  | _ => false

variable {line : Line} {point next : MenuPoint}

theorem choose_cases (choice : Int) :
    (choose choice).talks = true ∨ choose choice = .clearing ∧ choice = 0 := by
  unfold choose
  split
  all_goals first | exact .inl rfl | exact .inr ⟨rfl, rfl⟩

/-- A line of 0 ends the menu, and nothing else does. -/
theorem afterLine_cases (after : point.afterLine line = some next) :
    point = .host ∧ next = .port ∨
      point = .port ∧ (next = .connecting ∨ next = .terminated) ∨
      point.talks = true ∧
        (next.talks = true ∨ next = .clearing ∧ line.stoi = some 0) := by
  cases point with
  | host =>
      cases after
      exact .inl ⟨rfl, rfl⟩
  | port =>
      refine .inr (.inl ⟨rfl, ?_⟩)
      rw [afterLine] at after
      split at after
      next =>
        cases after
        exact .inl rfl
      next =>
        split at after
        next =>
          cases after
          exact .inl rfl
        next =>
          cases after
          exact .inr rfl
  | menu =>
      refine .inr (.inr ⟨rfl, ?_⟩)
      rw [afterLine] at after
      split at after
      next choice chosen =>
        cases after
        rw [chosen]
        exact (choose_cases choice).imp_right fun ⟨clears, zero⟩ =>
          ⟨clears, congrArg some zero⟩
      next =>
        cases after
        exact .inl rfl
  | chat =>
      refine .inr (.inr ⟨rfl, .inl ?_⟩)
      rw [afterLine] at after
      split at after
      next =>
        cases after
        rfl
      next =>
        cases after
        rfl
  | askingId =>
      refine .inr (.inr ⟨rfl, .inl ?_⟩)
      rw [afterLine] at after
      split at after
      next =>
        split at after
        next =>
          cases after
          rfl
        next =>
          cases after
          rfl
      next =>
        cases after
        rfl
  | message packetId =>
      cases after
      exact .inr (.inr ⟨rfl, .inl rfl⟩)
  | connecting | creating | sending | testing | clearing | joining | leaving
  | exited | terminated => cases after

theorem afterTest_talks (succeeded : Bool) (left : Nat) :
    (afterTest succeeded left).talks = true := by
  cases left with
  | zero => rfl
  | succ left =>
      cases succeeded with
      | true => rfl
      | false => rfl

end MenuPoint

namespace InteractiveClient

variable {order : ByteOrder} {lines : List Line}
  {state next last : InteractiveClient} {label : InteractiveLabel}
  {history : List (InteractiveClient × InteractiveLabel)}

/-- The socket is open, and nothing was closed yet. -/
def Connected (state : InteractiveClient) : Prop :=
  ∃ fd, 0 ≤ fd ∧ state.socket = ⟨fd, [fd], []⟩

def Started (state : InteractiveClient) : Prop :=
  state.receiver ≠ .unstarted ∧ state.Connected

/-- The user has a line of 0 among the others. -/
def Quits (lines : List Line) : Prop := ∃ line ∈ lines, line.stoi = some 0

def Place (lines : List Line) (state : InteractiveClient) :
    MenuPoint → Prop
  | .host | .port | .connecting =>
      state.receiver = .unstarted ∧ state.socket = {}
  | .creating => state.receiver = .unstarted ∧ state.Connected
  | .clearing => state.Started ∧ Quits lines
  | .joining =>
      state.Started ∧ Quits lines ∧ state.receiveThreadRunning = false
  | .leaving code =>
      code = 0 ∧ state.receiver = .ended ∧ state.Connected ∧ Quits lines ∨
        code = 1 ∧ state.receiver = .unstarted ∧ state.socket.sock < 0 ∧
          state.socket.descriptors = []
  | .exited code =>
      state.socket.descriptors = [] ∧
        (code = 0 ∧ state.receiver = .ended ∧ Quits lines ∨
          code = 1 ∧ state.receiver = .unstarted)
  | .terminated => state.receiver = .unstarted
  | .menu | .chat | .askingId | .message _ | .sending _ | .testing _ =>
      state.Started

structure Kept (lines : List Line) (state : InteractiveClient) : Prop where
  cin : ∀ line ∈ state.cin, line ∈ lines
  input : state.input = [] ∨ state.input ∈ lines
  place : state.Place lines state.point

theorem place_of_talks {point : MenuPoint} (talks : point.talks = true) :
    state.Place lines point ↔ state.Started := by
  cases point with
  | menu | chat | askingId | message | sending | testing => exact Iff.rfl
  | host | port | connecting | creating | clearing | joining | leaving
  | exited | terminated => cases talks

theorem getline_eq (state : InteractiveClient) (str : Line) :
    state.getline str =
      (state.cin.headD str, { state with cin := state.cin.tail }) := by
  rw [getline]
  cases here : state.cin with
  | nil => exact congrArg (Prod.mk str) (by rw [List.tail_nil, ← here])
  | cons line cin => rfl

inductive Reads (state : InteractiveClient) : InteractiveClient → Prop
  | choice {point : MenuPoint} (here : state.point = .menu)
      (after : MenuPoint.menu.afterLine (state.cin.headD state.input) =
        some point) :
      Reads state { state with
        cin := state.cin.tail
        input := state.cin.headD state.input
        point := point }
  | line {point : MenuPoint} (other : state.point ≠ .menu)
      (after : state.point.afterLine (state.cin.headD []) = some point) :
      Reads state { state with cin := state.cin.tail, point := point }

theorem read_cases (read : state.read = some next) : state.Reads next := by
  rw [InteractiveClient.read] at read
  split at read
  next here =>
    rw [getline_eq] at read
    obtain ⟨point, after, rfl⟩ := Option.map_eq_some_iff.mp read
    exact .choice here after
  next other =>
    rw [getline_eq] at read
    obtain ⟨point, after, rfl⟩ := Option.map_eq_some_iff.mp read
    exact .line other after

theorem connect_fresh (outcome : ConnectOutcome) :
    ((TestClient.connect {} outcome).1 = true ∧
      ∃ fd, 0 ≤ fd ∧ (TestClient.connect {} outcome).2 = ⟨fd, [fd], []⟩) ∨
    ((TestClient.connect {} outcome).1 = false ∧
      (TestClient.connect {} outcome).2.sock < 0 ∧
      (TestClient.connect {} outcome).2.descriptors = []) := by
  have result : ClientSocket.Connects true {} outcome
      (TestClient.connect {} outcome) :=
    ClientSocket.connects true {} outcome
  generalize TestClient.connect {} outcome = connected at result
  cases result with
  | refused invalid => exact .inr ⟨rfl, invalid, if_pos invalid⟩
  | connected valid =>
      refine .inl ⟨rfl, outcome.socket, valid, ?_⟩
      rw [ClientSocket.openSocket, if_neg (Int.not_lt.mpr valid)]
  | failed valid =>
      refine .inr ⟨rfl, show (-1 : Int) < 0 by decide, ?_⟩
      rw [ClientSocket.openSocket, if_neg (Int.not_lt.mpr valid)]
      exact List.erase_cons_head _ _

theorem Place.receives {point : MenuPoint} {receiver : ReceiverPoint}
    (place : state.Place lines point)
    (runs : state.receiver = .checking ∨ state.receiver = .receiving)
    (moved : receiver ≠ .unstarted) (incoming : List UInt8) :
    ({ state with
      receiver := receiver
      incoming := incoming } : InteractiveClient).Place lines point := by
  have started : state.receiver ≠ .unstarted := by
    rcases runs with checking | receiving
    · rw [checking]
      exact ReceiverPoint.noConfusion
    · rw [receiving]
      exact ReceiverPoint.noConfusion
  have goesOn : state.receiver ≠ .ended := by
    rcases runs with checking | receiving
    · rw [checking]
      exact ReceiverPoint.noConfusion
    · rw [receiving]
      exact ReceiverPoint.noConfusion
  cases point with
  | host | port | connecting => exact absurd place.1 started
  | creating => exact absurd place.1 started
  | menu | chat | askingId | message | sending | testing =>
      exact ⟨moved, place.2⟩
  | clearing => exact ⟨⟨moved, place.1.2⟩, place.2⟩
  | joining => exact ⟨⟨moved, place.1.2⟩, place.2⟩
  | leaving code =>
      rcases place with ⟨-, ended, -⟩ | ⟨-, unstarted, -⟩
      · exact absurd ended goesOn
      · exact absurd unstarted started
  | exited code =>
      rcases place.2 with ⟨-, ended, -⟩ | ⟨-, unstarted⟩
      · exact absurd ended goesOn
      · exact absurd unstarted started
  | terminated => exact absurd place started

theorem goesOn_ne {again : Prop} [Decidable again]
    {first second : ReceiverPoint} (left : first ≠ .unstarted)
    (right : second ≠ .unstarted) :
    (if again then first else second) ≠ .unstarted := by
  split
  next => exact left
  next => exact right

namespace Kept

theorem afterLine {line : Line} {point : MenuPoint} (kept : Kept lines state)
    (known : line = [] ∨ line ∈ lines)
    (after : state.point.afterLine line = some point) :
    state.Place lines point := by
  have place := kept.place
  rcases MenuPoint.afterLine_cases after with
    ⟨here, rfl⟩ | ⟨here, rfl | rfl⟩ | ⟨talks, talks' | ⟨rfl, zero⟩⟩
  · rw [here] at place
    exact place
  · rw [here] at place
    exact place
  · rw [here] at place
    exact place.1
  · exact (place_of_talks talks').mpr ((place_of_talks talks).mp place)
  · refine ⟨(place_of_talks talks).mp place, line, ?_, zero⟩
    rcases known with rfl | member
    · cases zero
    · exact member

theorem headD {str : Line} (kept : Kept lines state)
    (known : str = [] ∨ str ∈ lines) :
    state.cin.headD str = [] ∨ state.cin.headD str ∈ lines := by
  have cin := kept.cin
  cases here : state.cin with
  | nil => exact known
  | cons line later => exact .inr (cin line (here ▸ .head _))

theorem read (kept : Kept lines state)
    (step : state.step order .read = some next) : Kept lines next := by
  have cin : ∀ line ∈ state.cin.tail, line ∈ lines :=
    fun line member => kept.cin line (List.mem_of_mem_tail member)
  cases read_cases step with
  | choice here after =>
      have known := kept.headD kept.input
      exact ⟨cin, known, kept.afterLine known (here.symm ▸ after)⟩
  | line other after =>
      exact ⟨cin, kept.input, kept.afterLine (kept.headD (.inl rfl)) after⟩

theorem connect {outcome : ConnectOutcome} (kept : Kept lines state)
    (step : state.step order (.connect outcome) = some next) :
    Kept lines next := by
  obtain ⟨here, same⟩ := Option.ite_none_right_eq_some.mp step
  cases same
  have place := kept.place
  rw [here] at place
  obtain ⟨unstarted, fresh⟩ := place
  refine ⟨kept.cin, kept.input, ?_⟩
  change Place lines _ (if (TestClient.connect state.socket outcome).1 then _
    else _)
  rw [fresh]
  rcases connect_fresh outcome with ⟨connected, opened⟩ | ⟨failed, closed⟩
  · rw [if_pos connected]
    exact ⟨unstarted, opened⟩
  · rw [if_neg (Bool.eq_false_iff.mp failed)]
    exact .inr ⟨rfl, unstarted, closed⟩

theorem createThread {created : Bool} (kept : Kept lines state)
    (step : state.step order (.createThread created) = some next) :
    Kept lines next := by
  obtain ⟨here, same⟩ := Option.ite_none_right_eq_some.mp step
  have place := kept.place
  rw [here] at place
  cases created with
  | true =>
      cases same
      exact ⟨kept.cin, kept.input, ReceiverPoint.noConfusion, place.2⟩
  | false =>
      cases same
      exact ⟨kept.cin, kept.input, place.1⟩

theorem send {sent : Int} (kept : Kept lines state)
    (step : state.step order (.send sent) = some next) : Kept lines next := by
  have place := kept.place
  rw [InteractiveClient.step] at step
  split at step
  next packet here =>
    cases step
    rw [here] at place
    exact ⟨kept.cin, kept.input, place⟩
  next left here =>
    cases step
    rw [here] at place
    exact ⟨kept.cin, kept.input,
      (place_of_talks (MenuPoint.afterTest_talks _ left)).mpr place⟩
  next => cases step

theorem leave (kept : Kept lines state)
    (step : state.step order .leave = some next) : Kept lines next := by
  have place := kept.place
  rw [InteractiveClient.step] at step
  split at step
  next code here =>
    cases step
    rw [here] at place
    refine ⟨kept.cin, kept.input, ?_⟩
    rcases place with
      ⟨isZero, ended, ⟨fd, valid, opened⟩, quits⟩ |
        ⟨isOne, unstarted, invalid, none⟩
    · refine ⟨?_, .inl ⟨isZero, ended, quits⟩⟩
      change state.socket.disconnect.descriptors = []
      rw [opened, ClientSocket.disconnect, if_neg (Int.not_lt.mpr valid)]
      exact List.erase_cons_head _ _
    · refine ⟨?_, .inr ⟨isOne, unstarted⟩⟩
      change state.socket.disconnect.descriptors = []
      rw [ClientSocket.disconnect, if_pos invalid]
      exact none
  next => cases step

theorem step (kept : Kept lines state)
    (step : state.step order label = some next) : Kept lines next := by
  cases label with
  | read => exact kept.read step
  | connect outcome => exact kept.connect step
  | createThread created => exact kept.createThread step
  | send sent => exact kept.send step
  | clear =>
      obtain ⟨here, same⟩ := Option.ite_none_right_eq_some.mp step
      cases same
      have place := kept.place
      rw [here] at place
      exact ⟨kept.cin, kept.input, place.1, place.2, rfl⟩
  | join =>
      obtain ⟨⟨here, ended⟩, same⟩ := Option.ite_none_right_eq_some.mp step
      cases same
      have place := kept.place
      rw [here] at place
      exact ⟨kept.cin, kept.input, .inl ⟨rfl, ended, place.1.2, place.2.1⟩⟩
  | leave => exact kept.leave step
  | check =>
      obtain ⟨checking, same⟩ := Option.ite_none_right_eq_some.mp step
      cases same
      exact ⟨kept.cin, kept.input, kept.place.receives (.inl checking)
        (goesOn_ne ReceiverPoint.noConfusion ReceiverPoint.noConfusion) _⟩
  | receive errors memory =>
      obtain ⟨⟨receiving, -⟩, same⟩ := Option.ite_none_right_eq_some.mp step
      cases same
      exact ⟨kept.cin, kept.input, kept.place.receives (.inr receiving)
        (goesOn_ne ReceiverPoint.noConfusion ReceiverPoint.noConfusion) _⟩
  | arrive bytes =>
      obtain ⟨-, same⟩ := Option.ite_none_left_eq_some.mp step
      cases same
      exact ⟨kept.cin, kept.input, kept.place⟩
  | close =>
      cases step
      exact ⟨kept.cin, kept.input, kept.place⟩

end Kept

theorem kept_of_reachable
    (reachable : (interactiveSystem order lines).Reachable state) :
    Kept lines state :=
  TransitionSystem.Invariant.reachable
    ⟨fun _ start => start ▸ ⟨fun _ => id, .inl rfl, rfl, rfl⟩,
      fun _ _ _ kept step => kept.step step⟩ reachable

theorem Place.connected {point : MenuPoint} (place : state.Place lines point)
    (receiving : state.receiver = .receiving) : state.Connected := by
  cases point with
  | menu | chat | askingId | message | sending | testing => exact place.2
  | clearing | joining => exact place.1.2
  | host | port | connecting | creating =>
      cases receiving.symm.trans place.1
  | leaving code =>
      rcases place with ⟨-, ended, -⟩ | ⟨-, unstarted, -⟩
      · cases receiving.symm.trans ended
      · cases receiving.symm.trans unstarted
  | exited code =>
      rcases place.2 with ⟨-, ended, -⟩ | ⟨-, unstarted⟩
      · cases receiving.symm.trans ended
      · cases receiving.symm.trans unstarted
  | terminated => cases receiving.symm.trans place

/-- The thread never receives from a socket that was closed, and the client
exits without an open one: where it could not connect, or where the user chose
0 and the thread has ended. At the end of its input it does not exit. -/
theorem client_exits
    (run : (interactiveSystem order lines).Execution { cin := lines }
      history last) :
    (last.receiver = .receiving → last.Connected) ∧
      ∀ code, last.point = .exited code →
        last.socket.descriptors = [] ∧
          (code = 0 ∧ last.receiver = .ended ∧ Quits lines ∨
            code = 1 ∧ last.receiver = .unstarted) := by
  have kept := kept_of_reachable (run.reachable rfl)
  have place := kept.place
  refine ⟨place.connected, fun code exited => ?_⟩
  rw [exited] at place
  exact place

/-- The user sends a message and quits, and the server answers it. -/
def answered : List InteractiveLabel :=
  [.read, .read, .connect ⟨3, true, true⟩, .createThread true, .check, .read,
    .read, .send 6, .arrive [4, 0, 9, 0], .read, .clear,
    .receive {} ⟨0, 0, 0, 0⟩, .check, .join, .leave]

theorem answered_client_exits :
    ∃ last, TransitionSystem.runLabels (step .littleEndian)
        { cin := [[], [], [51], [104, 105], [48], []] } answered = some last ∧
      last.point = .exited 0 ∧ last.outgoing = [6, 0, 3, 0, 104, 105] ∧
      last.socket.descriptors = [] := by
  have run : ∃ last, TransitionSystem.runLabels (step .littleEndian)
      { cin := [[], [], [51], [104, 105], [48], []] } answered = some last ∧
      last.point = .exited 0 ∧ last.outgoing = [6, 0, 3, 0, 104, 105] :=
    ⟨_, rfl, rfl, rfl⟩
  obtain ⟨last, run, exited, outgoing⟩ := run
  exact ⟨last, run, exited, outgoing,
    ((client_exits (.runLabels run)).2 0 exited).1⟩

/-! A client that waits for its thread. -/

/-- Nothing comes from the server any more, and no `recv` fails. -/
def Undisturbed : InteractiveLabel → Prop
  | .arrive _ => False
  | .close => False
  | .receive errors _ => errors = {}
  | _ => True

theorem waiting_step (joining : state.point = .joining)
    (receiving : state.receiver = .receiving)
    (step : state.step order label = some next) :
    (∃ bytes, label = .arrive bytes) ∨ label = .close ∨
      ∃ errors memory, label = .receive errors memory ∧
        state.returns order errors = true := by
  cases label with
  | read =>
      cases read_cases step with
      | choice here after => cases joining.symm.trans here
      | line other after =>
          rw [joining] at after
          cases after
  | connect outcome =>
      have here := (Option.ite_none_right_eq_some.mp step).1
      cases joining.symm.trans here
  | createThread created =>
      have here := (Option.ite_none_right_eq_some.mp step).1
      cases joining.symm.trans here
  | send sent =>
      rw [InteractiveClient.step, joining] at step
      cases step
  | clear =>
      have here := (Option.ite_none_right_eq_some.mp step).1
      cases joining.symm.trans here
  | join =>
      have here := (Option.ite_none_right_eq_some.mp step).1
      cases receiving.symm.trans here.2
  | leave =>
      rw [InteractiveClient.step, joining] at step
      cases step
  | check =>
      have here := (Option.ite_none_right_eq_some.mp step).1
      cases receiving.symm.trans here
  | receive errors memory =>
      have comes := (Option.ite_none_right_eq_some.mp step).1.2
      exact .inr (.inr ⟨errors, memory, rfl, comes⟩)
  | arrive bytes => exact .inl ⟨bytes, rfl⟩
  | close => exact .inr (.inl rfl)

/-- A run of the client by itself that ends with its exit. -/
def CanExit (order : ByteOrder) (lines : List Line)
    (state : InteractiveClient) : Prop :=
  ∃ history last, (interactiveSystem order lines).Execution state history last ∧
    (∀ taken ∈ history, Undisturbed taken.2) ∧ last.point = .exited 0

theorem CanExit.before (exits : next.CanExit order lines)
    (step : state.step order label = some next)
    (undisturbed : Undisturbed label) : state.CanExit order lines := by
  obtain ⟨history, last, run, alone, exited⟩ := exits
  refine ⟨_, last, (TransitionSystem.Execution.refl.snoc step).trans run, ?_,
    exited⟩
  exact List.forall_mem_cons.mpr ⟨undisturbed, alone⟩

theorem ended_exits (joining : state.point = .joining)
    (ended : state.receiver = .ended) : state.CanExit order lines := by
  have joins : state.step order .join =
      some { state with point := .leaving 0 } := if_pos ⟨joining, ended⟩
  have leaves : ({ state with point := .leaving 0 } : InteractiveClient).step
      order .leave = some { state with
        socket := state.socket.disconnect
        point := .exited 0 } := rfl
  have exits : CanExit order lines { state with
      socket := state.socket.disconnect
      point := .exited 0 } := ⟨[], _, .refl, List.forall_mem_nil _, rfl⟩
  exact (exits.before leaves trivial).before joins trivial

theorem receive_enabled (receiving : state.receiver = .receiving)
    (comes : state.returns order {} = true) :
    ∃ next, state.step order (.receive {} ⟨0, 0, 0, 0⟩) = some next ∧
      next.point = state.point ∧
      next.receiveThreadRunning = state.receiveThreadRunning ∧
      (next.receiver = .checking ∨ next.receiver = .ended) := by
  refine ⟨_, if_pos ⟨receiving, comes⟩, rfl, rfl, ?_⟩
  exact (ite_eq_or_eq _ _ _)

/-- A client that was told to quit while its thread is in `recv` can exit by
itself just when a whole packet has come, or the server has closed. -/
theorem quits_iff
    (reachable : (interactiveSystem order lines).Reachable state)
    (joining : state.point = .joining)
    (receiving : state.receiver = .receiving) :
    state.CanExit order lines ↔ state.returns order {} = true := by
  constructor
  · intro exits
    obtain ⟨history, last, run, alone, exited⟩ := exits
    refine by_contra fun silent => ?_
    have stays : last = state := by
      clear exited
      induction run with
      | refl => rfl
      | @snoc middle next history label run step induction =>
          obtain ⟨earlier, undisturbed⟩ := List.forall_mem_append.mp alone
          have same := induction earlier
          rw [same] at step
          have taken : Undisturbed label := undisturbed _ (.head _)
          rcases waiting_step joining receiving step with
            ⟨bytes, rfl⟩ | rfl | ⟨errors, memory, rfl, comes⟩
          · exact taken.elim
          · exact taken.elim
          · cases taken
            exact absurd comes silent
    rw [stays, joining] at exited
    cases exited
  · intro comes
    have place := (kept_of_reachable reachable).place
    rw [joining] at place
    obtain ⟨next, receives, point, running, checking | ended⟩ :=
      receive_enabled receiving comes
    · have checks : next.step order .check =
          some { next with receiver := .ended } := by
        refine (if_pos checking).trans ?_
        rw [running, place.2.2]
        rfl
      have exits : CanExit order lines { next with receiver := .ended } :=
        ended_exits (point.trans joining) rfl
      exact (exits.before checks trivial).before receives rfl
    · exact (ended_exits (point.trans joining) ended).before receives rfl

/-- The user quits, and the server never says a word. -/
def unanswered : List InteractiveLabel :=
  [.read, .read, .connect ⟨3, true, true⟩, .createThread true, .check, .read,
    .clear]

theorem unanswered_client_waits :
    ∃ last, TransitionSystem.runLabels (step .littleEndian)
        { cin := [[], [], [48], []] } unanswered = some last ∧
      ¬ last.CanExit .littleEndian [[], [], [48], []] := by
  have run : ∃ last, TransitionSystem.runLabels (step .littleEndian)
      { cin := [[], [], [48], []] } unanswered = some last ∧
      last.point = .joining ∧ last.receiver = .receiving ∧
      last.returns .littleEndian {} = false := ⟨_, rfl, rfl, rfl, rfl⟩
  obtain ⟨last, run, joining, receiving, silent⟩ := run
  have reachable : (interactiveSystem .littleEndian
      [[], [], [48], []]).Reachable last := .runLabels (.initial rfl) run
  refine ⟨last, run, fun exits => ?_⟩
  have comes := (quits_iff reachable joining receiving).mp exits
  cases silent.symm.trans comes

end InteractiveClient

end CoUring
