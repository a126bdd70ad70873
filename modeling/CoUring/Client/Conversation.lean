import CoUring.Client.Interactive
import CoUring.Client.PacketStream

namespace CoUring

open Foundation

/-! What the user of the test client asks for, as the other end reads it. -/

inductive MenuCommand
  | welcome
  | move
  | chat (message : Line)
  | custom (packetId : UInt16) (message : Line)
  | autoTest
  | quit
  deriving DecidableEq, Repr

def Line.packetId? (line : Line) : Option UInt16 :=
  line.stoi.bind fun packetId =>
    if 1 ≤ packetId ∧ packetId ≤ 65535 then
      some (UInt16.ofNat packetId.toNat)
    else none

/-- What is chosen, and the lines that are left when it is read. What is
missing at the end counts as empty. -/
def readChoice (choice : Line) (lines : List Line) :
    List MenuCommand × List Line :=
  match choice.stoi with
  | some 1 => ([.welcome], lines)
  | some 2 => ([.move], lines)
  | some 3 => ([.chat (lines.headD [])], lines.tail)
  | some 4 =>
      match (lines.headD []).packetId? with
      | none => ([], lines.tail)
      | some packetId =>
          ([.custom packetId (lines.tail.headD [])], lines.tail.tail)
  | some 6 => ([.autoTest], lines)
  | _ => ([], lines)

theorem readChoice_suffix (choice : Line) (lines : List Line) :
    (readChoice choice lines).2 <:+ lines := by
  unfold readChoice
  split
  · exact List.suffix_rfl
  · exact List.suffix_rfl
  · exact List.tail_suffix lines
  · split
    · exact List.tail_suffix lines
    · exact (List.tail_suffix lines.tail).trans (List.tail_suffix lines)
  · exact List.suffix_rfl
  · exact List.suffix_rfl

/-- The commands in the lines after the host and the port, where the last
choice was `input`. At the end this choice is made another `turns` times. -/
def commandsOf (turns : Nat) (input : Line) : List Line → List MenuCommand
  | [] => (List.replicate turns (readChoice input []).1).flatten
  | line :: rest =>
      if line.stoi = some 0 then [.quit]
      else
        (readChoice line rest).1 ++
          commandsOf turns line (readChoice line rest).2
termination_by lines => lines.length
decreasing_by exact Nat.lt_succ_of_le (readChoice_suffix _ _).length_le

/-- What a command puts on the wire; an empty chat message is refused. -/
def MenuCommand.packets : MenuCommand → List Packet
  | .welcome => [⟨1, []⟩]
  | .move => [⟨2, [10, 20, 30, 40]⟩]
  | .chat message => if message = [] then [] else [⟨3, message⟩]
  | .custom packetId message => [⟨packetId, message⟩]
  | .autoTest => List.replicate 5 ⟨1, []⟩
  | .quit => []

def packetsAsked (turns : Nat) (input : Line) (lines : List Line) :
    List Packet :=
  (commandsOf turns input lines).flatMap MenuCommand.packets

section Asked

variable {turns : Nat} {input line : Line} {rest lines : List Line}

theorem readChoice_refused (refused : line.stoi = none) :
    readChoice line rest = ([], rest) := by
  rw [readChoice, refused]

@[simp]
theorem packetsAsked_zero : packetsAsked 0 input [] = [] := by
  rw [packetsAsked, commandsOf]
  rfl

theorem packetsAsked_succ :
    packetsAsked (turns + 1) input [] =
      (readChoice input []).1.flatMap MenuCommand.packets ++
        packetsAsked turns input [] := by
  rw [packetsAsked, commandsOf, List.replicate_succ, List.flatten_cons,
    List.flatMap_append, packetsAsked, commandsOf]

theorem packetsAsked_quit (quit : line.stoi = some 0) :
    packetsAsked turns input (line :: rest) = [] := by
  rw [packetsAsked, commandsOf, if_pos quit]
  rfl

theorem packetsAsked_cons (goesOn : line.stoi ≠ some 0) :
    packetsAsked turns input (line :: rest) =
      (readChoice line rest).1.flatMap MenuCommand.packets ++
        packetsAsked turns line (readChoice line rest).2 := by
  rw [packetsAsked, commandsOf, if_neg goesOn, List.flatMap_append,
    packetsAsked]

theorem packetsAsked_nil
    (nothing : (readChoice input []).1.flatMap MenuCommand.packets = []) :
    packetsAsked turns input [] = [] := by
  induction turns with
  | zero => exact packetsAsked_zero
  | succ turns induction =>
      rw [packetsAsked_succ, nothing, induction]
      rfl

/-- Each turn at the end asks for the same packets. -/
theorem packetsAsked_turns (input : Line) (lines : List Line) :
    ∃ once, ∀ turns, packetsAsked turns input lines =
      packetsAsked 0 input lines ++ (List.replicate turns once).flatten := by
  induction input, lines using commandsOf.induct with
  | case1 input =>
      refine ⟨(readChoice input []).1.flatMap MenuCommand.packets, ?_⟩
      intro turns
      induction turns with
      | zero => exact (List.append_nil _).symm
      | succ turns induction =>
          rw [packetsAsked_succ, induction, packetsAsked_zero]
          rfl
  | case2 input line rest quit =>
      refine ⟨[], fun turns => ?_⟩
      rw [packetsAsked_quit quit, packetsAsked_quit quit,
        List.flatten_replicate_nil]
      rfl
  | case3 input line rest goesOn induction =>
      obtain ⟨once, same⟩ := induction
      refine ⟨once, fun turns => ?_⟩
      rw [packetsAsked_cons goesOn, packetsAsked_cons goesOn, same turns,
        List.append_assoc]

/-- Where one more turn adds nothing, none does. -/
theorem packetsAsked_settled
    (settled : packetsAsked (turns + 1) input lines =
      packetsAsked turns input lines) :
    packetsAsked turns input lines = packetsAsked 0 input lines := by
  obtain ⟨once, same⟩ := packetsAsked_turns input lines
  rw [same (turns + 1), same turns, List.replicate_succ', List.flatten_append,
    ← List.append_assoc, List.flatten_singleton] at settled
  have nothing : once = [] := List.append_right_eq_self.mp settled
  rw [same turns, nothing, List.flatten_replicate_nil, List.append_nil]

theorem getLast?_of_suffix {α : Type} {xs ys : List α} (suffix : xs <:+ ys)
    (nonempty : xs ≠ []) : xs.getLast? = ys.getLast? := by
  obtain ⟨front, rfl⟩ := suffix
  rw [List.getLast?_append, List.getLast?_eq_some_getLast nonempty]
  rfl

/-- A choice that reads the last line has none to read again. -/
theorem readChoice_last (more : rest ≠ [])
    (last : (readChoice line rest).2 = []) :
    (readChoice line []).1.flatMap MenuCommand.packets = [] := by
  rw [readChoice] at last ⊢
  split at last
  next => exact absurd last more
  next => exact absurd last more
  next => rfl
  next => rfl
  next => exact absurd last more
  next => exact absurd last more

/-- A newline at the end of the input leaves no choice to make again. -/
theorem packetsAsked_newline (input : Line) (lines : List Line)
    (ends : lines.getLast? = some []) :
    packetsAsked turns input lines = packetsAsked 0 input lines := by
  induction input, lines using commandsOf.induct with
  | case1 input => cases ends
  | case2 input line rest quit =>
      rw [packetsAsked_quit quit, packetsAsked_quit quit]
  | case3 input line rest goesOn induction =>
      rw [packetsAsked_cons goesOn, packetsAsked_cons goesOn]
      refine congrArg _ ?_
      by_cases last : (readChoice line rest).2 = []
      · have nothing :
            (readChoice line []).1.flatMap MenuCommand.packets = [] := by
          by_cases more : rest = []
          · rw [more, List.getLast?_singleton, Option.some.injEq] at ends
            rw [ends]
            rfl
          · exact readChoice_last more last
        rw [last, packetsAsked_nil nothing, packetsAsked_nil nothing]
      · apply induction
        have suffix := readChoice_suffix line rest
        rw [getLast?_of_suffix suffix last, ← ends]
        exact getLast?_of_suffix (List.suffix_cons line rest)
          fun none => last (List.suffix_nil.mp (none ▸ suffix))

end Asked

def Packet.bytes (order : ByteOrder) (packet : Packet) : List UInt8 :=
  PacketHeader.bytes order
    ⟨UInt16.ofNat (sizeofPacketHeader + packet.data.length), packet.id⟩ ++
      packet.data

namespace MenuPoint

variable {line input : Line} {point next : MenuPoint} {cin : List Line}
  {turns : Nat}

def ahead (turns : Nat) (input : Line) : MenuPoint → List Line → List Packet
  | .host, cin => packetsAsked turns input (cin.drop 2)
  | .port, cin => packetsAsked turns input (cin.drop 1)
  | .connecting, cin => packetsAsked turns input cin
  | .creating, cin => packetsAsked turns input cin
  | .menu, cin => packetsAsked turns input cin
  | .chat, cin => (MenuCommand.chat (cin.headD [])).packets ++
      packetsAsked turns input cin.tail
  | .askingId, cin =>
      match (cin.headD []).packetId? with
      | none => packetsAsked turns input cin.tail
      | some packetId => ⟨packetId, cin.tail.headD []⟩ ::
          packetsAsked turns input cin.tail.tail
  | .message packetId, cin =>
      ⟨packetId, cin.headD []⟩ :: packetsAsked turns input cin.tail
  | .sending packet, cin => packet :: packetsAsked turns input cin
  | .testing left, cin =>
      List.replicate (left + 1) ⟨1, []⟩ ++ packetsAsked turns input cin
  | _, _ => []

/-- `main` gives up before the user has chosen 0. -/
def fails : MenuPoint → Bool
  | .leaving code => code ≠ 0
  | .exited code => code ≠ 0
  | .terminated => true
  | _ => false

def packet? : MenuPoint → Option Packet
  | .sending packet => some packet
  | .testing _ => some ⟨1, []⟩
  | _ => none

theorem ahead_choose {choice : Int} (chosen : line.stoi = some choice)
    (goesOn : choice ≠ 0) :
    (choose choice).ahead turns line cin =
      (readChoice line cin).1.flatMap MenuCommand.packets ++
        packetsAsked turns line (readChoice line cin).2 := by
  rw [readChoice, chosen]
  unfold choose
  split
  · rfl
  · rfl
  · exact congrArg (· ++ _) (List.flatMap_singleton _ _).symm
  · rw [ahead]
    cases (cin.headD []).packetId? with
    | none => rfl
    | some packetId => rfl
  · rfl
  · rfl
  · exact absurd rfl goesOn
  next =>
    -- no other number is a choice
    split
    all_goals
      first
      | rfl
      | exact absurd (Option.some.inj ‹some choice = some _›) (by assumption)

theorem ahead_menu (after : afterLine line .menu = some next) :
    ahead turns input .menu (line :: cin) = next.ahead turns line cin := by
  rw [ahead]
  rw [afterLine] at after
  cases read : line.stoi with
  | none =>
      have goesOn : line.stoi ≠ some 0 := by
        rw [read]
        exact (Option.some_ne_none 0).symm
      rw [packetsAsked_cons goesOn, readChoice_refused read]
      rw [read] at after
      cases after
      rfl
  | some choice =>
      rw [read] at after
      cases after
      by_cases quit : choice = 0
      · rw [quit] at read ⊢
        exact packetsAsked_quit read
      · rw [packetsAsked_cons fun same => quit (by simpa [read] using same),
          ahead_choose read quit]

/-- At the end of the input the last choice is made once more. -/
theorem ahead_menu_nil (after : afterLine input .menu = some next) :
    ahead (turns + 1) input .menu [] = next.ahead turns input [] := by
  rw [ahead, packetsAsked_succ]
  rw [afterLine] at after
  cases read : input.stoi with
  | none =>
      rw [readChoice_refused read]
      rw [read] at after
      cases after
      rfl
  | some choice =>
      rw [read] at after
      cases after
      by_cases quit : choice = 0
      · rw [quit] at read ⊢
        have nothing :
            (readChoice input []).1.flatMap MenuCommand.packets = [] := by
          rw [readChoice, read]
          rfl
        rw [nothing, packetsAsked_nil nothing]
        rfl
      · rw [ahead_choose read quit,
          List.suffix_nil.mp (readChoice_suffix input [])]

theorem ahead_askingId
    (after : afterLine (cin.headD []) .askingId = some next) :
    ahead turns input .askingId cin = next.ahead turns input cin.tail := by
  rw [afterLine] at after
  have bounds : ∀ packetId : Int, 1 ≤ packetId ∧ packetId ≤ 65535 ↔
      ¬ (packetId < 1 ∨ packetId > 65535) := by
    intro packetId
    omega
  rw [ahead]
  generalize cin.headD [] = packetIdStr at after ⊢
  cases read : packetIdStr.stoi with
  | none =>
      rw [read] at after
      cases after
      simp [ahead, Line.packetId?, read]
  | some packetId =>
      rw [read] at after
      dsimp only at after
      split at after
      next outside =>
        cases after
        simp only [ahead, Line.packetId?, read, bounds, Option.bind_some,
          if_neg (not_not.mpr outside)]
      next inside =>
        cases after
        simp only [ahead, Line.packetId?, read, bounds, Option.bind_some,
          if_pos inside]

theorem ahead_line (other : point ≠ .menu)
    (after : point.afterLine (cin.headD []) = some next)
    (goesOn : next.fails = false) :
    point.ahead turns input cin = next.ahead turns input cin.tail := by
  cases point with
  | host =>
      cases after
      rw [ahead, ahead, List.drop_tail]
  | port =>
      rw [afterLine] at after
      split at after
      next =>
        cases after
        rw [ahead, ahead, List.drop_one]
      next =>
        split at after
        next =>
          cases after
          rw [ahead, ahead, List.drop_one]
        next =>
          cases after
          cases goesOn
  | menu => exact absurd rfl other
  | chat =>
      rw [afterLine] at after
      split at after
      next empty =>
        cases after
        change (MenuCommand.chat (cin.headD [])).packets ++ _ = _
        rw [empty]
        rfl
      next present =>
        cases after
        rw [ahead, MenuCommand.packets, if_neg present]
        rfl
  | askingId => exact ahead_askingId after
  | message packetId =>
      cases after
      rfl
  | connecting | creating | sending | testing | clearing | joining | leaving
  | exited | terminated => cases after

theorem fails_of_afterLine (after : point.afterLine line = some next) :
    point.fails = false := by
  cases point with
  | leaving | exited | terminated => cases after
  | host | port | connecting | creating | menu | chat | askingId | message
  | sending | testing | clearing | joining => rfl

end MenuPoint

/-! One packet on the wire. -/

theorem sendPacket_whole {order : ByteOrder} (client : TestClient)
    (connected : 0 ≤ client.sock) (packet : Packet) :
    client.sendPacket order packet.id packet.data
        (sizeofPacketHeader + packet.data.length) =
      (true, packet.bytes order) := by
  have sent : ¬ ((sizeofPacketHeader : Int) + packet.data.length < 0) := by
    omega
  have size : (packet.bytes order).length =
      sizeofPacketHeader + packet.data.length := by
    obtain ⟨_, _, sizeBytes, -⟩ := order.bytes_eq
      (UInt16.ofNat (sizeofPacketHeader + packet.data.length))
    obtain ⟨_, _, idBytes, -⟩ := order.bytes_eq packet.id
    rw [Packet.bytes, PacketHeader.bytes, sizeBytes, idBytes,
      List.length_append]
    rfl
  rw [TestClient.sendPacket, if_neg (Int.not_lt.mpr connected)]
  dsimp only
  rw [if_neg sent]
  refine congrArg (Prod.mk true) (List.take_of_length_le ?_)
  exact Nat.le_of_eq (size.trans (Int.toNat_natCast _).symm)

/-- A packet is read back just when its size fits the field for it. -/
theorem packet_read_back_iff {order : ByteOrder} {receiver : TestClient}
    (connected : 0 ≤ receiver.sock) (packet : Packet) (later : List UInt8) :
    (∀ memory, receiver.receivePacket order {} memory
        (packet.bytes order ++ later) = (some packet, later)) ↔
      sizeofPacketHeader + packet.data.length < 65536 := by
  have call : ∃ call : SendCall, call.packet = packet ∧
      call.run order ⟨0⟩ = (true, packet.bytes order) ∧
      (call.Whole ↔ sizeofPacketHeader + packet.data.length < 65536) := by
    refine ⟨⟨packet.id, packet.data, _, Int.le_refl _⟩, rfl,
      sendPacket_whole ⟨0⟩ (Int.le_refl 0) packet, ?_⟩
    exact and_iff_left rfl
  obtain ⟨call, rfl, ran, whole⟩ := call
  have wire : (call.run order ⟨0⟩).2 = call.packet.bytes order :=
    congrArg Prod.snd ran
  have succeeded : (call.run order ⟨0⟩).1 = true := congrArg Prod.fst ran
  rw [← whole, ← wire]
  constructor
  · exact received_packet_whole connected succeeded
  · intro whole memory
    exact whole_packet_received connected succeeded whole later

namespace InteractiveClient

variable {order : ByteOrder} {lines : List Line}
  {state next last : InteractiveClient} {label : InteractiveLabel}
  {history : List (InteractiveClient × InteractiveLabel)}
  {turns : Nat} {sent : List Packet} {packet : Packet}

def SendsWhole (state : InteractiveClient) : InteractiveLabel → Prop
  | .send sent => ∀ packet ∈ state.point.packet?,
      sent = sizeofPacketHeader + packet.data.length
  | _ => True

instance (state : InteractiveClient) :
    ∀ label, Decidable (state.SendsWhole label)
  | .send _ => Option.decidableForallMem _
  | .read | .connect _ | .createThread _ | .clear | .join | .leave | .check
  | .receive _ _ | .arrive _ | .close => instDecidableTrue

def sentBy (state : InteractiveClient) :
    InteractiveLabel → Option Packet
  | .send _ => state.point.packet?
  | _ => none

def packetsSent (history : List (InteractiveClient × InteractiveLabel)) :
    List Packet :=
  history.filterMap fun taken => taken.1.sentBy taken.2

/-- A turn of the menu that finds the input at its end. -/
def readsAgain (state : InteractiveClient) : InteractiveLabel → Bool
  | .read => state.point = .menu ∧ state.cin = []
  | _ => false

def turnsAgain (history : List (InteractiveClient × InteractiveLabel)) :
    Nat :=
  history.countP fun taken => taken.1.readsAgain taken.2

/-- What was sent is the front of what was asked for, and unless `main` has
given up the rest is still ahead, however often the last choice is made. -/
structure Speaks (order : ByteOrder) (lines : List Line)
    (state : InteractiveClient) (turns : Nat) (sent : List Packet) :
    Prop where
  asked : sent <+: packetsAsked turns [] (lines.drop 2)
  ahead : state.point.fails = false → ∀ more,
    packetsAsked (turns + more) [] (lines.drop 2) =
      sent ++ state.point.ahead more state.input state.cin
  wire : state.outgoing = sent.flatMap (Packet.bytes order)

namespace Speaks

theorem goOn (speaks : Speaks order lines state turns sent)
    (goesOn : next.point.fails = false → state.point.fails = false ∧
      ∀ more, state.point.ahead more state.input state.cin =
        next.point.ahead more next.input next.cin)
    (outgoing : next.outgoing = state.outgoing) :
    Speaks order lines next turns sent where
  asked := speaks.asked
  ahead := fun alive more => by
    obtain ⟨before, same⟩ := goesOn alive
    rw [← same]
    exact speaks.ahead before more
  wire := outgoing.trans speaks.wire

theorem say (speaks : Speaks order lines state turns sent)
    (goesOn : state.point.fails = false)
    (ahead : ∀ more, state.point.ahead more state.input state.cin =
      packet :: next.point.ahead more next.input next.cin)
    (outgoing : next.outgoing = state.outgoing ++ packet.bytes order) :
    Speaks order lines next turns (sent ++ [packet]) := by
  have rest : ∀ more, packetsAsked (turns + more) [] (lines.drop 2) =
      sent ++ [packet] ++ next.point.ahead more next.input next.cin := by
    intro more
    rw [speaks.ahead goesOn more, ahead, List.append_cons]
  refine ⟨⟨_, (rest 0).symm⟩, fun _ => rest, ?_⟩
  rw [outgoing, speaks.wire, List.flatMap_append, List.flatMap_singleton]

theorem turn (speaks : Speaks order lines state turns sent)
    (goesOn : state.point.fails = false)
    (ahead : ∀ more, state.point.ahead (more + 1) state.input state.cin =
      next.point.ahead more next.input next.cin)
    (outgoing : next.outgoing = state.outgoing) :
    Speaks order lines next (turns + 1) sent := by
  have rest : ∀ more, packetsAsked (turns + 1 + more) [] (lines.drop 2) =
      sent ++ next.point.ahead more next.input next.cin := by
    intro more
    rw [← ahead, Nat.add_assoc, Nat.add_comm 1 more]
    exact speaks.ahead goesOn (more + 1)
  exact ⟨⟨_, (rest 0).symm⟩, fun _ => rest, outgoing.trans speaks.wire⟩

theorem read (speaks : Speaks order lines state turns sent)
    (step : state.step order .read = some next) :
    Speaks order lines next (turns + (state.readsAgain .read).toNat)
      sent := by
  cases read_cases step with
  | @choice point here after =>
      have goesOn : state.point.fails = false := by
        rw [here]
        rfl
      rw [readsAgain, here]
      cases left : state.cin with
      | nil =>
          rw [left] at after
          refine speaks.turn goesOn (fun more => ?_) rfl
          rw [here, left]
          exact MenuPoint.ahead_menu_nil after
      | cons line cin =>
          rw [left] at after
          refine speaks.goOn (fun _ => ⟨goesOn, fun more => ?_⟩) rfl
          rw [here, left]
          exact MenuPoint.ahead_menu after
  | @line point other after =>
      rw [readsAgain, decide_eq_false fun ended => other ended.1]
      refine speaks.goOn (fun goesOn => ?_) rfl
      exact ⟨MenuPoint.fails_of_afterLine after,
        fun more => MenuPoint.ahead_line other after goesOn⟩

theorem send {reported : Int} (speaks : Speaks order lines state turns sent)
    (kept : Kept lines state)
    (whole : state.SendsWhole (.send reported))
    (step : state.step order (.send reported) = some next) :
    Speaks order lines next turns
      (sent ++ (state.sentBy (.send reported)).toList) := by
  have place := kept.place
  have sends : state.Started → ∀ packet, state.point.packet? = some packet →
      state.sendPacket order packet reported =
        (true, { state with
          outgoing := state.outgoing ++ packet.bytes order }) := by
    intro started packet about
    obtain ⟨-, fd, valid, opened⟩ := started
    have connected : 0 ≤ state.client.sock := by
      rw [client, opened]
      exact valid
    rw [sendPacket, whole packet about, sendPacket_whole _ connected]
  rw [InteractiveClient.step] at step
  split at step
  next packet here =>
    rw [here] at place
    have about : state.point.packet? = some packet := by
      rw [here]
      rfl
    rw [sends place packet about] at step
    cases step
    rw [sentBy, about]
    refine speaks.say ?_ (fun more => ?_) rfl
    · rw [here]
      rfl
    · rw [here]
      rfl
  next left here =>
    rw [here] at place
    have about : state.point.packet? = some ⟨1, []⟩ := by
      rw [here]
      rfl
    rw [sends place _ about] at step
    cases step
    rw [sentBy, about]
    refine speaks.say ?_ (fun more => ?_) rfl
    · rw [here]
      rfl
    · rw [here]
      cases left with
      | zero => rfl
      | succ left => rfl
  next => cases step

theorem step (speaks : Speaks order lines state turns sent)
    (kept : Kept lines state) (whole : state.SendsWhole label)
    (step : state.step order label = some next) :
    Speaks order lines next (turns + (state.readsAgain label).toNat)
      (sent ++ (state.sentBy label).toList) := by
  cases label with
  | send reported => exact speaks.send kept whole step
  | read =>
      simp only [sentBy, Option.toList_none, List.append_nil]
      exact speaks.read step
  | connect outcome =>
      simp only [sentBy, Option.toList_none, List.append_nil]
      rw [InteractiveClient.step] at step
      generalize TestClient.connect state.socket outcome = result at step
      obtain ⟨connected, socket⟩ := result
      obtain ⟨here, same⟩ := Option.ite_none_right_eq_some.mp step
      cases same
      refine speaks.goOn (fun goesOn => ?_) rfl
      rw [here]
      cases connected with
      | true => exact ⟨rfl, fun _ => rfl⟩
      | false => cases goesOn
  | createThread created =>
      simp only [sentBy, Option.toList_none, List.append_nil]
      obtain ⟨here, same⟩ := Option.ite_none_right_eq_some.mp step
      cases created with
      | true =>
          cases same
          refine speaks.goOn (fun _ => ?_) rfl
          rw [here]
          exact ⟨rfl, fun _ => rfl⟩
      | false =>
          cases same
          exact speaks.goOn (fun goesOn => by cases goesOn) rfl
  | clear =>
      simp only [sentBy, Option.toList_none, List.append_nil]
      obtain ⟨here, same⟩ := Option.ite_none_right_eq_some.mp step
      cases same
      refine speaks.goOn (fun _ => ?_) rfl
      rw [here]
      exact ⟨rfl, fun _ => rfl⟩
  | join =>
      simp only [sentBy, Option.toList_none, List.append_nil]
      obtain ⟨⟨here, -⟩, same⟩ := Option.ite_none_right_eq_some.mp step
      cases same
      refine speaks.goOn (fun _ => ?_) rfl
      rw [here]
      exact ⟨rfl, fun _ => rfl⟩
  | leave =>
      simp only [sentBy, Option.toList_none, List.append_nil]
      rw [InteractiveClient.step] at step
      split at step
      next code here =>
        cases step
        refine speaks.goOn (fun goesOn => ?_) rfl
        rw [here]
        exact ⟨goesOn, fun _ => rfl⟩
      next => cases step
  | check | receive =>
      simp only [sentBy, Option.toList_none, List.append_nil]
      obtain ⟨-, same⟩ := Option.ite_none_right_eq_some.mp step
      cases same
      exact speaks.goOn (fun goesOn => ⟨goesOn, fun _ => rfl⟩) rfl
  | arrive bytes =>
      simp only [sentBy, Option.toList_none, List.append_nil]
      obtain ⟨-, same⟩ := Option.ite_none_left_eq_some.mp step
      cases same
      exact speaks.goOn (fun goesOn => ⟨goesOn, fun _ => rfl⟩) rfl
  | close =>
      simp only [sentBy, Option.toList_none, List.append_nil]
      cases step
      exact speaks.goOn (fun goesOn => ⟨goesOn, fun _ => rfl⟩) rfl

end Speaks

theorem speaks_run
    (run : (interactiveSystem order lines).Execution { cin := lines }
      history last)
    (whole : ∀ taken ∈ history, taken.1.SendsWhole taken.2) :
    Speaks order lines last (turnsAgain history) (packetsSent history) := by
  induction run with
  | refl =>
      refine ⟨List.nil_prefix, fun _ more => ?_, rfl⟩
      rw [turnsAgain, List.countP_nil, Nat.zero_add]
      rfl
  | @snoc last next history label run step induction =>
      obtain ⟨earlier, now⟩ := List.forall_mem_append.mp whole
      have grown : packetsSent (history ++ [(last, label)]) =
          packetsSent history ++ (last.sentBy label).toList := by
        rw [packetsSent, List.filterMap_append, ← packetsSent]
        cases sent : last.sentBy label with
        | none => simp [sent]
        | some packet => simp [sent]
      have more : turnsAgain (history ++ [(last, label)]) =
          turnsAgain history + (last.readsAgain label).toNat := by
        rw [turnsAgain, List.countP_append, ← turnsAgain]
        cases again : last.readsAgain label with
        | false => simp [again]
        | true => simp [again]
      rw [grown, more]
      exact (induction earlier).step (kept_of_reachable (run.reachable rfl))
        (now _ (.head _)) step

/-- What the other end has of the user's wishes: the packets in the order in
which they were asked for, and in the end all of them. The last choice is read
again at the end of the input, and each time it is another wish; where a
newline ends the input, there is none to read. -/
structure Understood (order : ByteOrder) (receiver : TestClient)
    (lines : List Line) (turns : Nat) (sent : List Packet)
    (last : InteractiveClient) : Prop where
  asked : sent <+: packetsAsked turns [] (lines.drop 2)
  usedUp : last.point = .menu ∧ last.cin = [] →
    sent = packetsAsked turns [] (lines.drop 2)
  quit : last.point = .exited 0 → sent = packetsAsked 0 [] (lines.drop 2)
  newline : lines.getLast? = some [] →
    packetsAsked turns [] (lines.drop 2) = packetsAsked 0 [] (lines.drop 2)
  received : (∀ memories : List HeaderMemory,
      memories.length = sent.length + 1 →
      Framing.readEach (receiver.receivePacket order {}) memories
          last.outgoing =
        Framing.framesThenEnd (Packet.bytes order) id sent) ↔
    ∀ packet ∈ sent, sizeofPacketHeader + packet.data.length < 65536

theorem Speaks.understood (speaks : Speaks order lines last turns sent)
    {receiver : TestClient} (connected : 0 ≤ receiver.sock) :
    Understood order receiver lines turns sent last where
  asked := speaks.asked
  usedUp := by
    intro ⟨menu, ended⟩
    have rest := speaks.ahead
    rw [menu, ended] at rest
    have all := rest rfl 0
    rw [MenuPoint.ahead, packetsAsked_zero, List.append_nil] at all
    exact all.symm
  quit := by
    intro exited
    have rest := speaks.ahead
    rw [exited] at rest
    have all : ∀ more,
        packetsAsked (turns + more) [] (lines.drop 2) = sent :=
      fun more => (rest rfl more).trans (List.append_nil sent)
    rw [← packetsAsked_settled ((all 1).trans (all 0).symm)]
    exact (all 0).symm
  newline := by
    intro ends
    by_cases empty : lines.drop 2 = []
    · rw [empty, packetsAsked_nil rfl, packetsAsked_nil rfl]
    · apply packetsAsked_newline
      rw [getLast?_of_suffix (List.drop_suffix 2 lines) empty, ends]
  received := by
    have : Nonempty HeaderMemory := ⟨⟨0, 0, 0, 0⟩⟩
    rw [speaks.wire]
    apply Framing.reads_back_iff (receiver.receivePacket_nil order)
    intro packet _ later
    exact packet_read_back_iff connected packet later

/-- While each `send` takes its packet whole, the other end of the connection
reads from any conversation the packets that the user's lines ask for. -/
theorem lines_understood (receiver : TestClient)
    (connected : 0 ≤ receiver.sock)
    (run : (interactiveSystem order lines).Execution { cin := lines }
      history last)
    (whole : ∀ taken ∈ history, taken.1.SendsWhole taken.2) :
    Understood order receiver lines (turnsAgain history)
      (packetsSent history) last :=
  (speaks_run run whole).understood connected

/-- The user chats, and then the input ends with a 1 and no newline. -/
def chatsAndGreets : List InteractiveLabel :=
  [.read, .read, .connect ⟨3, true, true⟩, .createThread true, .read, .read,
    .send 6, .read, .send 4, .read, .send 4]

theorem last_wish_repeated :
    ∃ last, TransitionSystem.runLabels (step .littleEndian)
        { cin := [[], [], [51], [104, 105], [49]] } chatsAndGreets =
          some last ∧
      last.point = .menu ∧ last.cin = [] ∧
      Framing.readEach (TestClient.receivePacket .littleEndian ⟨4⟩ {})
          (List.replicate 4 ⟨0, 0, 0, 0⟩) last.outgoing =
        Framing.framesThenEnd (Packet.bytes .littleEndian) id
          [⟨3, [104, 105]⟩, ⟨1, []⟩, ⟨1, []⟩] := by
  have run : ∃ last, TransitionSystem.runLabels (step .littleEndian)
      { cin := [[], [], [51], [104, 105], [49]] } chatsAndGreets =
        some last ∧ last.point = .menu ∧ last.cin = [] := ⟨_, rfl, rfl, rfl⟩
  obtain ⟨last, run, menu, ended⟩ := run
  have understood := lines_understood ⟨4⟩ (by decide)
    (.runLabels run) (by decide +kernel)
  have all := (understood.usedUp ⟨menu, ended⟩).trans
    (show _ = [⟨3, [104, 105]⟩, ⟨1, []⟩, ⟨1, []⟩] by decide +kernel)
  have received := understood.received
  rw [all] at received
  exact ⟨last, run, menu, ended, received.mpr (by decide) _ rfl⟩

end InteractiveClient

end CoUring
