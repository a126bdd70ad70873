import CoUring.Client.ReceivePacket

namespace CoUring

open Foundation

/-! Packets sent one after the other and received at the other end. -/

/-- A call of `sendPacket` with what `send` reports: an error or a number of
bytes, at most those of the packet. -/
structure SendCall where
  packetId : UInt16
  data : List UInt8
  sent : Int
  bounded : sent ≤ sizeofPacketHeader + data.length

namespace SendCall

def run (order : ByteOrder) (client : TestClient) (call : SendCall) :
    Bool × List UInt8 :=
  client.sendPacket order call.packetId call.data call.sent

def packet (call : SendCall) : Packet := ⟨call.packetId, call.data⟩

def Whole (call : SendCall) : Prop :=
  sizeofPacketHeader + call.data.length < 65536 ∧
    call.sent = sizeofPacketHeader + call.data.length

instance (call : SendCall) : Decidable call.Whole :=
  inferInstanceAs (Decidable (_ ∧ _))

end SendCall

variable {order : ByteOrder} {sender receiver : TestClient}
  {memory : HeaderMemory} {call : SendCall} {later bytes : List UInt8}

theorem SendCall.run_wire (succeeded : (call.run order sender).1 = true) :
    0 ≤ call.sent ∧ ∃ size₀ size₁ id₀ id₁,
      (order.word size₀ size₁).toNat =
        (sizeofPacketHeader + call.data.length) % 65536 ∧
      order.word id₀ id₁ = call.packetId ∧
      (call.run order sender).2 =
        (size₀ :: size₁ :: id₀ :: id₁ :: call.data).take
          call.sent.toNat := by
  obtain ⟨size₀, size₁, sizeBytes, size⟩ := order.bytes_eq
    (UInt16.ofNat (sizeofPacketHeader + call.data.length))
  obtain ⟨id₀, id₁, idBytes, id⟩ := order.bytes_eq call.packetId
  unfold run TestClient.sendPacket at succeeded ⊢
  split at succeeded
  next => cases succeeded
  next connected =>
    dsimp only at succeeded ⊢
    split at succeeded
    next => cases succeeded
    next reported =>
      refine ⟨Int.not_lt.mp reported, size₀, size₁, id₀, id₁, ?_, id, ?_⟩
      · rw [size]
        exact UInt16.toNat_ofNat'
      · rw [if_neg connected, if_neg reported]
        simp only [PacketHeader.bytes, sizeBytes, idBytes]
        rfl

theorem word_second_ne (order : ByteOrder) (first : UInt8) :
    order.word first 0 ≠ order.word first 1 := by
  intro same
  have numbers := congrArg UInt16.toNat same
  have bound := first.toNat_lt
  cases order with
  | littleEndian =>
      simp [ByteOrder.word] at numbers
      omega
  | bigEndian =>
      simp [ByteOrder.word] at numbers
      omega

/-- The id of a header whose last byte was not received depends on what the
memory held before. -/
theorem headerAfter_id_ne (short : bytes.length < sizeofPacketHeader) :
    (headerAfter order ⟨0, 0, 0, 0⟩ bytes).id ≠
      (headerAfter order ⟨0, 0, 0, 1⟩ bytes).id := by
  match bytes with
  | [] | [_] | [_, _] | [_, _, _] => exact word_second_ne order _
  | _ :: _ :: _ :: _ :: _ => simp [sizeofPacketHeader] at short; omega

/-! One packet. -/

theorem whole_packet_received (connected : 0 ≤ receiver.sock)
    (succeeded : (call.run order sender).1 = true) (whole : call.Whole)
    (later : List UInt8) :
    receiver.receivePacket order {} memory
        ((call.run order sender).2 ++ later) = (some call.packet, later) := by
  obtain ⟨-, size₀, size₁, id₀, id₁, size, id, wire⟩ :=
    SendCall.run_wire succeeded
  obtain ⟨fits, sent⟩ := whole
  rw [sizeofPacketHeader] at size fits sent
  have all : (size₀ :: size₁ :: id₀ :: id₁ :: call.data).take
      call.sent.toNat = size₀ :: size₁ :: id₀ :: id₁ :: call.data := by
    apply List.take_of_length_le
    simp only [List.length_cons]
    omega
  rw [Nat.mod_eq_of_lt fits] at size
  rw [wire, all, List.cons_append, List.cons_append, List.cons_append,
    List.cons_append, TestClient.receivePacket_long connected, size, id]
  dsimp only
  rw [Nat.add_sub_cancel_left, List.take_left, List.drop_left]
  split
  next small =>
    have empty : call.data = [] := List.length_eq_zero_iff.mp (by omega)
    rw [SendCall.packet, empty, List.nil_append]
  next => rw [if_pos (by simp), SendCall.packet]

/-- Of a call that left less than a header on the wire, the packet cannot be
told. -/
theorem short_header_lost (connected : 0 ≤ receiver.sock)
    (short : bytes.length < sizeofPacketHeader) {packet : Packet}
    (received : ∀ memory, receiver.receivePacket order {} memory
      (bytes ++ later) = (some packet, later)) : False := by
  obtain ⟨present, left⟩ :=
    TestClient.receivePacket_consumes connected (received ⟨0, 0, 0, 0⟩)
  rw [List.length_append] at left
  have ended : later = [] := List.length_eq_zero_iff.mp (by omega)
  subst ended
  rw [List.append_nil] at received present
  have sameId : ∀ memory, (headerAfter order memory bytes).id = packet.id := by
    intro memory
    have answer := received memory
    rw [TestClient.receivePacket_short connected present short] at answer
    dsimp only at answer
    split at answer
    next => exact congrArg Packet.id (Option.some.inj (Prod.mk.inj answer).1)
    next => cases answer
  exact headerAfter_id_ne short
    ((sameId ⟨0, 0, 0, 0⟩).trans (sameId ⟨0, 0, 0, 1⟩).symm)

theorem received_packet_whole (connected : 0 ≤ receiver.sock)
    (succeeded : (call.run order sender).1 = true)
    (received : ∀ memory, receiver.receivePacket order {} memory
      ((call.run order sender).2 ++ later) = (some call.packet, later)) :
    call.Whole := by
  obtain ⟨positive, size₀, size₁, id₀, id₁, size, id, wire⟩ :=
    SendCall.run_wire succeeded
  have bounded := call.bounded
  rw [sizeofPacketHeader] at size bounded
  have length : (call.run order sender).2.length = call.sent.toNat := by
    rw [wire, List.length_take]
    simp only [List.length_cons]
    omega
  by_cases short : (call.run order sender).2.length < sizeofPacketHeader
  · exact (short_header_lost connected short received).elim
  · rw [length, sizeofPacketHeader, Nat.not_lt] at short
    obtain ⟨count, reported⟩ := Nat.exists_eq_add_of_le' short
    have answer := received ⟨0, 0, 0, 0⟩
    rw [wire, reported] at answer
    simp only [List.take_succ_cons, List.cons_append] at answer
    obtain ⟨data, consumed⟩ :=
      TestClient.receivePacket_lengths connected answer
    simp only [SendCall.packet, size] at data
    simp only [SendCall.packet, List.length_append,
      List.length_take] at consumed
    rw [SendCall.Whole, sizeofPacketHeader]
    omega

/-! The whole stream. -/

/-- The calls that returned `true` are read back one by one exactly when each
packet fits its size field and was sent as a whole. -/
theorem packets_read_back_iff (order : ByteOrder)
    (sender receiver : TestClient) (connected : 0 ≤ receiver.sock)
    (calls : List SendCall)
    (succeeded : ∀ call ∈ calls, (call.run order sender).1 = true) :
    (∀ memories : List HeaderMemory, memories.length = calls.length + 1 →
      Framing.readEach (receiver.receivePacket order {}) memories
          (calls.flatMap fun call => (call.run order sender).2) =
        Framing.framesThenEnd (fun call => (call.run order sender).2)
          SendCall.packet calls) ↔
      ∀ call ∈ calls, call.Whole := by
  have : Nonempty HeaderMemory := ⟨⟨0, 0, 0, 0⟩⟩
  apply Framing.reads_back_iff (receiver.receivePacket_nil order)
  intro call member later
  constructor
  · exact received_packet_whole connected (succeeded call member)
  · intro whole memory
    exact whole_packet_received connected (succeeded call member) whole later

theorem two_packets_read_back :
    ∃ calls : List SendCall,
      calls.map SendCall.packet = [⟨7, [1, 2]⟩, ⟨8, []⟩] ∧
      ∀ memories : List HeaderMemory, memories.length = calls.length + 1 →
        Framing.readEach
            (TestClient.receivePacket .littleEndian { sock := 4 } {}) memories
            (calls.flatMap fun call =>
              (call.run .littleEndian { sock := 3 }).2) =
          Framing.framesThenEnd
            (fun call => (call.run .littleEndian { sock := 3 }).2)
            SendCall.packet calls := by
  refine ⟨[⟨7, [1, 2], 6, by decide⟩, ⟨8, [], 4, by decide⟩], rfl, ?_⟩
  apply (packets_read_back_iff .littleEndian { sock := 3 } { sock := 4 }
    (by decide) _ (by decide)).mpr
  decide

/-- `send` takes five of six bytes and `sendPacket` returns `true`. -/
theorem short_send_lost :
    ∃ call : SendCall, ∃ memories : List HeaderMemory,
      (call.run .littleEndian { sock := 3 }).1 = true ∧
      memories.length = [call].length + 1 ∧
      Framing.readEach
          (TestClient.receivePacket .littleEndian { sock := 4 } {}) memories
          (call.run .littleEndian { sock := 3 }).2 ≠
        Framing.framesThenEnd
          (fun call => (call.run .littleEndian { sock := 3 }).2)
          SendCall.packet [call] := by
  refine ⟨⟨7, [1, 2], 5, by decide⟩, [⟨0, 0, 0, 0⟩, ⟨0, 0, 0, 0⟩], ?_, ?_, ?_⟩
  · decide
  · decide
  · decide

end CoUring
