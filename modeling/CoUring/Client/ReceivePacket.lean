import CoUring.Client.TestClient

namespace CoUring

variable {order : ByteOrder} {client : TestClient} {memory : HeaderMemory}
  {stream bytes : List UInt8}

/-! What `receivePacket` makes of a stream. -/

def headerAfter (order : ByteOrder) (memory : HeaderMemory)
    (stream : List UInt8) : PacketHeader :=
  (memory.store stream).header order

theorem store_take (memory : HeaderMemory) (stream : List UInt8) :
    memory.store (stream.take sizeofPacketHeader) = memory.store stream := by
  match stream with
  | [] => rfl
  | [_] => rfl
  | [_, _] => rfl
  | [_, _, _] => rfl
  | _ :: _ :: _ :: _ :: _ => rfl

theorem four_bytes (long : ¬ stream.length < sizeofPacketHeader) :
    ∃ size₀ size₁ id₀ id₁ rest,
      stream = size₀ :: size₁ :: id₀ :: id₁ :: rest := by
  match stream with
  | [] | [_] | [_, _] | [_, _, _] => simp [sizeofPacketHeader] at long
  | size₀ :: size₁ :: id₀ :: id₁ :: rest => exact ⟨_, _, _, _, _, rfl⟩

namespace TestClient

theorem receivePacket_nil (order : ByteOrder) (client : TestClient)
    (memory : HeaderMemory) :
    client.receivePacket order {} memory [] = (none, []) := by
  unfold receivePacket
  split
  · rfl
  · rfl

/-- A call on a stream that is not at its end, by the size in the header. -/
theorem receivePacket_eq (connected : 0 ≤ client.sock)
    (present : stream ≠ []) :
    client.receivePacket order {} memory stream =
      let header := headerAfter order memory stream
      let rest := stream.drop sizeofPacketHeader
      let dataSize := header.size.toNat - sizeofPacketHeader
      if header.size.toNat ≤ sizeofPacketHeader then
        (some ⟨header.id, []⟩, rest)
      else if dataSize ≤ rest.length then
        (some ⟨header.id, rest.take dataSize⟩, rest.drop dataSize)
      else (none, []) := by
  have received : ¬ ((stream.take sizeofPacketHeader).length : Int) ≤ 0 := by
    have positive := List.length_pos_iff.mpr present
    rw [List.length_take, sizeofPacketHeader]
    omega
  unfold headerAfter receivePacket
  rw [if_neg (by omega)]
  simp only [recvWaitall, if_neg Bool.false_ne_true, if_neg received,
    store_take]
  generalize (memory.store stream).header order = header
  generalize stream.drop sizeofPacketHeader = rest
  by_cases small : header.size.toNat ≤ sizeofPacketHeader
  · rw [if_neg (by omega), if_pos small]
  · rw [if_pos (by omega), if_neg small]
    split
    next short =>
      rw [List.length_take] at short
      rw [if_neg (by omega), List.drop_eq_nil_of_le (by omega)]
    next complete =>
      rw [List.length_take] at complete
      rw [if_pos (by omega)]

theorem receivePacket_long (connected : 0 ≤ client.sock)
    (size₀ size₁ id₀ id₁ : UInt8) (rest : List UInt8) :
    client.receivePacket order {} memory
        (size₀ :: size₁ :: id₀ :: id₁ :: rest) =
      let size := (order.word size₀ size₁).toNat
      let id := order.word id₀ id₁
      if size ≤ 4 then (some ⟨id, []⟩, rest)
      else if size - 4 ≤ rest.length then
        (some ⟨id, rest.take (size - 4)⟩, rest.drop (size - 4))
      else (none, []) :=
  receivePacket_eq connected (List.cons_ne_nil _ _)

theorem receivePacket_short (connected : 0 ≤ client.sock)
    (present : stream ≠ []) (short : stream.length < sizeofPacketHeader) :
    client.receivePacket order {} memory stream =
      let header := headerAfter order memory stream
      if header.size.toNat ≤ sizeofPacketHeader then
        (some ⟨header.id, []⟩, [])
      else (none, []) := by
  rw [receivePacket_eq connected present,
    List.drop_eq_nil_of_le (Nat.le_of_lt short)]
  dsimp only
  split
  next => rfl
  next larger => rw [if_neg (by rw [List.length_nil]; omega)]

theorem receivePacket_lengths (connected : 0 ≤ client.sock)
    {size₀ size₁ id₀ id₁ : UInt8} {rest later : List UInt8} {packet : Packet}
    (received : client.receivePacket order {} memory
      (size₀ :: size₁ :: id₀ :: id₁ :: rest) = (some packet, later)) :
    packet.data.length = (order.word size₀ size₁).toNat - 4 ∧
      packet.data.length + later.length = rest.length := by
  rw [receivePacket_long connected] at received
  dsimp only at received
  split at received
  next small =>
    obtain ⟨same, rfl⟩ := Prod.mk.inj received
    obtain rfl := Option.some.inj same
    rw [List.length_nil]
    omega
  next =>
    split at received
    next complete =>
      obtain ⟨same, rfl⟩ := Prod.mk.inj received
      obtain rfl := Option.some.inj same
      rw [List.length_take, List.length_drop]
      omega
    next => cases received

theorem receivePacket_consumes {packet : Packet} {rest : List UInt8}
    (connected : 0 ≤ client.sock)
    (received : client.receivePacket order {} memory stream =
      (some packet, rest)) :
    stream ≠ [] ∧ rest.length ≤ stream.length - sizeofPacketHeader := by
  have present : stream ≠ [] := by
    rintro rfl
    rw [receivePacket_nil] at received
    cases received
  refine ⟨present, ?_⟩
  rw [receivePacket_eq connected present] at received
  dsimp only at received
  split at received
  next =>
    obtain ⟨-, rfl⟩ := Prod.mk.inj received
    exact Nat.le_of_eq List.length_drop
  next =>
    split at received
    next =>
      obtain ⟨-, rfl⟩ := Prod.mk.inj received
      rw [List.length_drop, List.length_drop]
      omega
    next => cases received

end TestClient

/-- The complete packet at the front of a stream, if there is one, and what
follows it. -/
def completePacket (order : ByteOrder) :
    List UInt8 → Option (Packet × List UInt8)
  | size₀ :: size₁ :: id₀ :: id₁ :: rest =>
      let size := (order.word size₀ size₁).toNat
      if 4 ≤ size ∧ size - 4 ≤ rest.length then
        some (⟨order.word id₀ id₁, rest.take (size - 4)⟩, rest.drop (size - 4))
      else none
  | _ => none

/-- A call answers as the stream demands: the packet at its front, or
`false`. -/
def AnswersRight (order : ByteOrder) (client : TestClient)
    (memory : HeaderMemory) (stream : List UInt8) : Prop :=
  match completePacket order stream with
  | some (packet, rest) =>
      client.receivePacket order {} memory stream = (some packet, rest)
  | none => (client.receivePacket order {} memory stream).1 = none

/-- The size field is at least that of a header, and larger where the stream
ends within the header. -/
def SizeChecked (order : ByteOrder) (memory : HeaderMemory)
    (stream : List UInt8) : Prop :=
  if stream.length < sizeofPacketHeader then
    stream = [] ∨
      sizeofPacketHeader < (headerAfter order memory stream).size.toNat
  else sizeofPacketHeader ≤ (headerAfter order memory stream).size.toNat

theorem answersRight_short (connected : 0 ≤ client.sock)
    (present : stream ≠ []) (short : stream.length < sizeofPacketHeader) :
    AnswersRight order client memory stream ↔
      sizeofPacketHeader < (headerAfter order memory stream).size.toNat := by
  have incomplete : completePacket order stream = none := by
    unfold completePacket
    split
    next => simp [sizeofPacketHeader] at short; omega
    next => rfl
  rw [AnswersRight, incomplete]
  dsimp only
  rw [TestClient.receivePacket_short connected present short]
  dsimp only
  split
  next small => exact iff_of_false nofun (by omega)
  next larger => exact iff_of_true rfl (by omega)

theorem answersRight_long (connected : 0 ≤ client.sock)
    (size₀ size₁ id₀ id₁ : UInt8) (rest : List UInt8) :
    AnswersRight order client memory (size₀ :: size₁ :: id₀ :: id₁ :: rest) ↔
      sizeofPacketHeader ≤ (order.word size₀ size₁).toNat := by
  rw [AnswersRight, completePacket,
    TestClient.receivePacket_long connected, sizeofPacketHeader]
  generalize (order.word size₀ size₁).toNat = size
  dsimp only
  by_cases checked : 4 ≤ size
  · rw [iff_true_right checked]
    by_cases complete : size - 4 ≤ rest.length
    · rw [if_pos ⟨checked, complete⟩]
      dsimp only
      split
      next small =>
        obtain rfl : size = 4 := by omega
        rfl
      next => rfl
    · rw [if_neg (by omega), if_neg (by omega), if_neg complete]
  · rw [if_neg (by omega), if_pos (by omega)]
    exact iff_of_false nofun checked

/-- Only a size too small for a packet, and a header cut off that holds one,
pass for a packet. -/
theorem receivePacket_answers_iff (order : ByteOrder) (client : TestClient)
    (connected : 0 ≤ client.sock) (memory : HeaderMemory)
    (stream : List UInt8) :
    AnswersRight order client memory stream ↔
      SizeChecked order memory stream := by
  rw [SizeChecked]
  split
  next short =>
    cases stream with
    | nil =>
        have ended := TestClient.receivePacket_nil order client memory
        exact iff_of_true (congrArg Prod.fst ended) (.inl rfl)
    | cons first stream =>
        rw [answersRight_short connected (List.cons_ne_nil _ _) short]
        simp
  next long =>
    obtain ⟨size₀, size₁, id₀, id₁, rest, rfl⟩ := four_bytes long
    exact answersRight_long connected size₀ size₁ id₀ id₁ rest

theorem truncated_payload_refused :
    AnswersRight .littleEndian { sock := 3 } ⟨0, 0, 0, 0⟩ [6, 0, 7, 0, 65] :=
  (receivePacket_answers_iff .littleEndian { sock := 3 } (by decide)
    ⟨0, 0, 0, 0⟩ [6, 0, 7, 0, 65]).mpr (by unfold SizeChecked; decide)

/-- A single byte before the end of the stream passes for a packet, and so
does a header whose size is zero. -/
theorem short_header_accepted :
    ¬ AnswersRight .littleEndian { sock := 3 } ⟨0, 0, 0, 0⟩ [4] ∧
      ¬ AnswersRight .littleEndian { sock := 3 } ⟨0, 0, 0, 0⟩
        [0, 0, 7, 0] := by
  constructor
  · intro right
    cases right
  · intro right
    cases right

end CoUring
