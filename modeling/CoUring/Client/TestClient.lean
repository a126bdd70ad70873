import CoUring.Foundation.Framing
import Mathlib.Data.List.Basic

namespace CoUring

/-! The packets of the test client: `sendPacket` and `receivePacket`. -/

/-- The order of the two bytes of a `std::uint16_t` in memory. -/
inductive ByteOrder
  | littleEndian
  | bigEndian
  deriving DecidableEq, Repr

namespace ByteOrder

def bytes (order : ByteOrder) (word : UInt16) : List UInt8 :=
  let low := UInt8.ofNat (word.toNat % 256)
  let high := UInt8.ofNat (word.toNat / 256)
  match order with
  | .littleEndian => [low, high]
  | .bigEndian => [high, low]

def word (order : ByteOrder) (first second : UInt8) : UInt16 :=
  match order with
  | .littleEndian => UInt16.ofNat (first.toNat + 256 * second.toNat)
  | .bigEndian => UInt16.ofNat (second.toNat + 256 * first.toNat)

theorem bytes_eq (order : ByteOrder) (value : UInt16) :
    ∃ first second, order.bytes value = [first, second] ∧
      order.word first second = value := by
  have halves : UInt16.ofNat
      ((UInt8.ofNat (value.toNat % 256)).toNat +
        256 * (UInt8.ofNat (value.toNat / 256)).toNat) = value := by
    apply UInt16.toNat_inj.mp
    have bound := value.toNat_lt
    simp
    omega
  cases order with
  | littleEndian => exact ⟨_, _, rfl, halves⟩
  | bigEndian => exact ⟨_, _, rfl, halves⟩

end ByteOrder

structure PacketHeader where
  size : UInt16
  id : UInt16
  deriving DecidableEq, Repr

def sizeofPacketHeader : Nat := 4

def PacketHeader.bytes (order : ByteOrder) (header : PacketHeader) :
    List UInt8 :=
  order.bytes header.size ++ order.bytes header.id

structure HeaderMemory where
  size₀ : UInt8
  size₁ : UInt8
  id₀ : UInt8
  id₁ : UInt8
  deriving DecidableEq, Repr

namespace HeaderMemory

def store (memory : HeaderMemory) : List UInt8 → HeaderMemory
  | [] => memory
  | [size₀] => { memory with size₀ := size₀ }
  | [size₀, size₁] => { memory with size₀ := size₀, size₁ := size₁ }
  | [size₀, size₁, id₀] =>
      { memory with size₀ := size₀, size₁ := size₁, id₀ := id₀ }
  | size₀ :: size₁ :: id₀ :: id₁ :: _ => ⟨size₀, size₁, id₀, id₁⟩

def header (order : ByteOrder) (memory : HeaderMemory) : PacketHeader where
  size := order.word memory.size₀ memory.size₁
  id := order.word memory.id₀ memory.id₁

end HeaderMemory

structure Packet where
  id : UInt16
  data : List UInt8
  deriving DecidableEq, Repr

structure TestClient where
  sock : Int := -1
  deriving DecidableEq, Repr

/-- `recv` with `MSG_WAITALL`: the value it returns, the bytes it stores and
what is left of the stream. Without an error it comes back short only when the
stream ends. -/
def recvWaitall (fails : Bool) (stream : List UInt8) (length : Nat) :
    Int × List UInt8 × List UInt8 :=
  if fails then (-1, [], stream)
  else ((stream.take length).length, stream.take length, stream.drop length)

/-- Which of the two `recv` calls of a `receivePacket` fail. -/
structure RecvErrors where
  header : Bool := false
  data : Bool := false
  deriving DecidableEq, Repr

namespace TestClient

/-- The value returned and the bytes put on the wire, where `sent` is what
`send` reports. -/
def sendPacket (order : ByteOrder) (client : TestClient) (packetId : UInt16)
    (data : List UInt8) (sent : Int) : Bool × List UInt8 :=
  if client.sock < 0 then (false, [])
  else
    let header : PacketHeader :=
      { size := UInt16.ofNat (sizeofPacketHeader + data.length)
        id := packetId }
    let packet := header.bytes order ++ data
    if sent < 0 then (false, []) else (true, packet.take sent.toNat)

/-- The packet of a call that returns `true` and what is left of the stream.
`memory` is what the header held before. -/
def receivePacket (order : ByteOrder) (client : TestClient)
    (errors : RecvErrors) (memory : HeaderMemory) (stream : List UInt8) :
    Option Packet × List UInt8 :=
  if client.sock < 0 then (none, stream)
  else
    let (received, bytes, rest) :=
      recvWaitall errors.header stream sizeofPacketHeader
    if received ≤ 0 then (none, rest)
    else
      let header := (memory.store bytes).header order
      if header.size.toNat > sizeofPacketHeader then
        let dataSize := header.size.toNat - sizeofPacketHeader
        let (received, data, rest) := recvWaitall errors.data rest dataSize
        if received ≠ dataSize then (none, rest)
        else (some ⟨header.id, data⟩, rest)
      else (some ⟨header.id, []⟩, rest)

end TestClient

end CoUring
