import CoUring.Foundation.CircularWindow
import CoUring.Io.IoUring

namespace CoUring

/-- The `io_uring_buf_ring` mapping: the buffer id stored in each slot and the
16-bit tail. -/
structure RingMemory where
  slots : Nat → Nat
  tail : UInt16

def ioUringBufRingMask (ringEntries : Nat) : Nat := ringEntries - 1

namespace RingMemory

def zeroed : RingMemory where
  slots := fun _ => 0
  tail := 0

def init (ring : RingMemory) : RingMemory := { ring with tail := 0 }

def slotAt (position mask : Nat) : Nat := position &&& mask

/-- `io_uring_buf_ring_add`: writes an entry and leaves the tail alone. -/
def add (ring : RingMemory) (bufferId mask offset : Nat) : RingMemory :=
  { ring with
    slots := Function.update ring.slots
      (slotAt (ring.tail.toNat + offset) mask) bufferId }

def advance (ring : RingMemory) (count : Nat) : RingMemory :=
  { ring with tail := ring.tail + UInt16.ofNat count }

@[simp] theorem add_tail (ring : RingMemory) (bufferId mask offset : Nat) :
    (ring.add bufferId mask offset).tail = ring.tail := rfl

@[simp] theorem advance_slots (ring : RingMemory) (count : Nat) :
    (ring.advance count).slots = ring.slots := rfl

@[simp] theorem advance_tail (ring : RingMemory) (count : Nat) :
    (ring.advance count).tail = ring.tail + UInt16.ofNat count := rfl

end RingMemory

def addBuf (bufRing : Option RingMemory) (buf : List UInt8)
    (bufferId : Nat) : Option RingMemory :=
  match bufRing with
  | none => none
  | some ring =>
      if buf = [] then some ring
      else
        let mask := ioUringBufRingMask IoUring.bufRingSize
        some ((ring.add bufferId mask bufferId).advance 1)

/-- The fill loop of `setupBufRing` over the first `count` buffers of a list
of `size`. -/
def fillRing (size : Nat) (ring : RingMemory) (count : Nat) : RingMemory :=
  (List.range count).foldl
    (fun ring index => ring.add index (ioUringBufRingMask size) index) ring

/-- `IoUring::setupBufRing`; `registered` is the result of
`io_uring_register_buf_ring`. -/
def setupBufRing (ring : RingMemory) (bufList : List (List UInt8))
    (registered : Int) : Int × RingMemory :=
  let ring := ring.init
  if registered < 0 then (registered, ring)
  else
    let ring := fillRing bufList.length ring bufList.length
    (0, ring.advance bufList.length)

abbrev Errno := { errno : Nat // errno ≠ 0 }

structure BufferRing where
  borrowedBufSet : Nat → Bool := fun _ => false
  bufList : List (List UInt8) := []
  bufRing : Option RingMemory := none
  mappings : Nat := 0

namespace BufferRing

def bufRingSize : Nat := 1024

def bufSize : Nat := 8192

/-- The buffers one call of `registerBufRing` appends to `buf_list_`. -/
def freshBufList : List (List UInt8) :=
  List.replicate bufRingSize (List.replicate bufSize 0)

@[simp] theorem freshBufList_length : freshBufList.length = bufRingSize :=
  List.length_replicate

def isInitialized (buffers : BufferRing) : Bool := buffers.bufRing.isSome

/-- `BufferRing::registerBufRing`; `mmapErrno` is the error of a failing
`mmap`. -/
def registerBufRing (buffers : BufferRing) (mmapErrno : Option Errno)
    (registered : Int) : Int × BufferRing :=
  match mmapErrno with
  | some errno => (-(errno.val : Int), buffers)
  | none =>
      let bufList := buffers.bufList ++ freshBufList
      let (result, ring) := setupBufRing .zeroed bufList registered
      (result, { buffers with
        bufList := bufList
        bufRing := some ring
        mappings := buffers.mappings + 1 })

def borrowBuf (buffers : BufferRing) (bufferId : Nat) :
    BufferRing × List UInt8 :=
  ({ buffers with
      borrowedBufSet :=
        Function.update buffers.borrowedBufSet bufferId true },
    buffers.bufList.getD bufferId [])

def returnBuf (buffers : BufferRing) (bufferId : Nat) : BufferRing :=
  { buffers with
    borrowedBufSet :=
      Function.update buffers.borrowedBufSet bufferId false
    bufRing :=
      addBuf buffers.bufRing (buffers.bufList.getD bufferId []) bufferId }

/-- The kernel writes received bytes to the front of a provided buffer. -/
def fill (buffers : BufferRing) (bufferId : Nat)
    (bytes : List UInt8) : BufferRing :=
  { buffers with
    bufList := buffers.bufList.set bufferId
      (bytes ++ (buffers.bufList.getD bufferId []).drop bytes.length) }

end BufferRing

/-- The kernel's side of the registered group: its 16-bit head, and which ids
it selected that were not given back since. -/
structure KernelBufGroup where
  head : UInt16 := 0
  selected : List Nat := []
  /-- An id was passed to `returnBuf` that was not selected. -/
  strayReturn : Bool := false

structure ProvidedBuffers where
  app : BufferRing := {}
  kernel : KernelBufGroup := {}

namespace ProvidedBuffers

def available (buffers : ProvidedBuffers) : Nat :=
  match buffers.app.bufRing with
  | none => 0
  | some ring => (ring.tail - buffers.kernel.head).toNat

/-- The ids in the slots from the head up to the tail. -/
def offered (buffers : ProvidedBuffers) : List Nat :=
  match buffers.app.bufRing with
  | none => []
  | some ring =>
      Foundation.window ring.slots IoUring.bufRingSize
        buffers.kernel.head.toNat buffers.available

def select (buffers : ProvidedBuffers) : Option (Nat × ProvidedBuffers) :=
  match buffers.app.bufRing with
  | none => none
  | some ring =>
      if buffers.kernel.head = ring.tail then none
      else
        let mask := ioUringBufRingMask IoUring.bufRingSize
        let bufferId :=
          ring.slots (RingMemory.slotAt buffers.kernel.head.toNat mask)
        some (bufferId, { buffers with
          kernel := { buffers.kernel with
            head := buffers.kernel.head + 1
            selected := buffers.kernel.selected ++ [bufferId] } })

def borrowBuf (buffers : ProvidedBuffers) (bufferId : Nat) :
    ProvidedBuffers × List UInt8 :=
  let (app, data) := buffers.app.borrowBuf bufferId
  ({ buffers with app := app }, data)

def returnBuf (buffers : ProvidedBuffers) (bufferId : Nat) :
    ProvidedBuffers where
  app := buffers.app.returnBuf bufferId
  kernel := { buffers.kernel with
    selected := buffers.kernel.selected.erase bufferId
    strayReturn := buffers.kernel.strayReturn ||
      decide (bufferId ∉ buffers.kernel.selected) }

def fill (buffers : ProvidedBuffers) (bufferId : Nat)
    (bytes : List UInt8) : ProvidedBuffers :=
  { buffers with app := buffers.app.fill bufferId bytes }

end ProvidedBuffers

/-! The mask of the registered ring is a remainder. -/

theorem slotAt_bufRingSize (position : Nat) :
    RingMemory.slotAt position (ioUringBufRingMask IoUring.bufRingSize) =
      position % IoUring.bufRingSize := by
  simpa [RingMemory.slotAt, ioUringBufRingMask, IoUring.bufRingSize] using
    Nat.and_two_pow_sub_one_eq_mod position 10

theorem bufRingSize_dvd_counter : IoUring.bufRingSize ∣ 2 ^ 16 := by
  decide

/-! What a call of `registerBufRing` leaves behind. -/

theorem fillRing_tail (size : Nat) (ring : RingMemory) (count : Nat) :
    (fillRing size ring count).tail = ring.tail := by
  induction count with
  | zero => rfl
  | succ count induction =>
      simpa [fillRing, List.range_succ] using induction

theorem fillRing_slots (ring : RingMemory) (start : ring.tail = 0)
    (count : Nat) (fits : count ≤ IoUring.bufRingSize) (slot : Nat) :
    (fillRing IoUring.bufRingSize ring count).slots slot =
      if slot < count then slot else ring.slots slot := by
  induction count with
  | zero => simp [fillRing]
  | succ count induction =>
      have earlier := induction (by omega)
      have tail := fillRing_tail IoUring.bufRingSize ring count
      have filled : fillRing IoUring.bufRingSize ring (count + 1) =
          (fillRing IoUring.bufRingSize ring count).add count
            (ioUringBufRingMask IoUring.bufRingSize) count := by
        simp [fillRing, List.range_succ]
      rw [filled, RingMemory.add, tail, start]
      simp only [UInt16.toNat_zero, Nat.zero_add]
      rw [slotAt_bufRingSize, Nat.mod_eq_of_lt (by omega)]
      by_cases same : slot = count
      · subst same
        simp
      · rw [Function.update_of_ne same, earlier]
        by_cases below : slot < count
        · rw [if_pos below, if_pos (by omega)]
        · rw [if_neg below, if_neg (by omega)]

theorem registerBufRing_eq_zero {buffers : BufferRing}
    {mmapErrno : Option Errno} {registered : Int} :
    (buffers.registerBufRing mmapErrno registered).1 = 0 ↔
      mmapErrno = none ∧ 0 ≤ registered := by
  cases mmapErrno with
  | some errno =>
      have failed := errno.property
      simp only [BufferRing.registerBufRing, reduceCtorEq, false_and,
        iff_false]
      omega
  | none =>
      simp only [BufferRing.registerBufRing, setupBufRing, true_and]
      split
      next failed =>
        dsimp only
        omega
      next success => exact iff_of_true rfl (not_lt.mp success)

/-- The first successful registration stores id `i` in slot `i` and offers all
of them. -/
theorem registerBufRing_first {registered : Int} (success : 0 ≤ registered) :
    ∃ ring : RingMemory,
      BufferRing.registerBufRing {} none registered =
        (0, { bufList := BufferRing.freshBufList
              bufRing := some ring
              mappings := 1 }) ∧
      ring.tail = UInt16.ofNat IoUring.bufRingSize ∧
      ∀ slot, slot < IoUring.bufRingSize → ring.slots slot = slot := by
  refine ⟨(fillRing BufferRing.bufRingSize RingMemory.zeroed.init
    BufferRing.bufRingSize).advance BufferRing.bufRingSize, ?_, ?_, ?_⟩
  · simp only [BufferRing.registerBufRing, setupBufRing, List.nil_append,
      if_neg (not_lt.mpr success), BufferRing.freshBufList_length,
      Nat.zero_add]
  · simp [fillRing_tail, RingMemory.init, BufferRing.bufRingSize,
      IoUring.bufRingSize]
  · intro slot bound
    have filled := fillRing_slots RingMemory.zeroed.init rfl
      IoUring.bufRingSize (Nat.le_refl _) slot
    rw [if_pos bound] at filled
    have sizes : BufferRing.bufRingSize = IoUring.bufRingSize := rfl
    rw [RingMemory.advance_slots, sizes]
    exact filled

end CoUring
