import AccessControl.CrcShift
import AccessControl.OsdpPacket

/-! The block CRC as its definition has it: the polynomial 0x1021, the initial value 0x1D0F,
the most significant bit of each byte first and no final XOR, one bit at a time. -/
namespace AccessControl.CrcBits
open BitMask CrcTable ShiftRegister CrcShift Traced

def bitsOf (b : Byte) : List Bool :=
  [b.getLsbD 7,b.getLsbD 6,b.getLsbD 5,b.getLsbD 4,b.getLsbD 3,b.getLsbD 2,b.getLsbD 1,b.getLsbD 0]

def crcBit (crc : BitVec 16) (bit : Bool) : BitVec 16 :=
  if crc.msb ≠ bit then (crc <<< 1) ^^^ 0x1021 else crc <<< 1

def crcBitwise (data : Bytes) : BitVec 16 := (data.flatMap bitsOf).foldl crcBit 0x1D0F

/- The loop of `fCrcBlk`, over memory of any length: an index behind its end has no meaning. -/
def crcLoop (pData : Bytes) (nLength : Nat) (nCrc : BitVec 16) : Trace Nat (BitVec 16) :=
  forUp (fun ii nCrc => do
    let data ← use ii pData[ii]?
    return crcByte nCrc data) nLength 0 nCrc

def fCrcBlk (pData : Bytes) (nLength : BitVec 16) : Trace Nat (BitVec 16) := crcLoop pData nLength.toNat 0x1D0F

theorem bitFeed (crc : BitVec 16) (bit : Bool) : crcBit crc bit = feedBit polynomial crc bit := by
  rw [crcBit,feedBit,polynomial]
  cases crc.msb <;> cases bit <;> simp

theorem topBytes (b : Byte) : topBits 8 (top b) = bitsOf b := by
  simp [topBits,bitsOf,top,BitVec.msb_eq_getLsbD_last]

/- One step of the table is the eight bits of its byte. -/
theorem crcByteBits (nCrc : BitVec 16) (data : Byte) : crcByte nCrc data = (bitsOf data).foldl crcBit nCrc := by
  have behind : top data <<< 8 = 0#16 := by
    rw [top,← BitVec.shiftLeft_add]
    exact BitVec.shiftLeft_eq_zero (le_refl 16)
  have bits : crcBit = feedBit polynomial := by
    funext crc bit
    exact bitFeed crc bit
  rw [crcByteFeed,feed,stepsBits,behind,BitVec.xor_zero,topBytes,bits]
  rfl

theorem crcBits (data : Bytes) (nCrc : BitVec 16) : data.foldl crcByte nCrc = (data.flatMap bitsOf).foldl crcBit nCrc := by
  induction data generalizing nCrc with
  | nil => rfl
  | cons b rest ih => rw [List.foldl_cons,List.flatMap_cons,List.foldl_append,ih,crcByteBits]

theorem loopValue (pData : Bytes) (nCrc : BitVec 16) :
    (crcLoop pData pData.length nCrc).value = some (pData.foldl crcByte nCrc) := by
  have turn : ∀ ii nCrc, (do let data ← use ii pData[ii]?; return crcByte nCrc data : Trace Nat (BitVec 16)).value =
      if ii < pData.length then some (crcByte nCrc (pData.getD ii 0)) else none := by
    intro ii nCrc
    rw [valueBind,valueUse]
    by_cases inside : ii < pData.length
    · rw [if_pos inside,List.getElem?_eq_getElem inside,List.getD_eq_getElem _ _ inside]
      rfl
    · rw [if_neg inside,List.getElem?_eq_none (not_lt.mp inside)]
      rfl
  have loop := upInvariant (fun i crc => crc = (pData.take i).foldl crcByte nCrc)
    (f := fun ii nCrc => crcByte nCrc (pData.getD ii 0)) (k := pData.length) (i := 0) (s := nCrc) rfl ?_
  · rw [Nat.zero_add,List.take_length] at loop
    rw [crcLoop,valueUp turn _ 0 _ (Nat.zero_le _),if_pos (by omega),loop]
  · intro i crc _ small same
    have bound : i < pData.length := by omega
    rw [same,← List.take_append_getElem bound,List.foldl_append,List.getD_eq_getElem _ _ bound]
    rfl

theorem blockValue {data : Bytes} (fits : data.length ≤ 65535) :
    (fCrcBlk data (BitVec.ofNat 16 data.length)).value = some (crcOf data) := by
  have length : (BitVec.ofNat 16 data.length).toNat = data.length := by
    rw [BitVec.toNat_ofNat]
    omega
  rw [fCrcBlk,length,loopValue]
  rfl

/- The parser's CRC is this one, over the bytes of its buffer. -/
theorem packetCrc (pData : OsdpPacket.Buffer) (nLength : BitVec 16) :
    OsdpPacket.fCrcBlk pData nLength = lift .data (fCrcBlk pData.bytes nLength) := by
  have turn : ∀ ii nCrc, (lift .data (do let data ← use ii pData.bytes[ii]?; return crcByte nCrc data) :
      Trace OsdpPacket.Use (BitVec 16)) = (do let data ← OsdpPacket.load .data pData ii; return crcByte nCrc data) := by
    intro ii nCrc
    rw [liftBind]
    rfl
  rw [fCrcBlk,crcLoop,liftUp]
  simp only [turn]
  rfl

/- The table gives what the bits give, over every block and from every place in it. -/
theorem tableBitwise {data : Bytes} (fits : data.length ≤ 65535) :
    (fCrcBlk data (BitVec.ofNat 16 data.length)).value = some (crcBitwise data) ∧
    ∀ a b, a ++ b = data → (fCrcBlk data (BitVec.ofNat 16 data.length)).value = (do
      let nCrc ← fCrcBlk a (BitVec.ofNat 16 a.length)
      crcLoop b b.length nCrc).value := by
  rw [blockValue fits]
  refine ⟨congrArg some (crcBits data 0x1D0F),?_⟩
  rintro a b rfl
  have first : a.length ≤ 65535 := by
    rw [List.length_append] at fits
    omega
  rw [valueBind,blockValue first,Option.bind_some,loopValue]
  exact congrArg some List.foldl_append

theorem tableBitwisePoll : (fCrcBlk [0x53,0x7f] (BitVec.ofNat 16 [(0x53 : Byte),0x7f].length)).value = some (crcBitwise [0x53,0x7f]) ∧
    ∀ a b, a ++ b = [(0x53 : Byte),0x7f] → (fCrcBlk [0x53,0x7f] (BitVec.ofNat 16 [(0x53 : Byte),0x7f].length)).value = (do
      let nCrc ← fCrcBlk a (BitVec.ofNat 16 a.length)
      crcLoop b b.length nCrc).value :=
  tableBitwise (show ([0x53,0x7f] : Bytes).length ≤ 65535 by decide)

end AccessControl.CrcBits
