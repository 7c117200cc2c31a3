import AccessControl.CrcTable
import AccessControl.ShiftRegister
import Mathlib.Data.List.GetD

/-! The table holds eight shifts of each byte: the block CRC is a shift register over the
polynomial 0x1021, fed a byte at a time. -/
namespace AccessControl.CrcShift
open BitMask CrcTable ShiftRegister

def polynomial : BitVec 16 := 0x1021
def top (b : Byte) : BitVec 16 := b.setWidth 16 <<< 8

theorem polynomialOdd : polynomial.getLsbD 0 = true := by decide

theorem tableShifts : CRC16Table = (List.range 256).map (fun i => steps polynomial 8 (BitVec.ofNat 16 i <<< 8)) := by
  decide +kernel

theorem tableEntry (b : Byte) : CRC16Table.getD b.toNat 0 = steps polynomial 8 (top b) := by
  have inside : b.toNat < ((List.range 256).map (fun i => steps polynomial 8 (BitVec.ofNat 16 i <<< 8))).length := by
    rw [List.length_map,List.length_range]
    exact b.isLt
  have wide : BitVec.ofNat 16 b.toNat = b.setWidth 16 := by
    apply BitVec.eq_of_toNat_eq
    rw [BitVec.toNat_ofNat,BitVec.toNat_setWidth]
  rw [tableShifts,List.getD_eq_getElem _ _ inside,List.getElem_map,List.getElem_range,wide]
  rfl

/- A word is its high byte at the top and its low byte below. -/
theorem splitWord (x : BitVec 16) : x = top (high x) ^^^ (low x).setWidth 16 := by
  apply BitVec.eq_of_getLsbD_eq
  intro k small
  by_cases half : k < 8
  · simp [top,low,half,small]
  · have back : 8 + (k - 8) = k := by omega
    have upper : k - 8 < 8 := by omega
    simp [top,high,low,half,small,back,upper]

theorem lowShifts (b : Byte) : steps polynomial 8 (b.setWidth 16) = top b := by
  refine stepsShift polynomial fun i inside near => ?_
  have outside : b.getLsbD i = false := BitVec.getLsbD_of_ge b i (by omega)
  rw [BitVec.getLsbD_setWidth,outside,Bool.and_false]

theorem topLow (x : BitVec 16) : top (low x) = x <<< 8 := by
  apply BitVec.eq_of_getLsbD_eq
  intro k small
  by_cases half : k < 8
  · simp [top,half]
  · have upper : k - 8 < 8 := by omega
    have inside : k - 8 < 16 := by omega
    simp [top,low,half,small,upper,inside]

theorem lowTop (x : BitVec 16) (b : Byte) : low (x ^^^ top b) = low x := by
  apply BitVec.eq_of_getLsbD_eq
  intro k small
  simp [low,top,small]

theorem indexHigh (x : BitVec 16) (b : Byte) : (((x >>> 8) ^^^ b.setWidth 16) &&& 0xff).toNat = (high (x ^^^ top b)).toNat := by
  have same : ((x >>> 8) ^^^ b.setWidth 16) &&& 0xff = (high (x ^^^ top b)).setWidth 16 := by
    apply BitVec.eq_of_getLsbD_eq
    intro k small
    have masks : ∀ i : Fin 16, (255#16).getLsbD i.val = decide (i.val < 8) := by decide
    have mask : (255#16)[k] = decide (k < 8) := (BitVec.getLsbD_eq_getElem small).symm.trans (masks ⟨k,small⟩)
    by_cases half : k < 8
    · have inside : 8 + k < 16 := by omega
      have upper : ¬ 8 + k < 8 := by omega
      simp [high,top,mask,half,small,inside,upper]
    · simp [high,top,mask,half,small]
  rw [same,BitVec.toNat_setWidth]
  omega

theorem crcByteFeed (nCrc : BitVec 16) (data : Byte) : crcByte nCrc data = feed polynomial 8 nCrc (top data) := by
  rw [feed,splitWord (nCrc ^^^ top data),stepsXor,lowShifts,lowTop,topLow,← tableEntry,crcByte,indexHigh,BitVec.xor_comm]

theorem crcFeeds (data : Bytes) (nCrc : BitVec 16) : data.foldl crcByte nCrc = feeds polynomial 8 nCrc (data.map top) := by
  induction data generalizing nCrc with
  | nil => rfl
  | cons b rest ih =>
    rw [List.foldl_cons,ih,crcByteFeed]
    rfl

theorem pairShifts (nCrc : BitVec 16) (a b : Byte) :
    crcByte (crcByte nCrc a) b = steps polynomial 16 (nCrc ^^^ word a b) := by
  have split := splitWord (word a b)
  rw [wordHigh,wordLow] at split
  rw [crcByteFeed,crcByteFeed,feed,feed,← lowShifts b,← stepsXor,stepsAdd,split,BitVec.xor_assoc]

/- Two bytes that differ leave different registers, and what follows keeps them apart. -/
theorem pairDiffers (nCrc : BitVec 16) {a b c d : Byte} (differ : (a,b) ≠ (c,d)) :
    crcByte (crcByte nCrc a) b ≠ crcByte (crcByte nCrc c) d := by
  intro same
  rw [pairShifts,pairShifts] at same
  have words : word a b = word c d := (BitVec.xor_right_inj nCrc).mp (stepsInjective polynomialOdd same)
  obtain ⟨first,second⟩ := wordEq.mp words
  rw [wordHigh] at first
  rw [wordLow] at second
  exact differ (by rw [first,second])

theorem burstDiffers (front rest : Bytes) {a b c d : Byte} (differ : (a,b) ≠ (c,d)) :
    crcOf (front ++ a :: b :: rest) ≠ crcOf (front ++ c :: d :: rest) := by
  have pair := pairDiffers (front.foldl crcByte 0x1D0F) differ
  simp only [crcOf,List.foldl_append,List.foldl_cons]
  rw [crcFeeds rest,crcFeeds rest]
  exact feedsDiffer polynomialOdd _ pair

end AccessControl.CrcShift
