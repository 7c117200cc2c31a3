import Mathlib.Data.BitVec

/-! Machine words as bit masks: single-bit flags, and sets of bits moved up by an
offset. A shift by the width or more leaves no bit. -/
namespace AccessControl.BitMask

abbrev Byte := BitVec 8
abbrev Bytes := List Byte
abbrev Mask := BitVec 32

def ascii (text : List Char) : Bytes := text.map (fun c => BitVec.ofNat 8 c.toNat)

variable {w : Nat}

def flag (c x : BitVec w) : Bool := x &&& c != 0

theorem flagTwoPow (k : Nat) (x : BitVec w) : flag (BitVec.twoPow w k) x = x.getLsbD k := by
  unfold flag
  rw [BitVec.and_twoPow]
  cases h : x.getLsbD k with
  | false => simp
  | true =>
    have lt : k < w := BitVec.lt_of_getLsbD h
    have ne : BitVec.twoPow w k ≠ 0 := by
      intro zero
      have bit := congrArg (fun y => BitVec.getLsbD y k) zero
      simp [lt] at bit
    simpa using ne

theorem maskZero {x : BitVec w} : x = 0 ↔ ∀ k, x.getLsbD k = false := by
  constructor
  · rintro rfl k
    simp
  · intro h
    exact BitVec.eq_of_getLsbD_eq (fun k _ => by simp [h k])

theorem maskNonzero {x : BitVec w} : x ≠ 0 ↔ ∃ k, x.getLsbD k = true := by
  rw [ne_eq,maskZero]
  simp

theorem shiftedBit (x : BitVec w) (offset k : Nat) :
    (x <<< offset).getLsbD k = true ↔ offset ≤ k ∧ k < w ∧ x.getLsbD (k - offset) = true := by
  rw [BitVec.getLsbD_shiftLeft]
  by_cases low : k < offset
  · simp [low]
  · simp only [low,decide_false,Bool.not_false,Bool.and_true,Bool.and_eq_true,decide_eq_true_eq]
    constructor
    · exact fun ⟨a,b⟩ => ⟨by omega,a,b⟩
    · exact fun ⟨_,a,b⟩ => ⟨a,b⟩

theorem disjointBit {x y : BitVec w} (disjoint : x &&& y = 0) {k : Nat} (bit : x.getLsbD k = true) :
    y.getLsbD k = false := by
  have h := maskZero.mp disjoint k
  simpa [BitVec.getLsbD_and,bit] using h

end AccessControl.BitMask
