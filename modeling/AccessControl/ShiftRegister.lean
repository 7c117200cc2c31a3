import Mathlib.Data.List.Basic

/-! A shift register with feedback: it is linear, loses nothing when the polynomial is odd,
and two runs over words that agree keep the difference they start with. -/
namespace AccessControl.ShiftRegister

variable {w : Nat} (poly : BitVec w)

def step (c : BitVec w) : BitVec w := (c <<< 1) ^^^ (if c.msb then poly else 0#w)

def steps : Nat → BitVec w → BitVec w
  | 0, c => c
  | n + 1, c => steps n (step poly c)

/- One message bit into the register, and the bits of a word from its top. -/
def feedBit (c : BitVec w) (b : Bool) : BitVec w := (c <<< 1) ^^^ (if c.msb ^^ b then poly else 0#w)
def feedBits (c : BitVec w) (bits : List Bool) : BitVec w := bits.foldl (feedBit poly) c

def topBits : Nat → BitVec w → List Bool
  | 0, _ => []
  | n + 1, x => x.msb :: topBits n (x <<< 1)

/- One word into the register, and a block of them. -/
def feed (n : Nat) (c x : BitVec w) : BitVec w := steps poly n (c ^^^ x)
def feeds (n : Nat) (c : BitVec w) (xs : List (BitVec w)) : BitVec w := xs.foldl (feed poly n) c

theorem stepXor (a b : BitVec w) : step poly (a ^^^ b) = step poly a ^^^ step poly b := by
  have cross : ∀ x y p q : BitVec w, x ^^^ y ^^^ (p ^^^ q) = x ^^^ p ^^^ (y ^^^ q) := by
    intro x y p q
    ac_rfl
  unfold step
  rw [BitVec.shiftLeft_xor_distrib,BitVec.msb_xor,← cross]
  congr 1
  cases a.msb <;> cases b.msb <;> simp

theorem stepsXor (n : Nat) (a b : BitVec w) : steps poly n (a ^^^ b) = steps poly n a ^^^ steps poly n b := by
  induction n generalizing a b with
  | zero => rfl
  | succ n ih => rw [steps,steps,steps,stepXor,ih]

theorem stepsAdd (m n : Nat) (c : BitVec w) : steps poly n (steps poly m c) = steps poly (m + n) c := by
  induction m generalizing c with
  | zero => rw [steps,Nat.zero_add]
  | succ m ih =>
    have sum : m + 1 + n = m + n + 1 := by omega
    rw [steps,ih,sum,steps]

/- Shifting a word in is feeding its top bits, one at a time; the others move up behind them. -/
theorem stepsBits (n : Nat) (c x : BitVec w) : steps poly n (c ^^^ x) = feedBits poly c (topBits n x) ^^^ (x <<< n) := by
  induction n generalizing c x with
  | zero => simp [steps,feedBits,topBits]
  | succ n ih =>
    have first : step poly (c ^^^ x) = feedBit poly c x.msb ^^^ (x <<< 1) := by
      rw [step,feedBit,BitVec.shiftLeft_xor_distrib,BitVec.msb_xor]
      ac_rfl
    have behind : x <<< 1 <<< n = x <<< (n + 1) := by rw [← BitVec.shiftLeft_add,Nat.add_comm]
    rw [steps,first,ih,behind]
    rfl

/- Bits that do not reach the top only move up. -/
theorem stepsShift {k : Nat} {x : BitVec w} (clear : ∀ i, i < w → w ≤ i + k → x.getLsbD i = false) :
    steps poly k x = x <<< k := by
  induction k generalizing x with
  | zero => simp [steps]
  | succ k ih =>
    have top : x.msb = false := by
      rw [BitVec.msb_eq_getLsbD_last]
      by_cases empty : w = 0
      · exact BitVec.getLsbD_of_ge x (w - 1) (by omega)
      · exact clear (w - 1) (by omega) (by omega)
    have moved : step poly x = x <<< 1 := by simp [step,top]
    have rest : ∀ i, i < w → w ≤ i + k → (x <<< 1).getLsbD i = false := by
      intro i inside near
      rw [BitVec.getLsbD_shiftLeft]
      cases i with
      | zero => simp
      | succ i => simp [clear i (by omega) (by omega)]
    rw [steps,moved,ih rest,← BitVec.shiftLeft_add,Nat.add_comm]

section
variable {poly} (odd : poly.getLsbD 0 = true)
include odd

theorem stepKeeps {c : BitVec w} (zero : step poly c = 0#w) : c = 0#w := by
  have bits : ∀ i, (step poly c).getLsbD i = false := by
    intro i
    rw [zero,BitVec.getLsbD_zero]
  have wide : 0 < w := by
    by_contra none
    rw [BitVec.getLsbD_of_ge poly 0 (by omega)] at odd
    contradiction
  have top : c.msb = false := by
    have first := bits 0
    cases msb : c.msb with
    | false => rfl
    | true =>
      rw [step,if_pos msb,BitVec.getLsbD_xor,BitVec.getLsbD_shiftLeft,odd] at first
      simp at first
  apply BitVec.eq_of_getLsbD_eq
  intro i inside
  rw [BitVec.getLsbD_zero]
  by_cases last : i + 1 = w
  · rw [BitVec.msb_eq_getLsbD_last] at top
    have same : w - 1 = i := by omega
    rw [← same,top]
  · have next := bits (i + 1)
    have room : i + 1 < w := by omega
    simpa [step,top,room,inside,BitVec.getLsbD_eq_getElem] using next

theorem stepsKeeps {n : Nat} {c : BitVec w} (zero : steps poly n c = 0#w) : c = 0#w := by
  induction n generalizing c with
  | zero => exact zero
  | succ n ih => exact stepKeeps odd (ih zero)

theorem stepsInjective {n : Nat} {a b : BitVec w} (same : steps poly n a = steps poly n b) : a = b := by
  refine BitVec.xor_eq_zero_iff.mp (stepsKeeps odd (n := n) ?_)
  rw [stepsXor,same,BitVec.xor_self]

/- Equal words fed to different registers leave them different. -/
theorem feedsDiffer {n : Nat} {a b : BitVec w} (xs : List (BitVec w)) (differ : a ≠ b) : feeds poly n a xs ≠ feeds poly n b xs := by
  induction xs generalizing a b with
  | nil => exact differ
  | cons x xs ih =>
    refine ih fun same => differ ?_
    exact (BitVec.xor_left_inj x).mp (stepsInjective odd same)

end
end AccessControl.ShiftRegister
