import AccessControl.BitMask
import Mathlib.Data.List.TakeWhile

/-! C strings in arrays of a fixed size: what a print leaves there and returns, and the text
up to the first NUL. A length that no `int` holds is reported as an error. -/
namespace AccessControl.CString
open BitMask

def overwrite (arr : Bytes) (offset : Nat) (piece : Bytes) : Bytes := arr.take offset ++ piece ++ arr.drop (offset + piece.length)

/- `none` where the array ends before the text does. -/
def cString (arr : Bytes) : Option Bytes := if arr.contains 0 then some (arr.takeWhile (· != 0)) else none

/- The bytes `snprintf` stores, cut to its size, and its value. -/
def stored (size : Nat) (text : Bytes) : Bytes := if size = 0 then [] else text.take (size - 1) ++ [0]
def printed (text : Bytes) : Int := if text.length < 2^31 then text.length else -1

section
variable {front back piece text : Bytes} {size : Nat}

theorem overwriteLength {arr : Bytes} {offset : Nat} (fits : offset + piece.length ≤ arr.length) :
    (overwrite arr offset piece).length = arr.length := by
  rw [overwrite,List.length_append,List.length_append,List.length_take,List.length_drop]
  omega

theorem overwriteFront (front back piece : Bytes) :
    overwrite (front ++ back) front.length piece = front ++ piece ++ back.drop piece.length := by
  rw [overwrite,List.take_left,← List.drop_drop,List.drop_left]

theorem storedWhole (room : text.length < size) : stored size text = text ++ [0] := by
  rw [stored,if_neg (by omega),List.take_of_length_le (by omega)]

theorem storedCut (positive : 0 < size) (long : size ≤ text.length) : (stored size text).length = size := by
  rw [stored,if_neg (by omega),List.length_append,List.length_take,List.length_singleton]
  omega

theorem storedWithin (positive : 0 < size) : (stored size text).length ≤ size := by
  by_cases room : text.length < size
  · rw [storedWhole room,List.length_append,List.length_singleton]
    omega
  · exact le_of_eq (storedCut positive (not_lt.mp room))

theorem cStringPlain (plain : 0 ∉ text) (rest : Bytes) : cString (text ++ 0 :: rest) = some text := by
  have whole : ∀ b ∈ text, (b != 0) = true := by
    intro b inside
    have other : b ≠ 0 := fun zero => plain (zero ▸ inside)
    simpa using other
  rw [cString,if_pos (by simp),List.takeWhile_append_of_pos whole]
  simp

theorem cStringSome {arr : Bytes} (found : cString arr = some text) : 0 ∉ text := by
  unfold cString at found
  split at found
  · cases Option.some.inj found
    intro inside
    have other := List.mem_takeWhile_imp inside
    simp at other
  · cases found

theorem cStringLength {arr : Bytes} (found : cString arr = some text) : text.length ≤ arr.length := by
  unfold cString at found
  split at found
  · cases Option.some.inj found
    exact List.Sublist.length_le (List.takeWhile_sublist _)
  · cases found

end
end AccessControl.CString
