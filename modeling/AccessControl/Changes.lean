import Mathlib.Data.List.Destutter

/-! Sequences of readings: the changes among them, the times a line rises, and a countdown that
arms itself while it is held and starts again whenever it runs out. -/
namespace AccessControl.Changes

/- The last change is the last reading. -/
theorem destutterLast' {α : Type*} [DecidableEq α] (a : α) (l : List α) : (l.destutter' (· ≠ ·) a).getLast? = (a :: l).getLast? := by
  induction l generalizing a with
  | nil => rfl
  | cons b l ih =>
    rw [List.getLast?_cons_cons]
    by_cases same : a = b
    · rw [List.destutter'_cons_neg _ (not_not.mpr same),ih,same]
    · rw [List.destutter'_cons_pos _ same,List.getLast?_cons,ih,List.getLast?_cons]
      rfl

theorem destutterLast {α : Type*} [DecidableEq α] (l : List α) : (l.destutter (· ≠ ·)).getLast? = l.getLast? := by
  cases l with
  | nil => rfl
  | cons a l => exact destutterLast' a l

/- How often the line is on and was not before. -/
def rising : Bool → List Bool → Nat
  | _, [] => 0
  | before, now :: later => (if now = true ∧ before = false then 1 else 0) + rising now later

/- One beat of the countdown: its new value, and how often it ran out. -/
def rearm (period : Nat) (timer : Int) (held : Bool) : Int × Nat :=
  if held then
    if timer = 0 then (period,0)
    else if timer - 1 = 0 then (period,1)
    else (timer - 1,0)
  else (0,0)

def beats (period : Nat) : Int → List Bool → Nat
  | _, [] => 0
  | timer, held :: later => (rearm period timer held).2 + beats period (rearm period timer held).1 later

def left (period : Nat) : Int → List Bool → Int
  | timer, [] => timer
  | timer, held :: later => left period (rearm period timer held).1 later

section
variable {period : Nat} {timer : Int}

theorem beatsAppend (xs ys : List Bool) : beats period timer (xs ++ ys) = beats period timer xs + beats period (left period timer xs) ys := by
  induction xs generalizing timer with
  | nil => exact (Nat.zero_add _).symm
  | cons held xs ih => rw [List.cons_append,beats,ih,left,beats,Nat.add_assoc]

theorem leftAppend (xs ys : List Bool) : left period timer (xs ++ ys) = left period (left period timer xs) ys := by
  induction xs generalizing timer with
  | nil => rfl
  | cons held xs ih => exact ih

/- Held for `n + 1` beats from zero, it has run out once in every period behind the first beat. -/
theorem heldBeats (positive : 0 < period) (n : Nat) : left period 0 (List.replicate (n + 1) true) = (period - n % period : Nat) ∧
    beats period 0 (List.replicate (n + 1) true) = n / period := by
  induction n with
  | zero =>
    have none' : 0 / period = 0 := Nat.zero_div _
    exact ⟨by rw [Nat.zero_mod]; rfl,none'.symm⟩
  | succ n ih =>
    obtain ⟨timer,count⟩ := ih
    have below : n % period < period := Nat.mod_lt n positive
    have armed : ((period - n % period : Nat) : Int) ≠ 0 := by omega
    have quotient := Nat.div_add_mod n period
    rw [List.replicate_succ',leftAppend,beatsAppend,timer,count]
    by_cases last : n % period + 1 = period
    · have out : ((period - n % period : Nat) : Int) - 1 = 0 := by omega
      have whole : n + 1 = period * (n / period + 1) := by rw [Nat.mul_succ]; omega
      have beat : rearm period ((period - n % period : Nat) : Int) true = ((period : Int),1) := by
        rw [rearm,if_pos rfl,if_neg armed,if_pos out]
      rw [left,left,beats,beats,beat,whole,Nat.mul_mod_right,Nat.mul_div_cancel_left _ positive]
      exact ⟨rfl,rfl⟩
    · have more : ((period - n % period : Nat) : Int) - 1 ≠ 0 := by omega
      have beat : rearm period ((period - n % period : Nat) : Int) true = (((period - n % period : Nat) : Int) - 1,0) := by
        rw [rearm,if_pos rfl,if_neg armed,if_neg more]
      have next : (n + 1) % period = n % period + 1 := by
        rw [Nat.add_mod,Nat.mod_eq_of_lt (show n % period + 1 % period < period by have one := Nat.mod_le 1 period; omega)]
        rw [Nat.mod_eq_of_lt (show 1 < period by omega)]
      have same : (n + 1) / period = n / period := by
        rw [Nat.succ_div_of_not_dvd]
        exact fun divides => last (by have zero := Nat.mod_eq_zero_of_dvd divides; omega)
      rw [left,left,beats,beats,beat,next,same]
      exact ⟨by push_cast; omega,rfl⟩

/- The value never leaves its range. -/
theorem rearmRange (low : 0 ≤ timer) (high : timer ≤ period) (held : Bool) :
    0 ≤ (rearm period timer held).1 ∧ (rearm period timer held).1 ≤ period := by
  unfold rearm
  split
  · split
    · exact ⟨Int.natCast_nonneg _,Int.le_refl _⟩
    · split
      · exact ⟨Int.natCast_nonneg _,Int.le_refl _⟩
      · exact ⟨by omega,by omega⟩
  · exact ⟨Int.le_refl _,Int.natCast_nonneg _⟩

theorem leftRange (low : 0 ≤ timer) (high : timer ≤ period) (beats : List Bool) : 0 ≤ left period timer beats ∧ left period timer beats ≤ period := by
  induction beats generalizing timer with
  | nil => exact ⟨low,high⟩
  | cons held beats ih =>
    have next := rearmRange low high held
    exact ih next.1 next.2

end
end AccessControl.Changes
