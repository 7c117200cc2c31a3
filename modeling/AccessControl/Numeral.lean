import AccessControl.BitMask
import Mathlib.Data.List.TakeWhile

/-! Numbers as C prints them and as `strtoul` and `atoi` read them back. A numeral without
leading zeros is the one that is printed of its value. -/
namespace AccessControl.Numeral
open BitMask

def digitByte (d : Nat) : Byte := BitVec.ofNat 8 (if d < 10 then 48 + d else 55 + d)

/- The digits from the most significant one, upper case as `%X` prints them. -/
def numeralFuel (base : Nat) : Nat → Nat → Bytes
  | 0, _ => []
  | fuel + 1, n => if n < base then [digitByte n] else numeralFuel base fuel (n / base) ++ [digitByte (n % base)]

def decimal (n : Nat) : Bytes := numeralFuel 10 (n + 1) n
def signed (v : Int) : Bytes := if v < 0 then 0x2d :: decimal v.natAbs else decimal v.natAbs

/- `%02d` and `%02X` of a byte. -/
def padded (numeral : Bytes) : Bytes := List.replicate (2 - numeral.length) 0x30 ++ numeral
def decimal2 (b : Byte) : Bytes := padded (decimal b.toNat)
def hex2 (b : Byte) : Bytes := [digitByte (b.toNat / 16),digitByte (b.toNat % 16)]

def Digit (b : Byte) : Prop := 0x30 ≤ b.toNat ∧ b.toNat ≤ 0x39
instance (b) : Decidable (Digit b) := by unfold Digit; infer_instance

def digitValue (base : Nat) (b : Byte) : Option Nat :=
  let v :=
    if Digit b then some (b.toNat - 0x30)
    else if 0x61 ≤ b.toNat ∧ b.toNat ≤ 0x7a then some (b.toNat - 87)
    else if 0x41 ≤ b.toNat ∧ b.toNat ≤ 0x5a then some (b.toNat - 55)
    else none
  v.filter (· < base)

def number (base : Nat) (digits : Bytes) : Nat := digits.foldl (fun v b => base * v + (digitValue base b).getD 0) 0

def isSpace (b : Byte) : Bool := b == 0x20 || (0x09 ≤ b.toNat && b.toNat ≤ 0x0d)

def sign (s : Bytes) : Bool × Bytes :=
  if s.head? = some 0x2d then (true,s.tail) else if s.head? = some 0x2b then (false,s.tail) else (false,s)

/- `0x` in front of a hexadecimal digit. -/
def marked (s : Bytes) : Bool :=
  s.head? == some 0x30 && (s[1]? == some 0x78 || s[1]? == some 0x58) && (s[2]?.bind (digitValue 16)).isSome

/- The sign and the digits that `strtol` and its kind convert; the string ends at its NUL or before. -/
def scan (base : Nat) (s : Bytes) : Bool × Bytes :=
  let (negative,s) := sign (s.dropWhile isSpace)
  let s := if base = 16 ∧ marked s then s.drop 2 else s
  (negative,s.takeWhile fun b => (digitValue base b).isSome)

/- The greatest value stands for all that do not fit. -/
def strtoul (w base : Nat) (s : Bytes) : BitVec w :=
  let (negative,digits) := scan base s
  let v := number base digits
  if 2 ^ w ≤ v then BitVec.allOnes w else if negative then -BitVec.ofNat w v else BitVec.ofNat w v

/- Outside the range of an `int` the behaviour is undefined. -/
def atoi (s : Bytes) : Option Int :=
  let (negative,digits) := scan 10 s
  let v : Int := if negative then -number 10 digits else number 10 digits
  if -2^31 ≤ v ∧ v < 2^31 then some v else none

theorem decimalFuel {fuel fuel' n : Nat} (enough : n < fuel) (enough' : n < fuel') :
    numeralFuel 10 fuel n = numeralFuel 10 fuel' n := by
  induction fuel generalizing fuel' n with
  | zero => omega
  | succ fuel ih =>
    cases fuel' with
    | zero => omega
    | succ fuel' =>
      rw [numeralFuel,numeralFuel]
      split
      · rfl
      · rw [ih (show n / 10 < fuel by omega) (show n / 10 < fuel' by omega)]

theorem decimalStep (n : Nat) : decimal n = if n < 10 then [digitByte n] else decimal (n / 10) ++ [digitByte (n % 10)] := by
  rw [decimal,numeralFuel]
  split
  · rfl
  · rw [decimal,decimalFuel (show n / 10 < n by omega) (show n / 10 < n / 10 + 1 by omega)]

theorem numberSnoc (base : Nat) (digits : Bytes) (b : Byte) :
    number base (digits ++ [b]) = base * number base digits + (digitValue base b).getD 0 := by
  rw [number,List.foldl_append]
  rfl

theorem digitByteNat {d : Nat} (small : d < 10) : (digitByte d).toNat = 48 + d := by
  rw [digitByte,if_pos small,BitVec.toNat_ofNat]
  omega

theorem digitDigit {d : Nat} (small : d < 10) : Digit (digitByte d) := by
  rw [Digit,digitByteNat small]
  omega

theorem digitTen {b : Byte} (digit : Digit b) : digitValue 10 b = some (b.toNat - 48) := by
  have small : b.toNat - 48 < 10 := by
    unfold Digit at digit
    omega
  simp [digitValue,digit,small]

theorem digitSelf {d : Nat} (small : d < 10) : digitValue 10 (digitByte d) = some d := by
  rw [digitTen (digitDigit small),digitByteNat small,Nat.add_sub_cancel_left]

theorem byteDigit {b : Byte} (digit : Digit b) : digitByte (b.toNat - 48) = b := by
  have small : b.toNat - 48 < 10 := by
    unfold Digit at digit
    omega
  apply BitVec.eq_of_toNat_eq
  rw [digitByteNat small]
  unfold Digit at digit
  omega

theorem numberDecimal (n : Nat) : number 10 (decimal n) = n := by
  induction n using Nat.strong_induction_on with
  | h n ih =>
    rw [decimalStep]
    by_cases single : n < 10
    · rw [if_pos single,← List.nil_append [digitByte n],numberSnoc,digitSelf single]
      simp [number]
    · rw [if_neg single,numberSnoc,ih (n / 10) (by omega),digitSelf (by omega),Option.getD_some]
      omega

theorem decimalDigits (n : Nat) : ∀ b ∈ decimal n, Digit b := by
  induction n using Nat.strong_induction_on with
  | h n ih =>
    rw [decimalStep]
    intro b mem
    by_cases single : n < 10
    · rw [if_pos single,List.mem_singleton] at mem
      exact mem ▸ digitDigit single
    · rw [if_neg single] at mem
      rcases List.mem_append.mp mem with before | last
      · exact ih (n / 10) (by omega) b before
      · rw [List.mem_singleton] at last
        exact last ▸ digitDigit (by omega)

theorem decimalNonempty (n : Nat) : decimal n ≠ [] := by
  rw [decimalStep]
  split <;> simp

/- No leading zero, but for the number zero itself. -/
def Canonical (digits : Bytes) : Prop := digits = [0x30] ∨ digits.head? ≠ some 0x30
instance (digits) : Decidable (Canonical digits) := by unfold Canonical; infer_instance

theorem decimalHead {n : Nat} (positive : 0 < n) : (decimal n).head? ≠ some 0x30 := by
  induction n using Nat.strong_induction_on with
  | h n ih =>
    rw [decimalStep]
    by_cases single : n < 10
    · rw [if_pos single,List.head?_cons]
      intro zero
      have value := congrArg BitVec.toNat (Option.some.inj zero)
      rw [digitByteNat single] at value
      change 48 + n = 48 at value
      omega
    · rw [if_neg single,List.head?_append_of_ne_nil _ (decimalNonempty _)]
      exact ih (n / 10) (by omega) (by omega)

theorem decimalCanonical (n : Nat) : Canonical (decimal n) := by
  by_cases zero : n = 0
  · subst zero
    exact .inl rfl
  · exact .inr (decimalHead (by omega))

theorem numberPositive {digits : Bytes} (each : ∀ b ∈ digits, Digit b) (some' : digits ≠ [])
    (first : digits.head? ≠ some 0x30) : 0 < number 10 digits := by
  induction digits using List.reverseRecOn with
  | nil => contradiction
  | append_singleton digits b ih =>
    have last := each b (List.mem_append_right _ (List.mem_singleton.mpr rfl))
    rw [numberSnoc,digitTen last,Option.getD_some]
    by_cases empty : digits = []
    · subst empty
      have other : b.toNat ≠ 48 := by
        intro zero
        exact first (congrArg some (BitVec.eq_of_toNat_eq zero))
      unfold Digit at last
      omega
    · rw [List.head?_append_of_ne_nil _ empty] at first
      have before := ih (fun b mem => each b (List.mem_append_left _ mem)) empty first
      omega

/- A canonical numeral is the one printed of its value. -/
theorem decimalNumber {digits : Bytes} (each : ∀ b ∈ digits, Digit b) (some' : digits ≠ []) (canonical : Canonical digits) :
    decimal (number 10 digits) = digits := by
  rcases canonical with rfl | first
  · rfl
  · induction digits using List.reverseRecOn with
    | nil => contradiction
    | append_singleton digits b ih =>
      have last := each b (List.mem_append_right _ (List.mem_singleton.mpr rfl))
      have small : b.toNat - 48 < 10 := by
        unfold Digit at last
        omega
      have before : ∀ b ∈ digits, Digit b := fun b mem => each b (List.mem_append_left _ mem)
      rw [numberSnoc,digitTen last,Option.getD_some,decimalStep]
      by_cases empty : digits = []
      · subst empty
        have nothing : number 10 [] = 0 := rfl
        rw [nothing,Nat.mul_zero,Nat.zero_add,if_pos small,byteDigit last]
        rfl
      · rw [List.head?_append_of_ne_nil _ empty] at first
        have positive := numberPositive before empty first
        have quotient : (10 * number 10 digits + (b.toNat - 48)) / 10 = number 10 digits := by omega
        have remainder : (10 * number 10 digits + (b.toNat - 48)) % 10 = b.toNat - 48 := by omega
        rw [if_neg (by omega),quotient,remainder,ih before empty first,byteDigit last]

theorem digitBelow {base : Nat} (positive : 0 < base) (b : Byte) : (digitValue base b).getD 0 < base := by
  cases value : digitValue base b with
  | none => exact positive
  | some v =>
    unfold digitValue at value
    have small := (Option.filter_eq_some_iff.mp value).2
    exact of_decide_eq_true small

theorem numberAppend (base : Nat) (digits more : Bytes) :
    number base (digits ++ more) = base ^ more.length * number base digits + number base more := by
  induction more using List.reverseRecOn with
  | nil => simp [number]
  | append_singleton more b ih =>
    have power : base ^ (more ++ [b]).length = base * base ^ more.length := by
      rw [List.length_append,List.length_singleton,Nat.pow_succ,Nat.mul_comm]
    rw [← List.append_assoc,numberSnoc,numberSnoc,ih,power,Nat.mul_add,Nat.mul_assoc,Nat.add_assoc]

theorem numberBelow {base : Nat} (positive : 0 < base) (digits : Bytes) : number base digits < base ^ digits.length := by
  induction digits using List.reverseRecOn with
  | nil => exact Nat.one_pos
  | append_singleton digits b ih =>
    have last := digitBelow positive b
    have step : base * (number base digits + 1) ≤ base * base ^ digits.length := Nat.mul_le_mul_left base ih
    rw [Nat.mul_add,Nat.mul_one] at step
    rw [numberSnoc,List.length_append,List.length_singleton,Nat.pow_succ,Nat.mul_comm _ base]
    omega

theorem digitLeast {base : Nat} {b : Byte} (digit : (digitValue base b).isSome) : 0x30 ≤ b.toNat := by
  by_contra low
  have plain : ¬ Digit b := fun digit => low digit.1
  have small : ¬ (0x61 ≤ b.toNat ∧ b.toNat ≤ 0x7a) := by omega
  have large : ¬ (0x41 ≤ b.toNat ∧ b.toNat ≤ 0x5a) := by omega
  rw [digitValue,if_neg plain,if_neg small,if_neg large] at digit
  cases digit

/- A plain numeral is converted whole. -/
theorem scanPlain {base : Nat} {digits : Bytes} (each : ∀ b ∈ digits, (digitValue base b).isSome) (unmarked : ¬ (base = 16 ∧ marked digits)) :
    scan base digits = (false,digits) := by
  have whole : digits.takeWhile (fun b => (digitValue base b).isSome) = digits := List.takeWhile_eq_self_iff.mpr each
  have unsigned : sign (digits.dropWhile isSpace) = (false,digits) := by
    cases digits with
    | nil => rfl
    | cons b rest =>
      have least := digitLeast (each b List.mem_cons_self)
      have plain : ∀ c : Byte, c.toNat < 0x30 → b ≠ c := by
        rintro c small rfl
        omega
      have space : isSpace b = false := by
        have other : b ≠ 0x20#8 := plain 0x20 (by decide)
        have large : ¬ b.toNat ≤ 0x0d := by omega
        simp [isSpace,other,large]
      have minus : ¬ (b :: rest).head? = some 0x2d := fun e => plain 0x2d (by decide) (Option.some.inj e)
      have plus : ¬ (b :: rest).head? = some 0x2b := fun e => plain 0x2b (by decide) (Option.some.inj e)
      rw [List.dropWhile_cons_of_neg (by rw [space]; decide),sign,if_neg minus,if_neg plus]
  unfold scan
  simp only [unsigned,unmarked,if_false,whole]

theorem scanDigits {digits : Bytes} (each : ∀ b ∈ digits, Digit b) : scan 10 digits = (false,digits) :=
  scanPlain (fun b mem => by rw [digitTen (each b mem)]; rfl) (fun hex => absurd hex.1 (by decide))

def HexDigit (b : Byte) : Prop := (digitValue 16 b).isSome
instance (b) : Decidable (HexDigit b) := by unfold HexDigit; infer_instance

/- The `x` of the mark is no digit itself. -/
theorem scanHex {digits : Bytes} (each : ∀ b ∈ digits, HexDigit b) : scan 16 digits = (false,digits) := by
  refine scanPlain each fun hex => ?_
  have second := hex.2
  unfold marked at second
  simp only [Bool.and_eq_true,Bool.or_eq_true,beq_iff_eq] at second
  have none : ¬ HexDigit 0x78 ∧ ¬ HexDigit 0x58 := by decide
  rcases second.1.2 with small | large
  · exact none.1 (each 0x78 (List.mem_of_getElem? small))
  · exact none.2 (each 0x58 (List.mem_of_getElem? large))

/- Hexadecimal digits are the number, where it is wide enough for them. -/
theorem strtoulHex {w : Nat} {digits : Bytes} (each : ∀ b ∈ digits, HexDigit b) (fits : 4 * digits.length ≤ w) :
    strtoul w 16 digits = BitVec.ofNat w (number 16 digits) := by
  have below := numberBelow (show 0 < 16 by decide) digits
  have power : 16 ^ digits.length ≤ 2 ^ w := by
    rw [show 16 = 2 ^ 4 by rfl,← Nat.pow_mul]
    exact Nat.pow_le_pow_right (by decide) fits
  rw [strtoul,scanHex each]
  exact if_neg (by omega)

/- A byte is read back from its two digits. -/
theorem hexSelf : ∀ b : Byte, number 16 (hex2 b) = b.toNat := by decide

theorem hexInjective {xs ys : Bytes} (same : xs.flatMap hex2 = ys.flatMap hex2) : xs = ys := by
  induction xs generalizing ys with
  | nil =>
    cases ys with
    | nil => rfl
    | cons y ys => cases same
  | cons x xs ih =>
    cases ys with
    | nil => cases same
    | cons y ys =>
      rw [List.flatMap_cons,List.flatMap_cons] at same
      obtain ⟨first,rest⟩ := List.append_inj same rfl
      have value := congrArg (number 16) first
      rw [hexSelf,hexSelf] at value
      rw [BitVec.eq_of_toNat_eq value,ih rest]

theorem strtoulDigits (w : Nat) {digits : Bytes} (each : ∀ b ∈ digits, Digit b) :
    strtoul w 10 digits = if 2 ^ w ≤ number 10 digits then BitVec.allOnes w else BitVec.ofNat w (number 10 digits) := by
  rw [strtoul,scanDigits each]
  rfl

end AccessControl.Numeral
