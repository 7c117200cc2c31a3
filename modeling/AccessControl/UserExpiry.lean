import AccessControl.DoorNames

/-! When a row counts as expired. The clock and the stored date are cut to an `int` each
before they are compared, so the order of two dates is told only up to 2^32 seconds. -/
namespace AccessControl.UserExpiry
open BitMask DoorTable DoorController Traced UserDb UserRows DoorNames

/- The window of 2^32 seconds around zero, or a later or earlier one, and the place in it. -/
def window (x : Int) : Int := (x + 2^31) / 2^32
def place (x : Int) : Int := (x + 2^31) % 2^32

theorem intPlace (x : Int) : (BitVec.ofInt 32 x).toInt = place x - 2^31 := by
  have width : ((2^32 : Nat) : Int) = 4294967296 := rfl
  rw [BitVec.toInt_ofInt,Int.bmod,place,width]
  split <;> omega

/- The order of the places is that of the dates. -/
def InOrder (now e : Int) : Prop :=
  window now = window e ∨ window now < window e ∧ place now ≤ place e ∨ window e < window now ∧ place e < place now

theorem inOrder {now e : Int} : InOrder now e ↔ (place now ≤ place e ↔ now ≤ e) := by
  have low := Int.emod_lt_of_pos (now + 2^31) (show (0 : Int) < 2^32 by decide)
  have high := Int.emod_lt_of_pos (e + 2^31) (show (0 : Int) < 2^32 by decide)
  have lowN := Int.emod_nonneg (now + 2^31) (show (2^32 : Int) ≠ 0 by decide)
  have highN := Int.emod_nonneg (e + 2^31) (show (2^32 : Int) ≠ 0 by decide)
  have now' := Int.mul_ediv_add_emod (now + 2^31) (2^32)
  have e' := Int.mul_ediv_add_emod (e + 2^31) (2^32)
  unfold InOrder window place
  omega

theorem expiredPlace (now e : Int) : currTime now ≤ columnInt (some e) ↔ place now ≤ place e := by
  rw [currTime,columnInt,Option.getD_some,intPlace,intPlace]
  omega

/- The turn of one row in a call over the tables, with what the rows before it have left. -/
structure Turn (valid : Bytes → Prop) (md5 : Md5) (t : Tables) (db : Connection) (now : Int) (pin card : Bytes) (mode : Byte) (doorname : Bytes)
    (row : Row) (found next : Found) : Prop where
  documented : Documented valid t db
  call : ∃ value before after, Asked md5 mode pin card doorname value ∧
    db.rows (selectText mode value doorname) = before ++ row :: after ∧
    (checkRows mode (pinText md5 mode pin) doorname now before start).value = some found
  turn : (checkRow mode (pinText md5 mode pin) doorname now row found).value = some next

/- A row adds to the mask before its date has passed only, and is not refused as expired then. -/
def Decides (now e : Int) : Prop := ∀ valid md5 t db pin card mode doorname row found next,
  Turn valid md5 t db now pin card mode doorname row found next → row.expire = some e →
    (∀ m, rowMask mode (pinText md5 mode pin) doorname now row = some m → m ≠ 0 → now ≤ e) ∧ (now ≤ e → next.errType ≠ .expire)

section
variable {mode : Byte} {pinMd5 doorname : Bytes} {time : Int} {row : Row} {found next : Found}

/- The one place where a row is refused as expired. -/
theorem turnExpire (turn : (checkRow mode pinMd5 doorname time row found).value = some next) :
    next.errType = .expire ↔ columnInt row.expire < currTime time := by
  unfold checkRow at turn
  split at turn
  · rename_i late
    cases Option.some.inj turn
    exact iff_of_true rfl late
  · rename_i intime
    refine iff_of_false ?_ intime
    rw [valueBind] at turn
    obtain ⟨wrong,_,turn⟩ := Option.bind_eq_some_iff.mp turn
    cases wrong with
    | true =>
      cases Option.some.inj turn
      simp
    | false =>
      simp only [Bool.false_eq_true,if_false,valueBind,valueUse,valuePure] at turn
      obtain ⟨sub,_,turn⟩ := Option.bind_eq_some_iff.mp turn
      obtain ⟨bit,_,turn⟩ := Option.bind_eq_some_iff.mp turn
      cases Option.some.inj turn
      simp

end

def nameA : Bytes := ascii ['A']

/- One user with the card 00 and a date, linked to the door A. -/
def dated (e : Int) : User := ⟨1,some (cardHex [0]),none,none,some e⟩
def datedRow (e : Int) : Row := rowOf (dated e) (oneLink 1) ⟨1,some nameA⟩
def datedA (e : Int) : Tables := single (dated e) (oneLink 1) ⟨1,some nameA⟩

theorem datedRows (e : Int) : (reference (datedA e)).rows (selectText modeCard (cardHex [0]) nameA) = [datedRow e] := by
  have plain : 0x27 ∉ cardHex [0] := by decide
  have plainName : 0x27 ∉ nameA := by decide
  rw [datedA,referenceRows _ plain plainName]
  rfl

/- The row of the one user tells whether the comparison of the turn is that of the dates. -/
theorem decidesCompares {now e : Int} (decides : Decides now e) : currTime now ≤ columnInt (some e) ↔ now ≤ e := by
  have asked : Asked zeroMd5 modeCard [] [0] nameA (cardHex [0]) := (cardAsked rfl (by simp)).mpr ⟨by decide,rfl,by decide +kernel⟩
  have met : PinMet modeCard (pinText zeroMd5 modeCard []) (datedRow e) := ⟨fun e => absurd e (by decide),fun e => absurd e (by decide)⟩
  have single' : subdoor nameA (datedRow e).door = some 0 := subdoorSingle (by decide) _
  have turn : ∀ next, (checkRow modeCard (pinText zeroMd5 modeCard []) nameA now (datedRow e) start).value = some next →
      Turn closed zeroMd5 (datedA e) (reference (datedA e)) now [] [0] modeCard nameA (datedRow e) start next :=
    fun next turn => ⟨referenceDocumented _,⟨_,[],[],asked,datedRows e,rfl⟩,turn⟩
  have bit : (rowMask modeCard (pinText zeroMd5 modeCard []) nameA now (datedRow e)).isSome :=
    rowSome.mpr fun _ => ⟨fun compares => absurd compares (by decide),fun _ => ⟨0,single',le_refl 0,by decide⟩⟩
  obtain ⟨m,mask⟩ := Option.isSome_iff_exists.mp bit
  obtain ⟨next,taken,_⟩ := checkRowSome start mask
  obtain ⟨adds,refuses⟩ := decides _ _ _ _ _ _ _ _ _ _ _ (turn next taken) rfl
  constructor
  · intro intime
    have accepted : Accepted modeCard (pinText zeroMd5 modeCard []) now (datedRow e) := ⟨intime,met⟩
    obtain ⟨m,mask,bit⟩ := (rowBit (k := 0)).mpr ⟨accepted,single',by decide⟩
    exact adds m mask (maskNonzero.mpr ⟨0,bit⟩)
  · intro due
    have kept := refuses due
    rw [ne_eq,turnExpire taken,not_lt] at kept
    exact kept

/- The dates are told right just where their places are in their order. -/
theorem expiryDecides (now e : Int) : Decides now e ↔ InOrder now e := by
  rw [inOrder,← expiredPlace]
  refine ⟨decidesCompares,?_⟩
  intro order valid md5 t db pin card mode doorname row found next turn date
  rw [← date] at order
  constructor
  · intro m mask nonzero
    obtain ⟨k,bit⟩ := maskNonzero.mp nonzero
    exact order.mp (rowBit.mp ⟨m,mask,bit⟩).1.unexpired
  · intro due
    rw [ne_eq,turnExpire turn.turn,not_lt]
    exact order.mpr due

/- In January 2038 a date of 1970 lets its user in. -/
theorem expiredOpens : Documented closed (datedA 0) (reference (datedA 0)) ∧ (0 : Int) < 2^31 ∧
    ((getAccessMask2 zeroMd5 (reference (datedA 0)) (2^31) [] [0] modeCard nameA).value).map Answer.mask = some 1 ∧
    ¬ Decides (2^31) 0 := by
  refine ⟨referenceDocumented _,by decide,by decide +kernel,fun decides => ?_⟩
  exact absurd ((decidesCompares decides).mp (by decide)) (by decide)

end AccessControl.UserExpiry
