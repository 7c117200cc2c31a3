import AccessControl.EpsoRoundTrip
import AccessControl.PinEntry
import AccessControl.ReaderRoger

/-! One pin on the two kinds of readers. The OSDP driver hands the keys over as they were
pressed, the other converts them to a number and prints that. -/
namespace AccessControl.PinAgreement
open BitMask DoorTable Numeral Traced Epso EpsoRoundTrip ReaderRoger

/- A pin: decimal keys, from one to sixteen. -/
structure Pin where
  digits : Bytes
  each : ∀ b ∈ digits, Digit b
  some' : digits ≠ []
  most : digits.length ≤ 16

/- What stands before the digits: a status byte, or a card of sixteen digits. -/
inductive Front where
  | status (b : Byte) (other : b ≠ 0x52)
  | card (number : Bytes) (sixteen : number.length = 16) (separator : Byte)

def Front.bytes : Front → Bytes
  | .status b _ => [b]
  | .card number _ separator => 0x52 :: number ++ [separator]

/- A poll of the Roger reader that reports the pin, read in any chunks. -/
structure Report (pin : Pin) where
  front : Front
  tail : Bytes
  header : Bytes
  zeros : Nat
  chunks : List Bytes
  after : List Arrival
  seven : header.length = 7
  nonzero : header.head? ≠ some 0
  room : zeros + (response header (front.bytes ++ pin.digits ++ 0x3a :: tail)).length ≤ bufSize
  split : chunks.flatten = List.replicate zeros 0 ++ response header (front.bytes ++ pin.digits ++ 0x3a :: tail)
  quiet : Quiet after

section
variable {pin : Pin} {w fuel : Nat} {buf front digits rest : Bytes} {found : CardPin}

def Report.payload (report : Report pin) : Bytes := report.front.bytes ++ pin.digits ++ 0x3a :: report.tail
def Report.line (report : Report pin) : List Arrival := report.chunks.map .bytes ++ report.after

/- The calls of the driver, the same from some amount of fuel on. -/
def Hands (w : Nat) (written : Int) (reader : ReaderRoger.Reader) (database : Database) (line : List Arrival)
    (locals : ReaderRoger.Locals) (calls : List Callback) : Prop :=
  ∃ enough, ∀ fuel, enough ≤ fuel → ∃ rest, (ReaderRoger.getReaderData w fuel written reader database line locals).value = some (calls,rest)

/- The number that is read is printed again. -/
def printed (w : Nat) (digits : Bytes) : Bytes := signed ((strtoul w 10 digits).setWidth 64).toInt

theorem loadFront {b : Byte} {index : Int} (place : index = front.length) :
    (load (some (front ++ b :: rest)) index).value = some b := byteFront place

theorem storeFront (front rest : Bytes) (b c : Byte) {index : Int} (place : index = front.length) :
    (storeByte (front ++ b :: rest) index c).value = some (front ++ c :: rest) := by
  subst place
  have inside : (0 : Int) ≤ front.length ∧ (front.length : Int) < (front ++ b :: rest).length := by
    rw [List.length_append,List.length_cons]
    omega
  rw [storeByte,valueUse,if_pos inside,Int.toNat_natCast,List.set_append_right _ _ (le_refl _),Nat.sub_self,List.set_cons_zero]

/- A text ends at its first NUL. -/
theorem textValue (front digits rest : Bytes) (enough : digits.length < fuel) :
    (textFrom (front ++ digits ++ 0 :: rest) fuel front.length).value = some (digits.takeWhile (· != 0)) := by
  induction fuel generalizing front digits with
  | zero => omega
  | succ fuel ih =>
    cases digits with
    | nil =>
      rw [List.append_nil,textFrom,valueBind,loadFront rfl]
      rfl
    | cons b digits =>
      rw [List.length_cons] at enough
      have next := ih (front ++ [b]) digits (by omega)
      rw [List.length_append,List.length_singleton,List.append_assoc front [b],List.singleton_append] at next
      rw [textFrom,List.append_assoc front (b :: digits),List.cons_append,valueBind,loadFront rfl,Option.bind_some]
      by_cases zero : b = 0
      · subst zero
        rfl
      · have kept : (b != 0) = true := bne_iff_ne.mpr zero
        rw [if_neg zero,valueBind,← List.cons_append,← List.append_assoc,next,List.takeWhile_cons,if_pos kept]
        rfl

/- The search stops at the character or at the NUL, whichever is first, or leaves the buffer. -/
theorem indexSearched {c : Byte} (other : c ≠ 0) (front tail : Bytes) (enough : tail.length < fuel) :
    (indexFrom (front ++ tail) c fuel front.length).value =
      if c ∈ tail.takeWhile (· != 0) then some (some (front.length + (tail.takeWhile (· != c)).length))
      else if 0 ∈ tail then some none else none := by
  induction fuel generalizing front tail with
  | zero => omega
  | succ fuel ih =>
    cases tail with
    | nil =>
      have outside : byteOf (some (front ++ [])) front.length = none := by simp [byteOf]
      rw [indexFrom,valueBind,load,valueUse,outside]
      rfl
    | cons b tail =>
      rw [List.length_cons] at enough
      have next := ih (front ++ [b]) tail (by omega)
      rw [List.length_append,List.length_singleton,List.append_assoc front [b],List.singleton_append] at next
      rw [indexFrom,valueBind,loadFront rfl,Option.bind_some]
      by_cases here : b = c
      · subst here
        have first : b ∈ (b :: tail).takeWhile (· != 0) := by
          rw [List.takeWhile_cons,if_pos (bne_iff_ne.mpr other)]
          exact List.mem_cons_self
        rw [if_pos rfl,if_pos first,List.takeWhile_cons_of_neg (by simp)]
        rfl
      · rw [if_neg here]
        by_cases zero : b = 0
        · subst zero
          simp
        · rw [if_neg zero,next]
          simp only [List.takeWhile_cons,bne_iff_ne.mpr zero,bne_iff_ne.mpr here,if_true,List.mem_cons,List.length_cons,
            Ne.symm here,Ne.symm zero,false_or,Nat.add_assoc,Nat.add_comm 1]

theorem digitPlain {b : Byte} (digit : Digit b) : b ≠ 0x3a ∧ b ≠ 0 ∧ b ≠ 0x7f ∧ b ≠ 0x0d := by
  unfold Digit at digit
  refine ⟨?_,?_,?_,?_⟩ <;> (rintro rfl; revert digit; decide)

def withPin (w : Nat) (digits : Bytes) (found : CardPin) : CardPin :=
  {found with isNewData := found.isNewData ||| 0x02, pin := some ((strtoul w 10 digits).setWidth 64)}

/- The search stops at the colon behind the keys. -/
theorem keysText {keys : Bytes} (free : ∀ b ∈ keys, b ≠ 0x3a ∧ b ≠ 0) (rest : Bytes) :
    0x3a ∈ (keys ++ 0x3a :: rest).takeWhile (· != 0) ∧ (keys ++ 0x3a :: rest).takeWhile (· != 0x3a) = keys := by
  have nonzero : ∀ b ∈ keys, (b != 0) = true := fun b mem => bne_iff_ne.mpr (free b mem).2
  have plain : ∀ b ∈ keys, (b != 0x3a) = true := fun b mem => bne_iff_ne.mpr (free b mem).1
  constructor
  · rw [List.takeWhile_append_of_pos nonzero]
    exact List.mem_append_right _ List.mem_cons_self
  · rw [List.takeWhile_append_of_pos plain,List.takeWhile_cons_of_neg (by decide),List.append_nil]

/- Keys up to a colon are the pin, wherever they stand in the buffer. -/
theorem keysFound (w : Nat) (front rest : Bytes) (found : CardPin) {keys : Bytes} (free : ∀ b ∈ keys, b ≠ 0x3a ∧ b ≠ 0)
    (some' : keys ≠ []) : ∃ after, (pinOf w (front ++ keys ++ 0x3a :: rest) front.length found).value =
      some (after,withPin w keys found) := by
  have nonzero : ∀ b ∈ keys, (b != 0) = true := fun b mem => bne_iff_ne.mpr (free b mem).2
  have searched := indexSearched (show (0x3a : Byte) ≠ 0 by decide) front (keys ++ 0x3a :: rest)
    (show (keys ++ 0x3a :: rest).length < (front ++ keys ++ 0x3a :: rest).length + 1 by simp only [List.length_append]; omega)
  rw [if_pos (keysText free rest).1,(keysText free rest).2,← List.append_assoc] at searched
  have stored := storeFront (front ++ keys) rest 0x3a 0 rfl
  have read := textValue front keys rest
    (show keys.length < (front ++ keys ++ 0 :: rest).length + 1 by simp only [List.length_append]; omega)
  obtain ⟨b,more,split⟩ := List.exists_cons_of_ne_nil some'
  have first : (load (some (front ++ keys ++ 0x3a :: rest)) front.length).value = some b := by
    rw [split,List.append_assoc,List.cons_append]
    exact loadFront rfl
  have other : b ≠ 0x3a := (free b (split ▸ List.mem_cons_self)).1
  rw [List.length_append] at stored
  unfold pinOf
  rw [valueBind,first,Option.bind_some,if_pos other,valueBind,index,searched,Option.bind_some]
  dsimp only
  rw [valueBind,stored,Option.bind_some,valueBind,text,read,Option.bind_some,List.takeWhile_eq_self_iff.mpr nonzero]
  exact ⟨_,rfl⟩

theorem pinFound (w : Nat) (front rest : Bytes) (pin : Pin) (found : CardPin) :
    ∃ after, (pinOf w (front ++ pin.digits ++ 0x3a :: rest) front.length found).value =
      some (after,withPin w pin.digits found) :=
  keysFound w front rest found (fun b mem => ⟨(digitPlain (pin.each b mem)).1,(digitPlain (pin.each b mem)).2.1⟩) pin.some'

theorem cardFound (number : Bytes) (separator : Byte) (rest : Bytes) (sixteen : number.length = 16) :
    (cardOf (0x52 :: number ++ separator :: rest)).value =
      some (0x52 :: number ++ 0 :: rest,18,⟨0x01,some (strtoul 64 16 (number.takeWhile (· != 0))),none⟩) := by
  have place : (1 + 16 : Int) = (0x52 :: number : Bytes).length := by rw [List.length_cons,sixteen]; rfl
  have stored := storeFront (0x52 :: number) rest separator 0 place
  have read := textValue [0x52] number rest
    (show number.length < (0x52 :: number ++ 0 :: rest).length + 1 by simp only [List.length_append,List.length_cons]; omega)
  have status : (load (some ([] ++ 0x52 :: (number ++ separator :: rest))) 0).value = some 0x52 := loadFront rfl
  have digits : (text (0x52 :: number ++ 0 :: rest) 1).value = some (number.takeWhile (· != 0)) := read
  rw [List.nil_append] at status
  unfold cardOf
  rw [List.cons_append,valueBind,status,Option.bind_some,if_pos rfl,valueBind,← List.cons_append,stored,Option.bind_some,
    valueBind,digits,Option.bind_some]
  rfl

/- Without the letter R there is no card. -/
theorem cardAbsent {b : Byte} (other : b ≠ 0x52) (rest : Bytes) : (cardOf (b :: rest)).value = some (b :: rest,1,⟨0,none,none⟩) := by
  have status : (load (some ([] ++ b :: rest)) 0).value = some b := loadFront rfl
  rw [List.nil_append] at status
  rw [cardOf,valueBind,status,Option.bind_some,if_neg other]
  rfl

/- What the driver calls for a report: the pin that it printed, the card instead of it, or
nothing for less than five bytes. -/
def Called (w : Nat) (database : Database) (report : Report pin) (calls : List Callback) : Prop :=
  match report.front with
  | .status _ _ => calls = if 4 < report.payload.length then [⟨printed w pin.digits,.dataIsPin,.dataOk,database⟩] else []
  | .card _ _ _ => ∃ card mode, calls = [⟨card,.dataIsCard,mode,database⟩]

theorem frontFound (w : Nat) (report : Report pin) (rest : Bytes) :
    ∃ after bufp found, (cardOf (report.payload ++ rest)).value = some (after,bufp,found) ∧
      ∃ last, (pinOf w after bufp found).value = some (last,withPin w pin.digits found) ∧
      match report.front with
      | .status _ _ => found = ⟨0,none,none⟩
      | .card _ _ _ => ∃ card, found = ⟨0x01,some card,none⟩ := by
  unfold Report.payload
  cases report.front with
  | status b other =>
    obtain ⟨last,value⟩ := pinFound w [b] (report.tail ++ rest) pin ⟨0,none,none⟩
    refine ⟨b :: pin.digits ++ 0x3a :: (report.tail ++ rest),1,⟨0,none,none⟩,?_,last,?_,rfl⟩
    · simp only [Front.bytes,List.append_assoc,List.cons_append,List.nil_append]
      exact cardAbsent other _
    · exact value
  | card number sixteen separator =>
    have value := cardFound number separator (pin.digits ++ 0x3a :: (report.tail ++ rest)) sixteen
    generalize strtoul 64 16 (number.takeWhile (· != 0)) = card at value
    obtain ⟨last,pinned⟩ := pinFound w (0x52 :: number ++ [0]) (report.tail ++ rest) pin ⟨0x01,some card,none⟩
    have place : (0x52 :: number ++ [0] : Bytes).length = 18 := by
      rw [List.length_append,List.length_cons,sixteen]
      rfl
    rw [place] at pinned
    refine ⟨0x52 :: number ++ 0 :: (pin.digits ++ 0x3a :: (report.tail ++ rest)),18,_,?_,last,?_,card,rfl⟩
    · simp only [Front.bytes,List.append_assoc,List.cons_append,List.nil_append] at value ⊢
      exact value
    · simp only [List.append_assoc,List.cons_append,List.nil_append] at pinned ⊢
      exact pinned

theorem reportPayload (report : Report pin) : report.payload ≠ [] ∧ (∀ number sixteen separator,
    report.front = .card number sixteen separator → 4 < report.payload.length) := by
  constructor
  · intro empty
    have length := congrArg List.length empty
    simp only [Report.payload,List.length_append,List.length_cons] at length
    simp at length
  · intro number sixteen separator card
    simp only [Report.payload,card,Front.bytes,List.length_append,List.length_cons,sixteen]
    omega

/- The exchange leaves the payload in front of the buffer, which it does not fill. -/
theorem reportExchanged (written : Int) (addr : Byte) (report : Report pin) {buf : Bytes} (size : buf.length = bufSize) :
    ∃ b rest, Exchanges written addr 0xa5 0x33 buf report.line
      (report.payload.length,some (report.payload ++ b :: rest),(select report.after).2) := by
  obtain ⟨rest,whole,given⟩ := exchanged written addr 0xa5 0x33 report.seven report.nonzero report.room report.split report.quiet size
  change (report.payload ++ rest).length = bufSize at whole
  change Exchanges _ _ _ _ _ report.line (returned report.payload,some (report.payload ++ rest),_) at given
  rw [returned,if_neg (reportPayload report).1] at given
  have room : report.zeros + (response report.header report.payload).length ≤ bufSize := report.room
  simp only [response,body,List.length_append,List.length_singleton] at room
  cases rest with
  | nil =>
    rw [List.append_nil] at whole
    omega
  | cons b rest => exact ⟨b,rest,given⟩

/- A report of five bytes or more is read as its pin, behind the card if it has one. -/
theorem reportRead (w : Nat) (written : Int) (addr : Byte) (report : Report pin) (long : 4 < report.payload.length) {buf : Bytes}
    (size : buf.length = bufSize) : ∃ found enough, (∀ fuel, enough ≤ fuel → (readCardPin w fuel written addr buf report.line).value =
      some (withPin w pin.digits found,(select report.after).2)) ∧
    match report.front with
    | .status _ _ => found = ⟨0,none,none⟩
    | .card _ _ _ => ∃ card, found = ⟨0x01,some card,none⟩ := by
  obtain ⟨b,rest,enough,given⟩ := reportExchanged written addr report size
  have ended := storeFront report.payload rest b 0 rfl
  have long' : (4 : Int) < report.payload.length := by omega
  obtain ⟨after,bufp,found,front,last,pinned,which⟩ := frontFound w report (0 :: rest)
  refine ⟨found,enough,fun fuel more => ?_,which⟩
  unfold readCardPin
  rw [valueBind,given fuel more,Option.bind_some]
  dsimp only
  rw [Option.getD_some,valueBind,ended,Option.bind_some,if_pos long',valueBind,front,Option.bind_some]
  dsimp only
  rw [valueBind,pinned]
  rfl

/- Of a shorter one nothing is taken. -/
theorem reportShort (w : Nat) (written : Int) (addr : Byte) (report : Report pin) (short : ¬ 4 < report.payload.length) {buf : Bytes}
    (size : buf.length = bufSize) : ∃ enough, ∀ fuel, enough ≤ fuel → (readCardPin w fuel written addr buf report.line).value =
      some (⟨0,none,none⟩,(select report.after).2) := by
  obtain ⟨b,rest,enough,given⟩ := reportExchanged written addr report size
  have ended := storeFront report.payload rest b 0 rfl
  have short' : ¬ (4 : Int) < report.payload.length := by omega
  refine ⟨enough,fun fuel more => ?_⟩
  unfold readCardPin
  rw [valueBind,given fuel more,Option.bind_some]
  dsimp only
  rw [Option.getD_some,valueBind,ended,Option.bind_some,if_neg short']
  rfl

theorem handsCalled (w : Nat) (written : Int) (reader : ReaderRoger.Reader) (database : Database) (report : Report pin)
    (locals : ReaderRoger.Locals) :
    ∃ calls, Called w database report calls ∧ Hands w written reader database report.line locals calls := by
  by_cases long : 4 < report.payload.length
  · obtain ⟨found,enough,value,which⟩ := reportRead w written reader.address report long locals.size
    have handed : ∀ calls, (∀ fuel, enough ≤ fuel → (ReaderRoger.getReaderData w fuel written reader database report.line locals).value =
        some (calls,(select report.after).2)) → Hands w written reader database report.line locals calls :=
      fun calls each => ⟨enough,fun fuel more => ⟨_,each fuel more⟩⟩
    cases which' : report.front with
    | status b other =>
      rw [which'] at which
      refine ⟨[⟨printed w pin.digits,.dataIsPin,.dataOk,database⟩],?_,handed _ fun fuel more => ?_⟩
      · simp only [Called,which',long,if_true]
      · have noCard : ¬ flag 0x01 ((0 : Byte) ||| 0x02) = true := by decide
        have hasPin : flag 0x02 ((0 : Byte) ||| 0x02) = true := by decide
        rw [ReaderRoger.getReaderData,valueBind,value fuel more,which,Option.bind_some]
        dsimp only [withPin]
        rw [if_neg noCard,if_pos hasPin]
        rfl
    | card number sixteen separator =>
      rw [which'] at which
      obtain ⟨card,rfl⟩ := which
      refine ⟨[⟨memory card (if card &&& 0x00ffffff00000000 != 0 then 7 else 4),.dataIsCard,.dataOk,database⟩],?_,
        handed _ fun fuel more => ?_⟩
      · simp only [Called,which']
        exact ⟨_,_,rfl⟩
      · have hasCard : flag 0x01 ((0x01 : Byte) ||| 0x02) = true := by decide
        rw [ReaderRoger.getReaderData,valueBind,value fuel more,Option.bind_some]
        dsimp only [withPin]
        rw [if_pos hasCard]
        rfl
  · obtain ⟨enough,value⟩ := reportShort w written reader.address report long locals.size
    refine ⟨[],?_,enough,fun fuel more => ⟨(select report.after).2,?_⟩⟩
    · unfold Called
      cases which : report.front with
      | status b other => exact (if_neg long).symm
      | card number sixteen separator => exact absurd ((reportPayload report).2 number sixteen separator which) long
    · have nothing : ¬ flag 0x01 (0 : Byte) = true ∧ ¬ flag 0x02 (0 : Byte) = true := by decide
      rw [ReaderRoger.getReaderData,valueBind,value fuel more,Option.bind_some]
      dsimp only
      rw [if_neg nothing.1,if_neg nothing.2]
      rfl

/- Printing the number gives the digits back: no leading zero, and a number that fits. -/
def Faithful (w : Nat) (digits : Bytes) : Prop := Canonical digits ∧ number 10 digits < 2 ^ w

theorem printedNat {w n : Nat} (fits : n < 2 ^ w) (small : n < 2 ^ 63) :
    signed ((BitVec.ofNat w n).setWidth 64).toInt = decimal n := by
  have value : ((BitVec.ofNat w n).setWidth 64).toInt = n := by
    rw [BitVec.toInt_eq_toNat_of_lt]
    · rw [BitVec.toNat_setWidth,BitVec.toNat_ofNat,Nat.mod_eq_of_lt fits,Nat.mod_eq_of_lt (by omega)]
    · rw [BitVec.toNat_setWidth,BitVec.toNat_ofNat,Nat.mod_eq_of_lt fits,Nat.mod_eq_of_lt (by omega)]
      omega
  have natural : ¬ (n : Int) < 0 := by omega
  rw [value,signed,if_neg natural,Int.natAbs_natCast]

theorem printedSelf (w : Nat) (pin : Pin) : printed w pin.digits = pin.digits ↔ Faithful w pin.digits := by
  have most := Nat.pow_le_pow_right (show 0 < 10 by decide) pin.most
  have bound := numberBelow (show 0 < 10 by decide) pin.digits
  have small : number 10 pin.digits < 2 ^ 63 := by
    have power : (10 : Nat) ^ 16 < 2 ^ 63 := by decide
    omega
  unfold printed Faithful
  rw [strtoulDigits w pin.each]
  by_cases fits : number 10 pin.digits < 2 ^ w
  · rw [if_neg (by omega),printedNat fits small,and_iff_left fits]
    constructor
    · intro same
      rw [← same]
      exact decimalCanonical _
    · exact decimalNumber pin.each pin.some'
  -- A number that does not fit is printed as the greatest one that does.
  · have ones : BitVec.allOnes w = BitVec.ofNat w (2 ^ w - 1) := by
      apply BitVec.eq_of_toNat_eq
      rw [BitVec.toNat_allOnes,BitVec.toNat_ofNat,Nat.mod_eq_of_lt (Nat.sub_lt (Nat.two_pow_pos w) Nat.one_pos)]
    have positive := Nat.two_pow_pos w
    rw [if_pos (by omega),ones,printedNat (by omega) (by omega)]
    refine iff_of_false (fun same => ?_) (fun faithful => fits faithful.2)
    have value := congrArg (number 10) same
    rw [numberDecimal] at value
    omega

/- A report of five bytes or more with no card in front of the pin. -/
def Report.Plain (report : Report pin) : Prop := (∃ b other, report.front = .status b other) ∧ 4 < report.payload.length

theorem calledPin {database : Database} {report : Report pin} {calls : List Callback} (called : Called w database report calls) :
    calls = [⟨pin.digits,.dataIsPin,.dataOk,database⟩] ↔ report.Plain ∧ Faithful w pin.digits := by
  unfold Called at called
  unfold Report.Plain
  cases front : report.front with
  | status b other =>
    rw [front] at called
    dsimp only at called
    by_cases long : 4 < report.payload.length
    · rw [called,if_pos long,← printedSelf w pin]
      constructor
      · intro same
        exact ⟨⟨⟨b,other,rfl⟩,long⟩,by simpa using same⟩
      · rintro ⟨_,same⟩
        rw [same]
    · rw [called,if_neg long]
      simp [long]
  | card number sixteen separator =>
    rw [front] at called
    obtain ⟨card,mode,rfl⟩ := called
    simp

theorem handsOnce {written : Int} {reader : ReaderRoger.Reader} {database : Database} {line : List Arrival}
    {locals : ReaderRoger.Locals} {calls calls' : List Callback} (first : Hands w written reader database line locals calls)
    (second : Hands w written reader database line locals calls') : calls = calls' := by
  obtain ⟨enough,given⟩ := first
  obtain ⟨enough',given'⟩ := second
  obtain ⟨rest,value⟩ := given (max enough enough') (Nat.le_max_left ..)
  obtain ⟨rest',value'⟩ := given' (max enough enough') (Nat.le_max_right ..)
  exact congrArg Prod.fst (Option.some.inj (value.symm.trans value'))

theorem confirmedOsdp (database : Database) (osdp : ReaderIdesco.Reader) (empty : osdp.pinBufPos = 0) {polls : List PinEntry.Poll}
    (keyed : (polls.flatMap fun poll => poll.reply.keys) = pin.digits ++ [0x0d]) :
    ∃ after actions, PinEntry.polled database osdp polls = some (after,actions) ∧
      PinEntry.callbacks actions = [⟨pin.digits,.dataIsPin,.dataOk,database⟩] := by
  obtain ⟨after,actions,value,_,called⟩ := PinEntry.pollsEntered osdp database polls
  have nothing : PinEntry.typed osdp = [] := by rw [PinEntry.typed,empty,List.take_zero]
  have plain : ∀ key ∈ pin.digits, key ≠ 0x7f ∧ key ≠ 0x0d := fun key mem => (digitPlain (pin.each key mem)).2.2
  have most := pin.most
  rw [keyed,nothing,PinEntry.entryConfirmed plain (by unfold ReaderIdesco.maxPinLen; omega)] at called
  exact ⟨after,actions,value,called⟩

end

/- Both drivers hand over the same calls for the pin, keyed on one reader and reported by the other. -/
def Agree (w : Nat) (written : Int) (database : Database) {pin : Pin} (report : Report pin) (reader : ReaderRoger.Reader)
    (locals : ReaderRoger.Locals) (osdp : ReaderIdesco.Reader) (polls : List PinEntry.Poll) : Prop :=
  ∃ calls, Hands w written reader database report.line locals calls ∧
    ∃ after actions, PinEntry.polled database osdp polls = some (after,actions) ∧ PinEntry.callbacks actions = calls

/- The drivers agree just on the pins that survive the conversion, and those stay apart. -/
theorem driversAgree (w : Nat) (written : Int) (database : Database) {pin : Pin} (report : Report pin) (reader : ReaderRoger.Reader)
    (locals : ReaderRoger.Locals) (osdp : ReaderIdesco.Reader) (empty : osdp.pinBufPos = 0) {polls : List PinEntry.Poll}
    (keyed : (polls.flatMap fun poll => poll.reply.keys) = pin.digits ++ [0x0d]) :
    (Agree w written database report reader locals osdp polls ↔ report.Plain ∧ Faithful w pin.digits) ∧
    (report.Plain → Faithful w pin.digits → ∀ {other : Pin} (report' : Report other), report'.Plain → Faithful w other.digits →
      ∀ calls, Hands w written reader database report.line locals calls → Hands w written reader database report'.line locals calls →
        other.digits = pin.digits) := by
  obtain ⟨after,actions,value,confirmed⟩ := confirmedOsdp database osdp empty keyed
  obtain ⟨calls,called,hands⟩ := handsCalled w written reader database report locals
  refine ⟨⟨?_,fun holds => ?_⟩,?_⟩
  · rintro ⟨calls',hands',after',actions',value',same⟩
    have equal : actions = actions' := congrArg Prod.snd (Option.some.inj (value.symm.trans value'))
    rw [← equal,confirmed] at same
    exact (calledPin called).mp ((handsOnce hands hands').trans same.symm)
  · exact ⟨calls,hands,after,actions,value,confirmed.trans ((calledPin called).mpr holds).symm⟩
  · intro plain faithful other report' plain' faithful' given first second
    obtain ⟨calls',called',hands'⟩ := handsCalled w written reader database report' locals
    have here := (handsOnce first hands).trans ((calledPin called).mpr ⟨plain,faithful⟩)
    have there := (handsOnce second hands').trans ((calledPin called').mpr ⟨plain',faithful'⟩)
    rw [here] at there
    simpa using there.symm

/- A report in one chunk with two bytes of status behind it, and one poll with the keys. -/
def plainReport (pin : Pin) : Report pin where
  front := .status 0x4b (by decide)
  tail := [0x30,0x30]
  header := header
  zeros := 0
  chunks := [response header ([0x4b] ++ pin.digits ++ 0x3a :: [0x30,0x30])]
  after := []
  seven := rfl
  nonzero := by decide
  room := by
    have most := pin.most
    simp only [response,body,header,Front.bytes,List.length_append,List.length_cons,List.length_nil,bufSize]
    omega
  split := by simp [Front.bytes]
  quiet := by decide

def onePoll (pin : Pin) : PinEntry.Poll where
  address := 0x7f
  reply := .keypad 0 (pin.digits ++ [0x0d])
  fits := by
    have most := pin.most
    simp only [PinEntry.Reply.data,List.length_append,List.length_cons,List.length_nil]
    omega
  locals := ⟨⟨0,OsdpPacket.clear⟩,⟨0,OsdpPacket.clear⟩,⟨0,0,OsdpPacket.clear⟩⟩

def zeroOne : Pin := ⟨[0x30,0x31],by decide,by decide,by decide⟩
def one : Pin := ⟨[0x31],by decide,by decide,by decide⟩
def roger : ReaderRoger.Reader := ⟨3,0x00⟩
def rogerLocals : ReaderRoger.Locals := ⟨List.replicate bufSize 0,0,0,List.length_replicate⟩
def idesco : ReaderIdesco.Reader := ⟨4,false,0x7f,List.replicate 29 0,0,0,List.length_replicate,by decide⟩
def noDatabase : Database := fun _ => ⟨0,[]⟩

theorem driversAgreeOne :
    (Agree 32 12 noDatabase (plainReport one) roger rogerLocals idesco [onePoll one] ↔ (plainReport one).Plain ∧ Faithful 32 one.digits) ∧
    ((plainReport one).Plain → Faithful 32 one.digits → ∀ {other : Pin} (report' : Report other), report'.Plain → Faithful 32 other.digits →
      ∀ calls, Hands 32 12 roger noDatabase (plainReport one).line rogerLocals calls →
        Hands 32 12 roger noDatabase report'.line rogerLocals calls → other.digits = one.digits) :=
  have keyed : ([onePoll one].flatMap fun poll => poll.reply.keys) = one.digits ++ [0x0d] := rfl
  driversAgree 32 12 noDatabase (plainReport one) roger rogerLocals idesco rfl keyed

/- With a leading zero the Roger reader opens as another pin. -/
theorem zeroOneMisread : ¬ Agree 32 12 noDatabase (plainReport zeroOne) roger rogerLocals idesco [onePoll zeroOne] ∧
    (∃ calls, Hands 32 12 roger noDatabase (plainReport zeroOne).line rogerLocals calls ∧
      Hands 32 12 roger noDatabase (plainReport one).line rogerLocals calls) ∧ zeroOne.digits ≠ one.digits := by
  obtain ⟨calls,called,hands⟩ := handsCalled 32 12 roger noDatabase (plainReport zeroOne) rogerLocals
  obtain ⟨calls',called',hands'⟩ := handsCalled 32 12 roger noDatabase (plainReport one) rogerLocals
  obtain ⟨after,actions,value,confirmed⟩ := confirmedOsdp noDatabase idesco rfl
    (show ([onePoll zeroOne].flatMap fun poll => poll.reply.keys) = zeroOne.digits ++ [0x0d] from rfl)
  have first : calls = [⟨[0x31],.dataIsPin,.dataOk,noDatabase⟩] := called
  have second : calls' = [⟨[0x31],.dataIsPin,.dataOk,noDatabase⟩] := called'
  refine ⟨?_,⟨calls,hands,?_⟩,by decide⟩
  · rintro ⟨calls'',hands'',after',actions',value',same⟩
    have equal : actions = actions' := congrArg Prod.snd (Option.some.inj (value.symm.trans value'))
    rw [← equal,confirmed,handsOnce hands'' hands,first] at same
    simp [zeroOne] at same
  · rw [first,← second]
    exact hands'

end AccessControl.PinAgreement
