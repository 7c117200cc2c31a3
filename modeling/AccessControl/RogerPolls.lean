import AccessControl.RogerBounds

/-! The polls of a Roger reader: what `readCardPin` reports of the responses and what the
driver hands to the controller. A poll that does not come back reports and hands over nothing. -/
namespace AccessControl.RogerPolls
open BitMask DoorTable Numeral Traced Epso EpsoRoundTrip ReaderRoger PinAgreement RogerBounds

/- What the line has for a poll, with what the polls before it left there. -/
structure Poll where
  line : List Arrival
  locals : Locals

inductive Credential where
  | card (number : BitVec 64)
  | pin (number : BitVec 64)
  deriving DecidableEq, Repr

/- The two bits of the result, with the number that is set for each. -/
def credentials (found : CardPin) : List Credential :=
  (if flag 0x01 found.isNewData then (found.card.map Credential.card).toList else []) ++
    (if flag 0x02 found.isNewData then (found.pin.map Credential.pin).toList else [])

def callback (database : Database) : Credential → Callback
  | .card number => ⟨memory number (if number &&& 0x00ffffff00000000 != 0 then 7 else 4),.dataIsCard,.dataOk,database⟩
  | .pin number => ⟨signed number.toInt,.dataIsPin,.dataOk,database⟩

def reported (w fuel : Nat) (written : Int) (reader : ReaderRoger.Reader) (poll : Poll) : List Credential :=
  match (readCardPin w fuel written reader.address poll.locals.dataBuf poll.line).value with
  | none => []
  | some (found,_) => credentials found

def delivered (w fuel : Nat) (written : Int) (reader : ReaderRoger.Reader) (database : Database) (poll : Poll) : List Callback :=
  match (ReaderRoger.getReaderData w fuel written reader database poll.line poll.locals).value with
  | none => []
  | some (calls,_) => calls

/- A card, and behind it keys up to a colon. -/
def CardKeys (len : Int) (out : Bytes) : Prop :=
  4 < len ∧ len < bufSize ∧ out.head? = some 0x52 ∧ ((out.set len.toNat 0).drop 18).head? ≠ some 0x3a ∧
    Colon ((out.set len.toNat 0).drop 18)

/- The response of a poll carries both. -/
def CarriesBoth (fuel : Nat) (written : Int) (reader : ReaderRoger.Reader) (poll : Poll) : Prop :=
  ∃ len out rest, (exchange fuel written reader.address poll.locals.dataBuf poll.line).value = some (len,some out,rest) ∧ CardKeys len out

/- The two bits say which of the numbers are set. -/
def bits (card pin : Bool) : Byte := (if card then 0x01 else 0x00) ||| (if pin then 0x02 else 0x00)
def Marked (found : CardPin) : Prop := found.isNewData = bits found.card.isSome found.pin.isSome

/- What is taken of the text behind the card or the status. -/
def taken (w : Nat) (tail : Bytes) (found : CardPin) : Option CardPin :=
  if tail.head? = some 0x3a then some found
  else if Colon tail then some (withPin w (tail.takeWhile (· != 0x3a)) found) else none

/- The sixteen digits behind the letter, up to a NUL. -/
def cardNumber (buf : Bytes) : BitVec 64 := strtoul 64 16 (((buf.drop 1).take 16).takeWhile (· != 0))

section
variable {w fuel : Nat} {len : Int} {buf out : Bytes} {found : CardPin}

theorem pinTaken (w : Nat) (front tail : Bytes) (found : CardPin) :
    (pinOf w (front ++ tail) front.length found).value.map Prod.snd = taken w tail found := by
  unfold taken
  by_cases colon : Colon tail
  · obtain ⟨keys,rest,rfl,free⟩ := colonSplits colon
    cases keys with
    | nil =>
      rw [List.nil_append,pinEmpty]
      rfl
    | cons b keys =>
      obtain ⟨after,value⟩ := keysFound w front rest found free (List.cons_ne_nil b keys)
      have other : ¬ (b :: keys ++ 0x3a :: rest).head? = some 0x3a :=
        fun same => (free b List.mem_cons_self).1 (Option.some.inj same)
      rw [if_neg other,if_pos colon,(keysText free rest).2,← List.append_assoc,value]
      rfl
  · have other : ¬ tail.head? = some 0x3a := by
      intro same
      obtain ⟨more,rfl⟩ := List.head?_eq_some_iff.mp same
      exact colon List.mem_cons_self
    rw [if_neg other,if_neg colon,(pinMissing w front found colon).1]
    rfl

theorem cardTaken (w : Nat) (long : 18 ≤ buf.length) (status : buf.head? = some 0x52) :
    (cardPin w buf).value = taken w (buf.drop 18) ⟨0x01,some (cardNumber buf),none⟩ := by
  obtain ⟨number,separator,tail,rfl,sixteen⟩ := cardSplits long status
  have place : (0x52 :: number ++ [0] : Bytes).length = 18 := by
    rw [List.length_append,List.length_cons,sixteen]
    rfl
  have behind : (0x52 :: number ++ separator :: tail).drop 18 = tail := by
    have split : 0x52 :: number ++ separator :: tail = (0x52 :: number ++ [separator]) ++ tail := by simp
    rw [split]
    exact List.drop_left' (by rw [List.length_append,List.length_cons,sixteen]; rfl)
  have digits : ((0x52 :: number ++ separator :: tail).drop 1).take 16 = number := List.take_left' sixteen
  have pinned := pinTaken w (0x52 :: number ++ [0]) tail ⟨0x01,some (strtoul 64 16 (number.takeWhile (· != 0))),none⟩
  rw [place,List.append_assoc,List.singleton_append] at pinned
  rw [cardPin,valueBind,cardFound number separator tail sixteen,behind,cardNumber,digits,← pinned,Option.bind_some]
  dsimp only
  rw [valueBind]
  cases (pinOf w (0x52 :: number ++ 0 :: tail) 18 _).value <;> rfl

theorem plainTaken (w : Nat) (some' : buf ≠ []) (status : buf.head? ≠ some 0x52) :
    (cardPin w buf).value = taken w (buf.drop 1) ⟨0,none,none⟩ := by
  obtain ⟨b,more,rfl⟩ := List.exists_cons_of_ne_nil some'
  have other : b ≠ 0x52 := fun same => status (congrArg some same)
  have pinned := pinTaken w [b] more ⟨0,none,none⟩
  rw [List.singleton_append,List.length_singleton] at pinned
  rw [cardPin,valueBind,cardAbsent other,List.drop_one,List.tail_cons,← pinned,Option.bind_some]
  dsimp only
  rw [valueBind]
  cases (pinOf w (b :: more) 1 _).value <;> rfl

theorem bitsFlags : ∀ card pin : Bool, flag 0x01 (bits card pin) = card ∧ flag 0x02 (bits card pin) = pin ∧
    bits card pin ||| 0x02 = bits card true := by decide

theorem pinMarked (keys : Bytes) (marked : Marked found) : Marked (withPin w keys found) := by
  unfold Marked at marked
  rw [Marked,withPin,marked]
  exact (bitsFlags _ _).2.2

/- Both are taken where keys are taken behind a card. -/
theorem takenMarked {tail : Bytes} {found' : CardPin} (given : taken w tail found = some found') (marked : Marked found) :
    Marked found' ∧ found'.card = found.card ∧
      (found.pin = none → (found'.pin.isSome ↔ tail.head? ≠ some 0x3a ∧ Colon tail)) := by
  unfold taken at given
  split at given
  · rename_i empty
    cases given
    refine ⟨marked,rfl,fun none => ?_⟩
    rw [none]
    exact iff_of_false (by decide) (fun taken => taken.1 empty)
  · rename_i keyed
    split at given
    · rename_i colon
      cases given
      exact ⟨pinMarked _ marked,rfl,fun _ => iff_of_true rfl ⟨keyed,colon⟩⟩
    · cases given

theorem headKept (long : 4 < len) : (out.set len.toNat 0).head? = out.head? := by
  rw [List.head?_eq_getElem?,List.getElem?_set_ne (by omega),List.head?_eq_getElem?]

/- What comes back of a response: nothing of less than five bytes. -/
theorem parsedTaken (w : Nat) (size : out.length = bufSize) (value : (parsed w len out).value = some found) :
    Marked found ∧ (found.card.isSome ∧ found.pin.isSome ↔ CardKeys len out) ∧
      (4 < len → out.head? = some 0x52 → found.card = some (cardNumber (out.set len.toNat 0))) := by
  unfold parsed at value
  rw [valueBind] at value
  obtain ⟨buf,stored,value⟩ := Option.bind_eq_some_iff.mp value
  have inside : 0 ≤ len ∧ len < out.length := by
    by_contra outside
    rw [storeByte,valueUse,if_neg outside] at stored
    cases stored
  rw [storeByte,valueUse,if_pos inside] at stored
  cases stored
  unfold CardKeys
  by_cases long : 4 < len
  · have size' : (out.set len.toNat 0).length = bufSize := by rw [List.length_set,size]
    have room : len < bufSize := by omega
    rw [if_pos long] at value
    rw [← headKept long]
    generalize out.set len.toNat 0 = buf at value size'
    by_cases status : buf.head? = some 0x52
    · have given := cardTaken w (show 18 ≤ buf.length by rw [size']; decide) status
      obtain ⟨marked,same,keyed⟩ := takenMarked (given.symm.trans value) (show (0x01 : Byte) = bits true false by decide)
      refine ⟨marked,?_,fun _ _ => same⟩
      rw [same,keyed rfl]
      simp [long,room,status]
    · have given := plainTaken w (List.ne_nil_of_length_pos (show 0 < buf.length by rw [size']; decide)) status
      obtain ⟨marked,same,_⟩ := takenMarked (given.symm.trans value) (show Marked ⟨0,none,none⟩ from rfl)
      refine ⟨marked,?_,fun _ letter => absurd letter status⟩
      rw [same]
      exact iff_of_false (by simp) (fun both => status both.2.2.1)
  · rw [if_neg long] at value
    cases value
    exact ⟨rfl,iff_of_false (by simp) (fun both => long both.1),fun more _ => absurd more long⟩

theorem parsedKeys (w : Nat) (size : out.length = bufSize) (both : CardKeys len out) : ∃ found, (parsed w len out).value = some found := by
  obtain ⟨long,room,status,keyed,colon⟩ := both
  have inside : 0 ≤ len ∧ len < out.length := by omega
  have stored : (storeByte out len 0).value = some (out.set len.toNat 0) := if_pos inside
  have status' : (out.set len.toNat 0).head? = some 0x52 := (headKept long).trans status
  have given := cardTaken w (show 18 ≤ (out.set len.toNat 0).length by rw [List.length_set,size]; decide) status'
  rw [taken,if_neg keyed,if_pos colon] at given
  rw [parsed,valueBind,stored,Option.bind_some,if_pos long]
  exact ⟨_,given⟩

/- A poll that comes back: its exchange, and the parsing behind it. -/
theorem pollParsed {written : Int} {addr : Byte} {line rest : List Arrival} (size : buf.length = bufSize)
    (value : (readCardPin w fuel written addr buf line).value = some (found,rest)) :
    ∃ len out, (exchange fuel written addr buf line).value = some (len,some out,rest) ∧ out.length = bufSize ∧
      (parsed w len out).value = some found := by
  rw [readParsed,valueBind] at value
  obtain ⟨⟨len,after,rest'⟩,exchanged,value⟩ := Option.bind_eq_some_iff.mp value
  obtain ⟨out,rfl,size'⟩ := exchangeKept size exchanged
  rw [valueBind] at value
  obtain ⟨found',parsed,value⟩ := Option.bind_eq_some_iff.mp value
  cases value
  exact ⟨len,out,exchanged,size',parsed⟩

theorem pollRead {written : Int} {addr : Byte} {line rest : List Arrival}
    (exchanged : (exchange fuel written addr buf line).value = some (len,some out,rest)) (parsed : (parsed w len out).value = some found) :
    (readCardPin w fuel written addr buf line).value = some (found,rest) := by
  rw [readParsed,valueBind,exchanged,Option.bind_some]
  dsimp only
  rw [Option.getD_some,valueBind,parsed]
  rfl

theorem credentialsMarked (marked : Marked found) :
    credentials found = (found.card.map Credential.card).toList ++ (found.pin.map Credential.pin).toList := by
  unfold Marked at marked
  rw [credentials,marked,(bitsFlags _ _).1,(bitsFlags _ _).2.1]
  cases found.card <;> cases found.pin <;> rfl

variable {written : Int} {reader : ReaderRoger.Reader} {poll : Poll}

/- The driver hands over the first of what is reported. -/
theorem firstDelivered (w fuel : Nat) (written : Int) (reader : ReaderRoger.Reader) (database : Database) (poll : Poll) :
    delivered w fuel written reader database poll = ((reported w fuel written reader poll).map (callback database)).take 1 := by
  unfold delivered reported ReaderRoger.getReaderData
  rw [valueBind]
  cases given : (readCardPin w fuel written reader.address poll.locals.dataBuf poll.line).value with
  | none => rfl
  | some found =>
    obtain ⟨found,rest⟩ := found
    obtain ⟨len,out,_,size,parsed⟩ := pollParsed poll.locals.size given
    have marked := (parsedTaken w size parsed).1
    rw [Option.bind_some]
    dsimp only
    rw [credentialsMarked marked]
    unfold Marked at marked
    rw [marked,(bitsFlags _ _).1,(bitsFlags _ _).2.1]
    cases found.card <;> cases found.pin <;> rfl

/- One credential at most, but for a response that carries both. -/
theorem oneReported (w fuel : Nat) (written : Int) (reader : ReaderRoger.Reader) (poll : Poll) :
    (reported w fuel written reader poll).length ≤ 1 ↔ ¬ (∃ found rest, (readCardPin w fuel written reader.address poll.locals.dataBuf
      poll.line).value = some (found,rest) ∧ found.card.isSome ∧ found.pin.isSome) := by
  unfold reported
  cases given : (readCardPin w fuel written reader.address poll.locals.dataBuf poll.line).value with
  | none => exact iff_of_true (by decide) (fun both => by obtain ⟨_,_,none,_⟩ := both; cases none)
  | some found =>
    obtain ⟨found,rest⟩ := found
    obtain ⟨len,out,_,size,parsed⟩ := pollParsed poll.locals.size given
    dsimp only
    rw [credentialsMarked (parsedTaken w size parsed).1]
    simp only [Option.some.injEq,Prod.mk.injEq]
    cases card : found.card <;> cases pin : found.pin <;> simp [card,pin]

theorem bothReported (w fuel : Nat) (written : Int) (reader : ReaderRoger.Reader) (poll : Poll) :
    (∃ found rest, (readCardPin w fuel written reader.address poll.locals.dataBuf poll.line).value = some (found,rest) ∧
      found.card.isSome ∧ found.pin.isSome) ↔ CarriesBoth fuel written reader poll := by
  constructor
  · rintro ⟨found,rest,given,both⟩
    obtain ⟨len,out,exchanged,size,parsed⟩ := pollParsed poll.locals.size given
    exact ⟨len,out,_,exchanged,(parsedTaken w size parsed).2.1.mp both⟩
  · rintro ⟨len,out,rest,exchanged,both⟩
    obtain ⟨_,same,size⟩ := exchangeKept poll.locals.size exchanged
    cases same
    obtain ⟨found,parsed⟩ := parsedKeys w size both
    exact ⟨found,rest,pollRead exchanged parsed,(parsedTaken w size parsed).2.1.mpr both⟩

/- Over a list, keeping the first of each loses nothing just where there is no second. -/
theorem firstShorter {α β : Type} (f : α → List β) (xs : List α) :
    (xs.flatMap fun x => (f x).take 1).length ≤ (xs.flatMap f).length := by
  induction xs with
  | nil => exact le_refl _
  | cons x xs ih =>
    simp only [List.flatMap_cons,List.length_append,List.length_take]
    omega

theorem firstWhole {α β : Type} (f : α → List β) (xs : List α) :
    (xs.flatMap fun x => (f x).take 1) = xs.flatMap f ↔ ∀ x ∈ xs, (f x).length ≤ 1 := by
  induction xs with
  | nil => exact iff_of_true rfl fun _ none => absurd none List.not_mem_nil
  | cons x xs ih =>
    rw [List.flatMap_cons,List.flatMap_cons,List.forall_mem_cons,← ih]
    constructor
    · intro same
      have lengths := congrArg List.length same
      have shorter := firstShorter f xs
      rw [List.length_append,List.length_append,List.length_take] at lengths
      have one : (f x).length ≤ 1 := by omega
      rw [List.take_of_length_le one] at same
      exact ⟨one,List.append_cancel_left same⟩
    · rintro ⟨one,same⟩
      rw [List.take_of_length_le one,same]

/- Over a run of polls what is handed over is what was reported, in order, just where no response
carries both a card and a pin. -/
theorem pollsHanded (w fuel : Nat) (written : Int) (reader : ReaderRoger.Reader) (database : Database) (polls : List Poll) :
    polls.flatMap (delivered w fuel written reader database) = (polls.flatMap (reported w fuel written reader)).map (callback database) ↔
      ∀ poll ∈ polls, ¬ CarriesBoth fuel written reader poll := by
  have handed : polls.flatMap (delivered w fuel written reader database) =
      polls.flatMap fun poll => ((reported w fuel written reader poll).map (callback database)).take 1 :=
    List.flatMap_congr fun poll _ => firstDelivered w fuel written reader database poll
  rw [handed,List.map_flatMap,firstWhole]
  refine forall₂_congr fun poll _ => ?_
  rw [List.length_map,oneReported,bothReported]

end

/- A card and two keys between two polls: the keys are lost. -/
def cardKeys : Bytes := 0x52 :: List.replicate 16 0x37 ++ [0x0d,0x31,0x32,0x3a]
def bothPoll : Poll := ⟨[.bytes (response header cardKeys)],rogerLocals⟩

theorem pinLost : reported 32 30 12 roger bothPoll = [.card 0x7777777777777777,.pin 12] ∧
    [bothPoll].flatMap (delivered 32 30 12 roger noDatabase) ≠ ([bothPoll].flatMap (reported 32 30 12 roger)).map (callback noDatabase) := by
  have both : reported 32 30 12 roger bothPoll = [.card 0x7777777777777777,.pin 12] := by decide +kernel
  refine ⟨both,fun same => ?_⟩
  have lengths := congrArg List.length same
  simp [firstDelivered,both] at lengths

end AccessControl.RogerPolls
