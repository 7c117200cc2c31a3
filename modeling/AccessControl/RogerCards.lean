import AccessControl.DoorNames
import AccessControl.RogerPolls

/-! The cards of a Roger reader: sixteen hexadecimal digits, of whose number the driver hands
over four or seven bytes, and the text of these that the users are looked up by. -/
namespace AccessControl.RogerCards
open BitMask DoorTable DoorController UserDb DoorNames Numeral Traced Epso EpsoRoundTrip ReaderRoger PinAgreement RogerBounds RogerPolls

structure CardId where
  digits : Bytes
  each : ∀ b ∈ digits, HexDigit b
  sixteen : digits.length = 16

/- The number of the fourteen digits behind the first two. -/
def CardId.last (id : CardId) : Nat := number 16 (id.digits.drop 2)

/- A response with the card, for which the driver hands over `data`. -/
structure Delivers (w fuel : Nat) (written : Int) (reader : ReaderRoger.Reader) (database : Database) (poll : Poll) (id : CardId)
    (data : Bytes) : Prop where
  response : ∃ more rest line, (exchange fuel written reader.address poll.locals.dataBuf poll.line).value =
    some (((0x52 :: id.digits ++ more : Bytes).length : Int),some (0x52 :: id.digits ++ more ++ rest),line)
  call : delivered w fuel written reader database poll = [⟨data,.dataIsCard,.dataOk,database⟩]

def dataLen (number : BitVec 64) : Nat := if number &&& 0x00ffffff00000000 != 0 then 7 else 4
def cut (number : BitVec 64) : Bytes := memory number (dataLen number)

section
variable {w fuel n : Nat} {written : Int} {reader : ReaderRoger.Reader} {database : Database} {poll : Poll} {id : CardId} {data : Bytes}
  {x y : BitVec 64}

theorem memoryLength (x : BitVec 64) (n : Nat) : (memory x n).length = n := by
  rw [memory,List.length_map,List.length_range]

/- The bytes that are kept are the bits that are kept. -/
theorem memorySame : memory x n = memory y n ↔ ∀ i, i < 8 * n → x.getLsbD i = y.getLsbD i := by
  constructor
  · intro same i small
    have bytes := List.map_inj_left.mp same (i / 8) (List.mem_range.mpr (by omega))
    have bit := congrArg (fun b : Byte => b.getLsbD (i % 8)) bytes
    have place : 8 * (i / 8) + i % 8 = i := Nat.div_add_mod i 8
    have inside : i % 8 < 8 := Nat.mod_lt i (by decide)
    simpa [BitVec.getLsbD_setWidth,BitVec.getLsbD_ushiftRight,inside,place] using bit
  · intro same
    refine List.map_congr_left fun k mem => BitVec.eq_of_getLsbD_eq fun j small => ?_
    have room := List.mem_range.mp mem
    simp only [BitVec.getLsbD_setWidth,BitVec.getLsbD_ushiftRight,same (8 * k + j) (by omega)]

theorem maskBit : ∀ i : Fin 64, (0x00ffffff00000000 : BitVec 64).getLsbD i = decide (32 ≤ i.val ∧ i.val < 56) := by decide

/- The mask looks at three bytes above the lower four. -/
theorem maskedZero : x &&& 0x00ffffff00000000 = 0 ↔ ∀ i, 32 ≤ i → i < 56 → x.getLsbD i = false := by
  rw [maskZero]
  constructor
  · intro zero i low high
    have bit := zero i
    have mask := maskBit ⟨i,by omega⟩
    rw [BitVec.getLsbD_and,mask] at bit
    simpa [low,high] using bit
  · intro zero i
    rw [BitVec.getLsbD_and]
    by_cases range : 32 ≤ i ∧ i < 56
    · rw [zero i range.1 range.2,Bool.false_and]
    · by_cases inside : i < 64
      · have mask := maskBit ⟨i,inside⟩
        rw [mask]
        simp [range]
      · rw [BitVec.getLsbD_of_ge x i (by omega),Bool.false_and]

/- The length is seven just where one of these three bytes is set. -/
theorem dataLenCases (x : BitVec 64) : dataLen x = 4 ∧ (∀ i, 32 ≤ i → i < 56 → x.getLsbD i = false) ∨
    dataLen x = 7 ∧ ¬ ∀ i, 32 ≤ i → i < 56 → x.getLsbD i = false := by
  rw [← maskedZero]
  by_cases zero : x &&& 0x00ffffff00000000 = 0
  · exact .inl ⟨by rw [dataLen,zero]; rfl,zero⟩
  · exact .inr ⟨if_pos (bne_iff_ne.mpr zero),zero⟩

theorem cutSame : cut x = cut y ↔ ∀ i, i < 56 → x.getLsbD i = y.getLsbD i := by
  unfold cut
  constructor
  · intro same
    have lengths := congrArg List.length same
    rw [memoryLength,memoryLength] at lengths
    rw [← lengths,memorySame] at same
    obtain ⟨four,zero⟩ | ⟨seven,_⟩ := dataLenCases x
    · obtain ⟨_,zero'⟩ | ⟨seven',_⟩ := dataLenCases y
      · intro i small
        by_cases low : i < 32
        · exact same i (by omega)
        · rw [zero i (by omega) small,zero' i (by omega) small]
      · omega
    · exact fun i small => same i (by omega)
  · intro same
    have high : ∀ i, 32 ≤ i → i < 56 → x.getLsbD i = y.getLsbD i := fun i _ small => same i small
    have lengths : dataLen x = dataLen y := by
      obtain ⟨four,zero⟩ | ⟨seven,other⟩ := dataLenCases x
      · obtain ⟨four',_⟩ | ⟨_,other⟩ := dataLenCases y
        · rw [four,four']
        · exact absurd (fun i low small => (high i low small).symm.trans (zero i low small)) other
      · obtain ⟨_,zero⟩ | ⟨seven',_⟩ := dataLenCases y
        · exact absurd (fun i low small => (high i low small).trans (zero i low small)) other
        · rw [seven,seven']
    have most : dataLen x ≤ 7 := by
      unfold dataLen
      split <;> decide
    rw [← lengths,memorySame]
    exact fun i small => same i (by omega)

/- As numbers: the seven low bytes decide. -/
theorem cutNumbers : cut x = cut y ↔ x.toNat % 2 ^ 56 = y.toNat % 2 ^ 56 := by
  rw [cutSame]
  constructor
  · intro same
    refine Nat.eq_of_testBit_eq fun i => ?_
    rw [Nat.testBit_mod_two_pow,Nat.testBit_mod_two_pow]
    by_cases small : i < 56
    · have bit := same i small
      rw [BitVec.getLsbD,BitVec.getLsbD] at bit
      rw [bit]
    · simp [small]
  · intro same i small
    have bit := congrArg (fun v : Nat => v.testBit i) same
    rw [Nat.testBit_mod_two_pow,Nat.testBit_mod_two_pow,decide_eq_true small,Bool.true_and,Bool.true_and] at bit
    exact bit

/- The first two digits are the byte that is not handed over. -/
theorem idNumber (id : CardId) : (BitVec.ofNat 64 (number 16 id.digits)).toNat % 2 ^ 56 = id.last := by
  have split := numberAppend 16 (id.digits.take 2) (id.digits.drop 2)
  have behind : (id.digits.drop 2).length = 14 := by rw [List.length_drop,id.sixteen]
  have below := numberBelow (show 0 < 16 by decide) (id.digits.drop 2)
  have power : 16 ^ 14 = 2 ^ 56 := by decide
  have wide : (2 : Nat) ^ 64 = 2 ^ 56 * 256 := by decide
  rw [List.take_append_drop,behind,power] at split
  rw [behind,power] at below
  rw [BitVec.toNat_ofNat,wide,Nat.mod_mul_right_mod,split,Nat.mul_add_mod,Nat.mod_eq_of_lt below]
  rfl

/- Behind the NUL of the response the sixteen digits are read whole. -/
theorem cardNumberId (id : CardId) (more rest : Bytes) :
    cardNumber ((0x52 :: id.digits ++ more ++ rest).set (0x52 :: id.digits ++ more).length 0) = BitVec.ofNat 64 (number 16 id.digits) := by
  have digits : (((0x52 :: id.digits ++ more ++ rest).set (0x52 :: id.digits ++ more).length 0).drop 1).take 16 = id.digits := by
    rw [List.set_append_right _ _ (le_refl _),List.append_assoc]
    exact List.take_left' id.sixteen
  have nonzero : ∀ b ∈ id.digits, (b != 0) = true := by
    intro b mem
    refine bne_iff_ne.mpr ?_
    rintro rfl
    exact absurd (id.each 0 mem) (by decide)
  rw [cardNumber,digits,List.takeWhile_eq_self_iff.mpr nonzero,strtoulHex id.each (by rw [id.sixteen])]

theorem cardLong (id : CardId) (more : Bytes) : (4 : Int) < ((0x52 :: id.digits ++ more : Bytes).length : Int) := by
  rw [List.length_append,List.length_cons,id.sixteen]
  omega

/- The digits of the response are the number that the driver cuts. -/
theorem deliveredCut (delivers : Delivers w fuel written reader database poll id data) :
    data = cut (BitVec.ofNat 64 (number 16 id.digits)) := by
  obtain ⟨more,rest,line,response⟩ := delivers.response
  have call := delivers.call
  rw [firstDelivered,reported] at call
  cases given : (readCardPin w fuel written reader.address poll.locals.dataBuf poll.line).value with
  | none =>
    rw [given] at call
    cases call
  | some found =>
    obtain ⟨found,line'⟩ := found
    obtain ⟨len,out,exchanged,size,parsed⟩ := pollParsed poll.locals.size given
    cases Option.some.inj (response.symm.trans exchanged)
    obtain ⟨marked,_,carded⟩ := parsedTaken w size parsed
    have card := carded (cardLong id more) rfl
    rw [Int.toNat_natCast,cardNumberId] at card
    rw [given] at call
    dsimp only at call
    rw [credentialsMarked marked,card] at call
    exact (congrArg Callback.data (List.cons.inj call).1).symm

/- Without keys behind the separator only the card is taken. -/
theorem cardParsed (w : Nat) (id : CardId) (separator : Byte) {rest : Bytes}
    (size : (0x52 :: id.digits ++ [separator,0x3a] ++ rest).length = Epso.bufSize) :
    (parsed w (0x52 :: id.digits ++ [separator,0x3a] : Bytes).length (0x52 :: id.digits ++ [separator,0x3a] ++ rest)).value =
      some ⟨0x01,some (BitVec.ofNat 64 (number 16 id.digits)),none⟩ := by
  have length : (0x52 :: id.digits ++ [separator,0x3a] : Bytes).length = 19 := by
    rw [List.length_append,List.length_cons,id.sixteen]
    rfl
  have behind : ((0x52 :: id.digits ++ [separator,0x3a] ++ rest).set (0x52 :: id.digits ++ [separator,0x3a]).length 0).drop 18 =
      0x3a :: rest.set 0 0 := by
    have split : 0x52 :: id.digits ++ [separator,0x3a] = (0x52 :: id.digits ++ [separator]) ++ [0x3a] := by simp
    rw [List.set_append_right _ _ (le_refl _),Nat.sub_self,split,List.append_assoc]
    exact List.drop_left' (by rw [List.length_append,List.length_cons,id.sixteen]; rfl)
  have status : ((0x52 :: id.digits ++ [separator,0x3a] ++ rest).set (0x52 :: id.digits ++ [separator,0x3a]).length 0).head? = some 0x52 := by
    rw [List.set_append_right _ _ (le_refl _)]
    rfl
  have card := cardNumberId id [separator,0x3a] rest
  have long := cardLong id [separator,0x3a]
  have inside : (0 : Int) ≤ (0x52 :: id.digits ++ [separator,0x3a] : Bytes).length ∧
      ((0x52 :: id.digits ++ [separator,0x3a] : Bytes).length : Int) < (0x52 :: id.digits ++ [separator,0x3a] ++ rest).length := by
    rw [size,length]
    decide
  rw [parsed,storeByte,valueBind,valueUse,if_pos inside,Option.bind_some,if_pos long,Int.toNat_natCast,
    cardTaken w (by rw [List.length_set,size]; decide) status,behind,card]
  rfl

/- A response with the card alone is handed over. -/
theorem cardDelivers (w : Nat) (database : Database) {separator : Byte} {rest : Bytes} {line : List Arrival}
    (response : (exchange fuel written reader.address poll.locals.dataBuf poll.line).value =
      some (((0x52 :: id.digits ++ [separator,0x3a] : Bytes).length : Int),some (0x52 :: id.digits ++ [separator,0x3a] ++ rest),line)) :
    Delivers w fuel written reader database poll id (cut (BitVec.ofNat 64 (number 16 id.digits))) := by
  refine ⟨⟨_,_,_,response⟩,?_⟩
  obtain ⟨out,same,size⟩ := exchangeKept poll.locals.size response
  cases same
  have marked : Marked ⟨0x01,some (BitVec.ofNat 64 (number 16 id.digits)),none⟩ := show (0x01 : Byte) = bits true false by decide
  rw [firstDelivered,reported,pollRead response (cardParsed w id separator size)]
  dsimp only
  rw [credentialsMarked marked]
  rfl

/- The users are looked up by the text of what was handed over. -/
theorem cutText (x : BitVec 64) : (cardStr modeCard (cut x)).value = some (some (cardHex (cut x))) := by
  have length : (cut x).length = dataLen x := memoryLength x _
  have lengths : 4 ≤ dataLen x ∧ dataLen x ≤ 7 := by
    unfold dataLen
    split <;> decide
  refine hexValue (List.ne_nil_of_length_pos (by omega)) ?_
  rw [length]
  exact lengths.2.trans (by decide)

/- Two cards are handed over as the same bytes, and looked up by the same text, just where their
last fourteen digits are the same number. -/
theorem cardsDistinct {fuel' : Nat} {written' : Int} {reader' : ReaderRoger.Reader} {database' : Database} {poll' : Poll} {id' : CardId}
    {data' : Bytes} (delivers : Delivers w fuel written reader database poll id data)
    (delivers' : Delivers w fuel' written' reader' database' poll' id' data') :
    (data ≠ data' ↔ id.last ≠ id'.last) ∧
      ((cardStr modeCard data).value ≠ (cardStr modeCard data').value ↔ id.last ≠ id'.last) := by
  have bytes : data = data' ↔ id.last = id'.last := by
    rw [deliveredCut delivers,deliveredCut delivers',cutNumbers,idNumber,idNumber]
  refine ⟨not_congr bytes,not_congr (Iff.trans ?_ bytes)⟩
  rw [deliveredCut delivers,deliveredCut delivers',cutText,cutText,Option.some.injEq,Option.some.injEq]
  exact ⟨hexInjective,congrArg cardHex⟩

end

def firstCard : CardId := ⟨0x30 :: 0x31 :: List.replicate 14 0x37,by decide,rfl⟩
def secondCard : CardId := ⟨0x30 :: 0x32 :: List.replicate 14 0x37,by decide,rfl⟩
def shortCard : CardId := ⟨List.replicate 8 0x30 ++ List.replicate 8 0x37,by decide,rfl⟩

def cardPoll (id : CardId) : Poll := ⟨[.bytes (response header (0x52 :: id.digits ++ [0x0d,0x3a]))],rogerLocals⟩

/- What is left of the response behind the card in the buffer. -/
def cardRest (id : CardId) : Bytes :=
  (response header (0x52 :: id.digits ++ [0x0d,0x3a])).drop 19 ++ List.replicate (Epso.bufSize - 28) 0

def Answered (id : CardId) : Prop := (exchange 30 12 0x00 rogerLocals.dataBuf (cardPoll id).line).value =
  some (((0x52 :: id.digits ++ [0x0d,0x3a] : Bytes).length : Int),some (0x52 :: id.digits ++ [0x0d,0x3a] ++ cardRest id),[])
instance (id) : Decidable (Answered id) := by unfold Answered; infer_instance

theorem answeredDelivers {id : CardId} (answered : Answered id) :
    Delivers 32 30 12 roger noDatabase (cardPoll id) id (cut (BitVec.ofNat 64 (number 16 id.digits))) :=
  cardDelivers 32 noDatabase answered

theorem firstAnswered : Answered firstCard := by decide +kernel

/- Two cards that differ in their first byte are the same to the controller and to the users. -/
theorem firstByteLost : Delivers 32 30 12 roger noDatabase (cardPoll firstCard) firstCard (List.replicate 7 0x77) ∧
    Delivers 32 30 12 roger noDatabase (cardPoll secondCard) secondCard (List.replicate 7 0x77) ∧ firstCard.digits ≠ secondCard.digits := by
  have second : Answered secondCard := by decide +kernel
  have seven : cut (BitVec.ofNat 64 (number 16 firstCard.digits)) = List.replicate 7 0x77 ∧
      cut (BitVec.ofNat 64 (number 16 secondCard.digits)) = List.replicate 7 0x77 := by decide +kernel
  exact ⟨seven.1 ▸ answeredDelivers firstAnswered,seven.2 ▸ answeredDelivers second,by decide⟩

theorem cardsDistinctShort : firstCard.last ≠ shortCard.last ∧
    (cut (BitVec.ofNat 64 (number 16 firstCard.digits)) ≠ cut (BitVec.ofNat 64 (number 16 shortCard.digits)) ↔ firstCard.last ≠ shortCard.last) ∧
    ((cardStr modeCard (cut (BitVec.ofNat 64 (number 16 firstCard.digits)))).value ≠
      (cardStr modeCard (cut (BitVec.ofNat 64 (number 16 shortCard.digits)))).value ↔ firstCard.last ≠ shortCard.last) :=
  have short : Answered shortCard := by decide +kernel
  ⟨by decide +kernel,cardsDistinct (answeredDelivers firstAnswered) (answeredDelivers short)⟩

end AccessControl.RogerCards
