import AccessControl.DoorNames
import AccessControl.SqlTokens

/-! The access with two cards. Its statement has the keyword AND twice in a row, so it does
not prepare and yields no row, whatever the tables hold. -/
namespace AccessControl.KeyAccess
open BitMask DoorTable DoorController Numeral Traced UserDb UserRows DoorNames SqlTokens

/- A row of the table 'keys'. -/
structure Key where
  cardid : Option Bytes
  doorid : Option Int
  deriving DecidableEq, Repr

/- What the tables say: the user of the first card, in time, has a door of the second. -/
def Granted (t : Tables) (keys : List Key) (time : Int) (card1 card2 : Bytes) : Prop :=
  ∃ u ud d key e, Joined t u ud d ∧ key ∈ keys ∧ u.card = some (cardHex card1) ∧ u.expireDate = some e ∧ time ≤ e ∧
    key.cardid = some (cardHex card2) ∧ key.doorid = some d.doorid

/- A text that is no statement does not prepare, and stepping it yields no row. -/
def Prepares (valid : Text → Prop) (db : Connection) : Prop := ∀ text, ¬ valid text → db.keyRows text = []

theorem hexPlainText (bytes : Bytes) : ∀ c ∈ cardHex bytes, isPlain c = true := by
  have pair : ∀ b : Byte, (hex2 b).all isPlain = true := by decide +kernel
  intro c mem
  obtain ⟨b,_,inside⟩ := List.mem_flatMap.mp mem
  exact List.all_eq_true.mp (pair b) c inside

/- The two words stand in the fixed part, before either card. -/
theorem keySelectInvalid {valid : Text → Prop} (conjoins : Conjoins valid) (card1 card2 : Bytes) :
    ¬ valid (keySelect (cardHex card1) (cardHex card2)) := by
  have head : keyHead.all isPlain = true := by decide +kernel
  have middle : keyAnd.all isPlain = true := by decide +kernel
  have close : (0x27 :: ascii [')',';']).all isPlain = true := by decide +kernel
  have open' : (scan .between keyHead).1.all (fun token => !isEnd token) = true := by decide +kernel
  have shape : keySelect (cardHex card1) (cardHex card2) =
      keyHead ++ (cardHex card1 ++ (keyAnd ++ (cardHex card2 ++ (0x27 :: ascii [')',';'])))) := by
    simp only [keySelect,List.append_assoc]
  rw [shape]
  refine doubledInvalid conjoins ?_ ?_ (by decide +kernel)
  · intro c mem
    simp only [List.mem_append] at mem
    rcases mem with mem | mem | mem | mem | mem
    · exact List.all_eq_true.mp head c mem
    · exact hexPlainText card1 c mem
    · exact List.all_eq_true.mp middle c mem
    · exact hexPlainText card2 c mem
    · exact List.all_eq_true.mp close c mem
  · intro token mem
    simpa using List.all_eq_true.mp open' token mem

section
variable {db : Connection} {card1 card2 : Bytes}

/- Without rows the answer is a denial. -/
theorem keyDenied (time : Int) (some1 : card1 ≠ []) (some2 : card2 ≠ []) (room1 : card1.length ≤ maxCardLen) (room2 : card2.length ≤ maxCardLen)
    (none : db.keyRows (keySelect (cardHex card1) (cardHex card2)) = []) :
    ∃ answer, (checkKeyAccess2 db time card1 card2).value = some answer ∧ answer.mask = 0 := by
  have short : ¬ (maxCardLen < card1.length ∨ maxCardLen < card2.length) := by omega
  unfold checkKeyAccess2
  rw [if_neg short,valueBind,hexValue some1 room1,Option.bind_some,valueBind,hexValue some2 room2,Option.bind_some]
  simp only [string,append,valueBind,valueUse,valueNote,valuePure,Option.bind_some,List.nil_append]
  split
  · exact ⟨_,rfl,rfl⟩
  · rw [valueBind,valueNote,Option.bind_some,none]
    exact ⟨_,rfl,rfl⟩

end

/- The mask says what the tables say just where they grant nothing. -/
theorem keyAccessGrants {valid : Text → Prop} (conjoins : Conjoins valid) (t : Tables) (keys : List Key) {db : Connection}
    (prepares : Prepares valid db) (time : Int) {card1 card2 : Bytes} (some1 : card1 ≠ []) (some2 : card2 ≠ [])
    (room1 : card1.length ≤ maxCardLen) (room2 : card2.length ≤ maxCardLen) :
    (∃ answer, (checkKeyAccess2 db time card1 card2).value = some answer ∧ (answer.mask ≠ 0 ↔ Granted t keys time card1 card2)) ↔
      ¬ Granted t keys time card1 card2 := by
  obtain ⟨denied,given,zero⟩ := keyDenied time some1 some2 room1 room2 (prepares _ (keySelectInvalid conjoins card1 card2))
  constructor
  · rintro ⟨answer,given',agrees⟩ granted
    cases Option.some.inj (given.symm.trans given')
    exact agrees.mpr granted zero
  · intro refused
    exact ⟨denied,given,iff_of_false (not_not.mpr zero) refused⟩

/- A grammar that refuses nothing else. -/
def onceOnly (text : Text) : Prop := doubled (isKeyword wAnd) (compiled text) = false
instance : DecidablePred onceOnly := fun text => inferInstanceAs (Decidable (doubled (isKeyword wAnd) (compiled text) = false))

theorem onceConjoins : Conjoins onceOnly := ⟨fun _ _ valid => valid⟩

/- An engine with a row for each of its statements. -/
def keyed : Connection where
  rows _ := []
  keyRows text := if doubled (isKeyword wAnd) (compiled text) then [] else [⟨none,some 9,some (ascii ['A'])⟩]
  freed := id

theorem keyedPrepares : Prepares onceOnly keyed := by
  intro text invalid
  unfold onceOnly at invalid
  rw [Bool.not_eq_false] at invalid
  exact if_pos invalid

/- A user with the card 00 whose door has the card 01. -/
def holder : User := ⟨1,some (cardHex [0]),none,none,some 9⟩
def holderDoor : DoorRow := ⟨1,some (ascii ['A'])⟩
def holderTables : Tables := single holder (oneLink 1) holderDoor
def holderKey : Key := ⟨some (cardHex [1]),some 1⟩

theorem keyRefused : Conjoins onceOnly ∧ Prepares onceOnly keyed ∧ Granted holderTables [holderKey] 5 [0] [1] ∧
    ((checkKeyAccess2 keyed 5 [0] [1]).value).map Answer.mask = some 0 := by
  refine ⟨onceConjoins,keyedPrepares,?_,by decide +kernel⟩
  refine ⟨holder,oneLink 1,holderDoor,holderKey,9,⟨?_,?_,?_,rfl,rfl⟩,List.mem_singleton.mpr rfl,rfl,rfl,by decide,rfl,rfl⟩
  · exact List.mem_singleton.mpr rfl
  · exact List.mem_singleton.mpr rfl
  · exact List.mem_singleton.mpr rfl

/- Without a row in 'keys' there is nothing to grant. -/
theorem keylessRefused : ∃ answer, (checkKeyAccess2 keyed 5 [0] [1]).value = some answer ∧
    (answer.mask ≠ 0 ↔ Granted holderTables [] 5 [0] [1]) := by
  refine (keyAccessGrants onceConjoins holderTables [] keyedPrepares 5 (by simp) (by simp) (by decide) (by decide)).mpr ?_
  rintro ⟨u,ud,d,key,e,_,inside,_⟩
  exact absurd inside List.not_mem_nil

end AccessControl.KeyAccess
