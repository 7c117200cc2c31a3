import AccessControl.Authorisation
import AccessControl.DoorNames

/-! Readers of card and pin: which question stands behind an unlock, and which rows of the
tables behind its answer. -/
namespace AccessControl.PinRule
open BitMask DoorTable Gpio DoorController RemoteControl Run LockSteps LockActs ControllerCalls ReaderSession Authorisation
open UserDb UserRows DoorNames

variable {n : Nat} (cfg : Config n) {s t u : State n} {r : ReaderId n}

def pinMode (pin : Bytes) : Byte := if pin = [] then modeCardAndPin else modeCardAndPinAlways

/- With a card and no pin the question is put in the mode of the card, with both in the other. -/
def question (r : ReaderId n) (d : DoorReader) : Query := .getAccessMask2 (d.pin.take d.pinLen) (d.card.take d.cardLen)
  (if d.pinLen = 0 then modeCardAndPin else modeCardAndPinAlways) (cfg r.door).doorName

theorem cardAndPinAsks (database : Database) (mode : modeOf cfg r = modeCardAndPin)
    (granted : (authMask cfg database r s).2 ≠ 0) : (s.doorReader r).cardLen ≠ 0 ∧ ∃ older,
      (authMask cfg database r s).1.log = .access r (question cfg r (s.doorReader r)) (authMask cfg database r s).2 :: older ∧
      (authMask cfg database r s).2 = (database (question cfg r (s.doorReader r))).mask := by
  have branch : authMask cfg database r s =
      if (s.doorReader r).cardLen ≠ 0 ∧ (s.doorReader r).pinLen ≠ 0 then
        (stopTwoFactor r (getAccessMask cfg database r modeCardAndPinAlways s).1,
          (getAccessMask cfg database r modeCardAndPinAlways s).2)
      else if (s.doorReader r).cardLen ≠ 0 then
        if (getAccessMask cfg database r modeCardAndPin s).2 ≠ 0 then
          (stopTwoFactor r (getAccessMask cfg database r modeCardAndPin s).1,(getAccessMask cfg database r modeCardAndPin s).2)
        else (startTwoFactor r (getAccessMask cfg database r modeCardAndPin s).1,(getAccessMask cfg database r modeCardAndPin s).2)
      else (startTwoFactor r s,0) := by
    unfold modeOf at mode
    unfold authMask
    simp only [mode,show ¬ modeCardAndPin = modeCardOrPin by decide,show ¬ modeCardAndPin = modeCard by decide,
      show ¬ modeCardAndPin = modePin by decide,true_or,if_true,if_false,and_true]
  obtain ⟨_,mask,older,log,_⟩ := askSpec database r (question cfg r (s.doorReader r)) s
  rw [branch] at granted ⊢
  split at granted
  · rename_i both
    unfold question at mask log ⊢
    rw [if_neg both.2] at mask log ⊢
    rw [if_pos both]
    exact ⟨both.1,older,log,mask⟩
  · rename_i single
    rw [if_neg single]
    split at granted
    · rename_i card
      have none : (s.doorReader r).pinLen = 0 := by
        by_contra pin
        exact single ⟨card,pin⟩
      unfold question at mask log ⊢
      rw [if_pos none] at mask log ⊢
      rw [if_pos card]
      split at granted
      · rename_i some'
        rw [if_pos some']
        exact ⟨card,older,log,mask⟩
      · rename_i zero
        exact absurd granted zero
    · exact absurd rfl granted

/- The question behind an unlock, put to the database of the callback that completed the session. -/
structure Ruled (r : ReaderId n) (cb : Callback) (mask : Mask) (earlier : List (Effect n)) (pin card : Bytes) : Prop where
  granted : mask ≠ 0
  pins : pins (session r earlier) = given [pin]
  cards : cards (session r earlier) = given [card]
  shown : card ≠ []
  answer : mask = (cb.database (.getAccessMask2 pin card (pinMode pin) (cfg r.door).doorName)).mask

section
variable {cfg}

theorem storedMode {cb old d} (stored : Stored cfg r cb old d) :
    (if d.pinLen = 0 then modeCardAndPin else modeCardAndPinAlways) = pinMode (d.pin.take d.pinLen) := by
  unfold pinMode
  by_cases none : d.pinLen = 0
  · rw [if_pos none,none,List.take_zero,if_pos rfl]
  · rw [if_neg none,if_neg (lengthNonempty stored.pinLen none)]

theorem opensRuled {cb : Callback} {mask : Mask} {earlier : List (Effect n)} (good : Good cfg s) (mode : modeOf cfg r = modeCardAndPin)
    (opens : Opens cfg r cb s mask earlier) : ∃ pin card, Ruled cfg r cb mask earlier pin card := by
  have delivered := opensSession cfg good opens
  obtain ⟨_,granted,query,older,_,asked,_,_,_,uses⟩ := opensLegit cfg good opens
  obtain ⟨here,_,t,stored,rfl,rfl⟩ := opens
  obtain ⟨_,_,held⟩ := storeDelivers cfg good here stored
  obtain ⟨card,older',log,answer⟩ := cardAndPinAsks cfg cb.database mode granted
  unfold question at log answer
  rw [storedMode held] at log answer
  -- Both speak of the question just before the unlock.
  obtain ⟨same,rfl⟩ := List.cons.inj (asked.symm.trans log)
  cases same
  refine ⟨_,_,granted,?_,?_,lengthNonempty held.cardLen card,answer⟩
  · rw [delivered]
    exact held.pin
  · rw [asked]
    exact uses.2.2.1

end

/- The row of the tables that gave bit `k` of an answer. -/
structure Gave (tables : Tables) (md5 : Md5) (time : Int) (pin card doorname : Bytes) (k : Nat) (u : User) (ud : UserDoor)
    (d : DoorRow) : Prop where
  selected : Selected tables (pinMode pin) (cardHex card) doorname u ud d
  accepted : Accepted (pinMode pin) (pinText md5 (pinMode pin) pin) time (rowOf u ud d)
  place : subdoor doorname d.name = some (k : Int) ∧ k < 32

/- What is wanted of an unlock over those tables: without a pin each row behind it permits that, with
one the stored pin is the one that was delivered. -/
def Permission (md5 : Md5) (tables : Tables) (time : Int) (r : ReaderId n) (mask : Mask) (earlier : List (Effect n)) : Prop :=
  ∃ pin card, pins (session r earlier) = given [pin] ∧ cards (session r earlier) = given [card] ∧
    ∀ k, mask.getLsbD k = true → (∃ u ud d, Gave tables md5 time pin card (cfg r.door).doorName k u ud d) ∧
      ∀ u ud d, Gave tables md5 time pin card (cfg r.door).doorName k u ud d →
        (pins (session r earlier) = [] → ud.allowNoPin = some 1) ∧
        (pins (session r earlier) ≠ [] → ∃ pin ∈ pins (session r earlier), u.pin = some (pinHex md5 pin))

/- No unexpired user of that door and card has the empty text for a pin without the permission,
and nothing but 1 is read as 1. -/
def Strict (tables : Tables) (time : Int) (card doorname : Bytes) : Prop :=
  ∀ u ud d, Selected tables modeCardAndPin (cardHex card) doorname u ud d →
    currTime time ≤ columnInt u.expireDate → ud.allowNoPin ≠ some 1 → columnInt ud.allowNoPin ≠ 1 ∧ u.pin ≠ some []

section
variable {cfg} {valid : Bytes → Prop} {md5 : Md5} {tables : Tables} {db : Connection} {time : Int} {pin card doorname : Bytes} {mask : Mask}

theorem userDbMask {mode : Byte} (granted : (userDb md5 db time (.getAccessMask2 pin card mode doorname)).mask ≠ 0) :
    ∃ answer, (getAccessMask2 md5 db time pin card mode doorname).value = some answer ∧
      answer.mask = (userDb md5 db time (.getAccessMask2 pin card mode doorname)).mask := by
  have asked : userDb md5 db time (.getAccessMask2 pin card mode doorname) =
      (getAccessMask2 md5 db time pin card mode doorname).value.getD ⟨0,[]⟩ := rfl
  rw [asked] at granted ⊢
  cases h : (getAccessMask2 md5 db time pin card mode doorname).value with
  | none =>
    rw [h] at granted
    exact absurd rfl granted
  | some answer => exact ⟨answer,rfl,rfl⟩

theorem pinModeCard (pin : Bytes) : cardMode (pinMode pin) = true := by
  unfold pinMode
  split <;> rfl

theorem givenNone (h : given [pin] = []) : pin = [] := by
  by_contra some'
  rw [givenSelf (fun x inside => by rw [List.mem_singleton.mp inside]; exact some')] at h
  exact List.cons_ne_nil _ _ h

theorem givenOne (h : pin ≠ []) : pin ∈ given [pin] := by simp [given,h]

/- A row that counts without a pin has the permission; one that counts with a pin stores it. -/
theorem gaveRule {k : Nat} {u : User} {ud : UserDoor} {d : DoorRow} (strict : given [pin] = [] → Strict tables time card doorname)
    (gave : Gave tables md5 time pin card doorname k u ud d) :
    (given [pin] = [] → ud.allowNoPin = some 1) ∧ (given [pin] ≠ [] → ∃ p ∈ given [pin], u.pin = some (pinHex md5 p)) := by
  obtain ⟨selected,accepted,_⟩ := gave
  constructor
  · intro none
    have rule := strict none
    cases givenNone none
    obtain ⟨stored,pin',met⟩ := accepted.pin.card rfl
    by_contra without
    obtain ⟨reads,empty⟩ := rule u ud d selected accepted.unexpired without
    rcases met with rfl | met
    · exact empty pin'
    · exact reads met
  · intro one
    have pin' : pin ≠ [] := by
      rintro rfl
      exact one givenEmpty
    have mode : pinMode pin = modeCardAndPinAlways := if_neg pin'
    refine ⟨pin,givenOne pin',?_⟩
    have stored := accepted.pin.always mode
    rw [mode] at stored
    exact stored

/- A row without the permission that is accepted all the same gives a bit of the answer. -/
theorem laxGave {u : User} {ud : UserDoor} {d : DoorRow} {answer : Answer} (documented : Documented valid tables db) (plain : 0x27 ∉ doorname)
    (asks : Asked md5 modeCardAndPin [] card doorname (cardHex card))
    (value : (getAccessMask2 md5 db time [] card modeCardAndPin doorname).value = some answer)
    (selected : Selected tables modeCardAndPin (cardHex card) doorname u ud d) (intime : currTime time ≤ columnInt u.expireDate)
    (lax : ¬ (columnInt ud.allowNoPin ≠ 1 ∧ u.pin ≠ some [])) :
    ∃ k, answer.mask.getLsbD k = true ∧ Gave tables md5 time [] card doorname k u ud d := by
  have turn := rowSome.mp ((maskSome time documented plain asks).mp (Option.isSome_iff_exists.mpr ⟨answer,value⟩) u ud d selected) intime
  have met : PinMet modeCardAndPin (pinText md5 modeCardAndPin []) (rowOf u ud d) := by
    refine ⟨fun always => absurd always (by decide),fun _ => ?_⟩
    obtain ⟨stored,pin⟩ := Option.ne_none_iff_exists'.mp (turn.1 rfl)
    refine ⟨stored,pin,?_⟩
    by_contra neither
    obtain ⟨other,reads⟩ := not_or.mp neither
    refine lax ⟨reads,fun empty => other ?_⟩
    exact Option.some.inj (pin.symm.trans empty)
  obtain ⟨sub,place,low,high⟩ := turn.2 met
  rw [← Int.toNat_of_nonneg low] at place
  have accepted : Accepted modeCardAndPin (pinText md5 modeCardAndPin []) time (rowOf u ud d) := ⟨intime,met⟩
  have inside : sub.toNat < 32 := by omega
  exact ⟨sub.toNat,(maskBit documented plain asks value).mpr ⟨u,ud,d,selected,accepted,place,inside⟩,selected,accepted,place,inside⟩

/- Card alone opens by permission only, in every run: exactly where the tables that the callback asks
are strict about the card, under a name that leaves its literal alone. -/
theorem cardAlonePermitted (md5 : Md5) (documented : Documented valid tables db) {rows : List StateRow} {steps : List (Step n)}
    {cb : Callback} {i : Fin n} {earlier : List (Effect n)} (unlocks : Unlocks cfg (start cfg rows) steps r cb i mask earlier)
    (mode : modeOf cfg r = modeCardAndPin) (database : cb.database = userDb md5 db time)
    (kept : Unprepared valid md5 (cfg r.door).doorName ∨ 0x27 ∉ (cfg r.door).doorName) :
    Permission cfg md5 tables time r mask earlier ↔
      (pins (session r earlier) = [] → ∀ card ∈ cards (session r earlier), Strict tables time card (cfg r.door).doorName) := by
  obtain ⟨_,_,before,_,_,opens⟩ := unlocksOpens unlocks
  obtain ⟨pin,card,granted,pins',cards',some',answer⟩ := opensRuled (turnsGood cfg before (startGood cfg rows)) mode opens
  rw [database] at answer
  obtain ⟨out,value,mask'⟩ := userDbMask (answer ▸ granted)
  rw [← answer] at mask'
  subst mask'
  obtain ⟨text,asks⟩ := maskAsked value granted
  rcases kept with silent | plain
  · obtain ⟨none',given',zero⟩ := silentAnswer documented time asks (silent _ _ _ _ asks)
    cases Option.some.inj (given'.symm.trans value)
    exact absurd zero granted
  obtain ⟨room,rfl,_⟩ := (cardAsked (pinModeCard pin) some').mp asks
  have own : given [card] = [card] := givenSelf fun x inside => by rw [List.mem_singleton.mp inside]; exact some'
  rw [own] at cards'
  constructor
  · rintro ⟨pin',card',alone,same,each⟩ none card'' inside u ud d selected intime without
    rw [cards'] at same inside
    cases List.mem_singleton.mp inside
    have shown : card ∈ given [card'] := same ▸ List.mem_singleton_self card
    cases List.mem_singleton.mp (List.mem_of_mem_filter shown)
    cases givenNone (pins'.symm.trans none)
    cases givenNone (alone.symm.trans none)
    by_contra lax
    obtain ⟨k,bit,gave⟩ := laxGave documented plain asks value selected intime lax
    exact without (((each k bit).2 u ud d gave).1 none)
  · intro strict
    refine ⟨pin,card,pins',cards'.trans own.symm,fun k bit => ⟨?_,fun u ud d gave => ?_⟩⟩
    · obtain ⟨u,ud,d,selected,accepted,place⟩ := (maskBit documented plain asks value).mp bit
      exact ⟨u,ud,d,selected,accepted,place⟩
    · rw [pins'] at strict ⊢
      exact gaveRule (fun none => strict none card (cards' ▸ List.mem_singleton_self card)) gave

end

/- The user of the card 00 with the empty text for a pin, and a link with or without the
permission to the door A of the one reader. -/
def guest (allowNoPin : Int) : Tables :=
  single ⟨1,some (cardHex [0]),some [],none,some 0⟩ ⟨some 1,some 1,some allowNoPin,none⟩ ⟨1,some (ascii ['A'])⟩

def guestReader : ReaderId 2 := ⟨doorA,.A⟩
def guestSite : Config 2 := site 1 modeCardAndPin (fun _ => none)
def guestCard (allowNoPin : Int) : Callback := ⟨[0],.dataIsCard,.dataOk,userDb zeroMd5 (reference (guest allowNoPin)) 0⟩
def guestRun (allowNoPin : Int) : List (Step 2) := [.processUserInfo guestReader (guestCard allowNoPin)]

/- The card is answered with the door's one output. -/
theorem guestUnlocks (allowNoPin : Int) (granted : verdict guestSite guestReader (guestCard allowNoPin) (start guestSite []) = 1) :
    ∃ earlier, Unlocks guestSite (start guestSite []) (guestRun allowNoPin) guestReader (guestCard allowNoPin) doorA 1 earlier ∧
      session guestReader earlier = [⟨0,guestCard allowNoPin⟩] := by
  obtain ⟨earlier,opens⟩ := verdictOpens guestSite (by rw [granted]; decide)
  rw [granted] at opens
  exact ⟨earlier,opensUnlocks [] _ rfl opens,opensSession guestSite (startGood guestSite []) opens⟩

/- Card 00 alone opens the door, and no link permits that. -/
theorem emptyPinOpens : modeOf guestSite guestReader = modeCardAndPin ∧ Grammar closed ∧ Documented closed (guest 0) (reference (guest 0)) ∧
    (∀ ud ∈ (guest 0).userDoor, ud.allowNoPin ≠ some 1) ∧
    ∃ earlier, Unlocks guestSite (start guestSite []) (guestRun 0) guestReader (guestCard 0) doorA 1 earlier ∧
      pins (session guestReader earlier) = [] ∧ ¬ Permission guestSite zeroMd5 (guest 0) 0 guestReader 1 earlier := by
  obtain ⟨earlier,unlocks,delivered⟩ := guestUnlocks 0 (by decide +kernel)
  have alone : pins (session guestReader earlier) = [] := by
    rw [delivered]
    rfl
  refine ⟨rfl,closedGrammar,referenceDocumented _,by decide,earlier,unlocks,alone,?_⟩
  rintro ⟨pin,card,_,_,each⟩
  obtain ⟨⟨u,ud,d,gave⟩,permits⟩ := each 0 (by decide)
  have permitted := (permits u ud d gave).1 alone
  rw [List.mem_singleton.mp gave.selected.link] at permitted
  exact absurd permitted (by decide)

theorem guestPermitted : ∃ earlier, Unlocks guestSite (start guestSite []) (guestRun 1) guestReader (guestCard 1) doorA 1 earlier ∧
    Permission guestSite zeroMd5 (guest 1) 0 guestReader 1 earlier := by
  obtain ⟨earlier,unlocks,_⟩ := guestUnlocks 1 (by decide +kernel)
  refine ⟨earlier,unlocks,(cardAlonePermitted zeroMd5 (referenceDocumented (guest 1)) unlocks rfl rfl (.inr (by decide))).mpr ?_⟩
  intro _ card _ u ud d selected _ without
  rw [List.mem_singleton.mp selected.link] at without
  exact absurd rfl without

end AccessControl.PinRule
