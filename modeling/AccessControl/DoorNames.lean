import AccessControl.UserRows

/-! The door's name in the statement is a pattern. Which doors a credential opens, and
which sub-doors behind a name that ends in `%`. -/
namespace AccessControl.DoorNames
open BitMask DoorTable DoorController Numeral Traced Wildcard UserDb UserRows

section
variable {x y : Bytes}

end

def wild : Byte := 0x25

theorem noPlace {text : Bytes} (noRun : 0x25 ∉ text) : text.findIdx? (· == 0x25) = none := by
  rw [List.findIdx?_eq_none_iff]
  intro b mem
  have other : b ≠ 0x25 := fun e => noRun (e ▸ mem)
  simpa using other

theorem subdoorSingle {doorname : Bytes} (noRun : 0x25 ∉ doorname) (door : Option Bytes) : subdoor doorname door = some 0 := by
  rw [subdoor,noPlace noRun]

/- Whose credential it is: the card in upper case digits, the digest of the pin in lower case. -/
def cardHex (card : Bytes) : Bytes := card.flatMap hex2

theorem hexValue {card : Bytes} (some' : card ≠ []) (room : card.length ≤ maxCardLen) :
    (sprintfHex cardStrLen hex2 card none).value = some (some (cardHex card)) := by
  unfold maxCardLen at room
  rw [sprintfValue (fun _ => rfl) _ _ (by rw [cardStrLen,maxCardLen,Option.getD_none,List.length_nil]; omega),if_neg some']
  rfl

def pinHex (md5 : Md5) (pin : Bytes) : Bytes := (List.ofFn (md5 pin)).flatMap hex2Lower

structure Presents (md5 : Md5) (mode : Byte) (pin card : Bytes) (u : User) : Prop where
  card : cardMode mode = true → u.card = some (cardHex card)
  pin : mode = modePin → u.pin = some (pinHex md5 pin)

section
variable {md5 : Md5} {t : Tables} {db : Connection} {time : Int} {mode : Byte} {pin card doorname value : Bytes}

theorem cardOther (asked : cardMode mode = true) : mode ≠ modePin := by
  rintro rfl
  revert asked
  decide

/- In a card mode the statement is prepared for a card of at most sixteen bytes that fits. -/
theorem cardAsked (asked : cardMode mode = true) (some' : card ≠ []) : Asked md5 mode pin card doorname value ↔
    card.length ≤ maxCardLen ∧ value = cardHex card ∧ (selectText mode (cardHex card) doorname).length < bufSize := by
  have chosen : statementValue mode (pinText md5 mode pin) (cardText mode card) = some (cardHex card) := by
    rw [statementValue,if_neg (cardOther asked),cardText,if_pos asked,if_neg some',cardHex]
  constructor
  · intro h
    cases Option.some.inj (chosen.symm.trans h.chosen)
    exact ⟨h.room asked,rfl,h.fits⟩
  · rintro ⟨room,rfl,fits⟩
    exact ⟨by simp [validMode,asked],fun _ => room,chosen,fits⟩

theorem askedPresents (asked : Asked md5 mode pin card doorname value) {u : User} (found : credential mode u = some value) :
    Presents md5 mode pin card u := by
  have chosen := asked.chosen
  constructor
  · intro card'
    rw [credential,if_neg (cardOther card')] at found
    rw [statementValue,if_neg (cardOther card'),cardText,if_pos card'] at chosen
    split at chosen
    · cases chosen
    · exact found.trans chosen.symm
  · intro pin'
    rw [credential,if_pos pin'] at found
    rw [statementValue,if_pos pin',pinText,if_pos (by rw [pin']; decide)] at chosen
    exact found.trans chosen.symm

/- No statement is shorter than the one for a card of one byte. -/
def shortest (doorname : Bytes) : Nat := (selectText modeCard (cardHex [0]) doorname).length

theorem textLength (mode : Byte) (value doorname : Bytes) :
    (selectText mode value doorname).length = selectHead.length + doorname.length + 9 + (selectColumn mode).length + value.length := by
  simp only [selectText,List.length_append,show selectAnd.length = 6 from rfl,show (ascii [')',';']).length = 2 from rfl,
    List.length_singleton]
  omega

theorem hexLength (hex : Byte → Bytes) (two : ∀ b, (hex b).length = 2) (bytes : Bytes) : (bytes.flatMap hex).length = 2 * bytes.length := by
  induction bytes with
  | nil => rfl
  | cons b bytes ih =>
    rw [List.flatMap_cons,List.length_append,two,ih,List.length_cons]
    omega

theorem shortestAsked (asked : Asked md5 mode pin card doorname value) : shortest doorname ≤ (selectText mode value doorname).length := by
  have chosen := asked.chosen
  rw [shortest,textLength,textLength]
  have one : (cardHex [0]).length = 2 := rfl
  have column : (selectColumn modeCard).length = 15 := rfl
  rw [one,column]
  by_cases pin' : mode = modePin
  · rw [statementValue,if_pos pin',pinText,if_pos (by rw [pin']; decide)] at chosen
    cases Option.some.inj chosen
    have column : (selectColumn mode).length = 14 := by rw [pin']; rfl
    rw [hexLength hex2Lower (fun _ => rfl),List.length_ofFn,column]
    omega
  · have card' : cardMode mode = true := by simpa [validMode,pin'] using asked.valid
    rw [statementValue,if_neg pin',cardText,if_pos card'] at chosen
    split at chosen
    · cases chosen
    · rename_i some'
      cases Option.some.inj chosen
      have column : (selectColumn mode).length = 15 := by rw [selectColumn,if_neg pin']; rfl
      have positive := List.length_pos_iff.mpr some'
      rw [hexLength hex2 (fun _ => rfl),column]
      omega

end

/- The exact door behind an answer. -/
def Opens (t : Tables) (md5 : Md5) (mode : Byte) (pin card doorname : Bytes) : Prop :=
  ∃ u ud d, Joined t u ud d ∧ Presents md5 mode pin card u ∧ d.name = some doorname

/- One user with the card 00 and one link, to the given door. -/
def oneUser : User := ⟨1,some (cardHex [0]),none,none,some 0⟩
def oneLink (door : Int) : UserDoor := ⟨some 1,some door,none,none⟩
def oneLinked (doors : List DoorRow) (doorKey : (doors.map DoorRow.doorid).Nodup) (door : Int) : Tables :=
  ⟨[oneUser],[oneLink door],doors,by simp,by simp [oneUser],doorKey⟩

section
variable {valid : Bytes → Prop} {md5 : Md5} {t : Tables} {db : Connection} {time : Int} {mode : Byte} {pin card doorname value : Bytes}

/- With a name of its own each row of the tables that is asked about has its turn. -/
theorem singleSome (time : Int) (documented : Documented valid t db) (plain : 0x27 ∉ doorname) (noRun : 0x25 ∉ doorname)
    (asked : Asked md5 modeCard pin card doorname value) : ∃ answer, (getAccessMask2 md5 db time pin card modeCard doorname).value = some answer := by
  refine Option.isSome_iff_exists.mp ((maskSome time documented plain asked).mpr fun u ud d _ => rowSome.mpr fun _ => ⟨?_,fun _ => ?_⟩)
  · exact fun compares => absurd compares (by decide)
  · exact ⟨0,subdoorSingle noRun _,le_refl _,by decide⟩

/- A row that no table holds, and that every rule accepts. -/
def strayRow (md5 : Md5) (mode : Byte) (pin : Bytes) : Row := ⟨none,some (pinText md5 mode pin),some 0,none,none,none⟩

theorem strayAnswer (noRun : 0x25 ∉ doorname) (asked : Asked md5 mode pin card doorname value)
    (rows : db.rows (selectText mode value doorname) = [strayRow md5 mode pin]) :
    ∃ answer, (getAccessMask2 md5 db 0 pin card mode doorname).value = some answer ∧ answer.mask ≠ 0 := by
  have counts : Accepted mode (pinText md5 mode pin) 0 (strayRow md5 mode pin) :=
    ⟨show currTime 0 ≤ columnInt (some 0) by decide,fun _ => rfl,fun _ => ⟨_,rfl,.inl rfl⟩⟩
  have bit := rowBit.mpr ⟨counts,subdoorSingle noRun (strayRow md5 mode pin).door,show 0 < 32 by decide⟩
  have turn : ∀ row ∈ db.rows (selectText mode value doorname),
      (rowMask mode (pinText md5 mode pin) doorname 0 row).isSome := by
    intro row mem
    rw [rows] at mem
    obtain ⟨m,mask,_⟩ := bit
    rw [List.mem_singleton.mp mem,mask]
    rfl
  obtain ⟨answer,given⟩ := Option.isSome_iff_exists.mp ((answerSome 0 asked).mpr turn)
  refine ⟨answer,given,maskNonzero.mpr ⟨0,(answerBit asked given).mpr ⟨strayRow md5 mode pin,?_,bit⟩⟩⟩
  rw [rows]
  exact List.mem_singleton.mpr rfl

/- Where a call prepares its statement, the name of the door cannot have ended its own literal. -/
theorem preparedPlain (grammar : Grammar valid) (noRun : 0x25 ∉ doorname) {doors : List DoorRow} (doorKey : (doors.map DoorRow.doorid).Nodup)
    (exact' : ∀ t db, t.doors = doors → Documented valid t db → ∀ time pin card mode answer,
      (getAccessMask2 md5 db time pin card mode doorname).value = some answer → answer.mask ≠ 0 → Opens t md5 mode pin card doorname)
    (asked : Asked md5 mode pin card doorname value) (statement : valid (selectText mode value doorname)) : 0x27 ∉ doorname := by
  classical
  intro quote
  let t : Tables := ⟨[],[],doors,by simp,by simp,doorKey⟩
  have documented := answeringDocumented grammar t quote statement (strayRow md5 mode pin)
  obtain ⟨answer,value,granted⟩ := strayAnswer noRun asked (answeringRows valid t _ (strayRow md5 mode pin))
  obtain ⟨u,ud,d,joined,_⟩ := exact' t _ rfl documented 0 pin card mode answer value granted
  exact absurd joined.user List.not_mem_nil

/- Every credential opens doors of exactly that name only, unless the name ends its literal itself
and leaves a statement, or another door's name fits it as a pattern: then a door can be given away. -/
theorem onlyNamedDoors (grammar : Grammar valid) (md5 : Md5) {doorname : Bytes} (noRun : 0x25 ∉ doorname) (doors : List DoorRow)
    (doorKey : (doors.map DoorRow.doorid).Nodup) :
    (∀ t db, t.doors = doors → Documented valid t db → ∀ time pin card mode answer,
      (getAccessMask2 md5 db time pin card mode doorname).value = some answer → answer.mask ≠ 0 → Opens t md5 mode pin card doorname) ↔
    Unprepared valid md5 doorname ∨
      0x27 ∉ doorname ∧ ∀ d ∈ doors, ∀ text, d.name = some text → like doorname text = true → text = doorname := by
  classical
  constructor
  · intro exact'
    by_cases silent : Unprepared valid md5 doorname
    · exact .inl silent
    · unfold Unprepared at silent
      push Not at silent
      obtain ⟨mode,pin,card,value,prepared,statement⟩ := silent
      have plain := preparedPlain grammar noRun doorKey exact' prepared statement
      have asked : Asked md5 modeCard [] [0] doorname (cardHex [0]) :=
        (cardAsked rfl (by simp)).mpr ⟨by decide,rfl,Nat.lt_of_le_of_lt (shortestAsked prepared) prepared.fits⟩
      refine .inr ⟨plain,fun d inside text name fits => ?_⟩
      let t := oneLinked doors doorKey d.doorid
      have documented := gatedDocumented grammar t
      obtain ⟨answer,value⟩ := singleSome 0 documented plain noRun asked
      have selected : Selected t modeCard (cardHex [0]) doorname oneUser (oneLink d.doorid) d :=
        ⟨⟨List.mem_singleton.mpr rfl,List.mem_singleton.mpr rfl,inside,rfl,rfl⟩,rfl,text,name,fits⟩
      have bit : answer.mask.getLsbD 0 = true := (maskBit documented plain asked value).mpr
        ⟨_,_,_,selected,⟨show currTime 0 ≤ columnInt (some 0) by decide,fun e => absurd e (by decide),fun e => absurd e (by decide)⟩,
          subdoorSingle noRun _,by decide⟩
      obtain ⟨u,ud,d',joined,_,exact'⟩ := exact' t _ rfl documented 0 [] [0] modeCard answer value (maskNonzero.mpr ⟨0,bit⟩)
      have link := List.mem_singleton.mp joined.link
      have doorid := joined.doorid
      rw [link] at doorid
      have same : d = d' := List.inj_on_of_nodup_map doorKey inside joined.door (Option.some.inj doorid)
      rw [← same,name] at exact'
      exact Option.some.inj exact'
  · rintro only t db rfl documented time pin card mode answer value granted
    obtain ⟨text,asked⟩ := maskAsked value granted
    rcases only with silent | ⟨plain,only⟩
    · obtain ⟨none',given,zero⟩ := silentAnswer documented time asked (silent mode pin card text asked)
      cases Option.some.inj (given.symm.trans value)
      exact absurd zero granted
    · obtain ⟨k,bit⟩ := maskNonzero.mp granted
      obtain ⟨u,ud,d,selected,_⟩ := (maskBit documented plain asked value).mp bit
      obtain ⟨name,named,fits⟩ := selected.name
      rw [only d selected.door name named fits] at named
      exact ⟨u,ud,d,selected.toJoined,askedPresents asked selected.value,named⟩

end

/- The doors A_1 and AB1, and a credential for the second alone. -/
def nameA1 : Bytes := ascii ['A','_','1']
def lookalikes : List DoorRow := [⟨1,some nameA1⟩,⟨2,some (ascii ['A','B','1'])⟩]
def lookalike : Tables := oneLinked lookalikes (by decide) 2
def zeroMd5 : Md5 := fun _ _ => 0

theorem lookalikeOpens : Grammar closed ∧ Documented closed lookalike (reference lookalike) ∧
    ((getAccessMask2 zeroMd5 (reference lookalike) 0 [] [0] modeCard nameA1).value).map Answer.mask = some 1 ∧
    ¬ Opens lookalike zeroMd5 modeCard [] [0] nameA1 := by
  refine ⟨closedGrammar,referenceDocumented _,by decide +kernel,?_⟩
  rintro ⟨u,ud,d,joined,_,named⟩
  have link : ud = oneLink 2 := List.mem_singleton.mp joined.link
  have doorid := joined.doorid
  rw [link] at doorid
  rcases List.mem_cons.mp joined.door with rfl | second
  · exact absurd doorid (by decide)
  · rw [List.mem_singleton.mp second] at named
    exact absurd named (by decide)

/- With the door A alone nothing else fits its name. -/
def onlyA : List DoorRow := [⟨1,some (ascii ['A'])⟩]
def linkedA : Tables := oneLinked onlyA (by decide) 1

theorem onlyNamedDoorsA :
    ((getAccessMask2 zeroMd5 (reference linkedA) 0 [] [0] modeCard (ascii ['A'])).value).map Answer.mask = some 1 ∧
    Opens linkedA zeroMd5 modeCard [] [0] (ascii ['A']) := by
  have only : ∀ d ∈ onlyA, ∀ text, d.name = some text → like (ascii ['A']) text = true → text = ascii ['A'] := by
    intro d inside text name _
    rw [List.mem_singleton.mp inside] at name
    exact (Option.some.inj name).symm
  have opens := (onlyNamedDoors closedGrammar zeroMd5 (by decide) onlyA (by decide)).mpr (.inr ⟨by decide,only⟩)
  have given : ((getAccessMask2 zeroMd5 (reference linkedA) 0 [] [0] modeCard (ascii ['A'])).value).map Answer.mask = some 1 := by
    decide +kernel
  obtain ⟨answer,value,mask⟩ := Option.map_eq_some_iff.mp given
  exact ⟨given,opens linkedA _ rfl (referenceDocumented _) 0 [] [0] modeCard answer value (by rw [mask]; decide)⟩

/- An accepted row of the presented card for the door of the `k`-th sub-door. -/
def Granted (t : Tables) (md5 : Md5) (time : Int) (mode : Byte) (pin card front : Bytes) (k : Nat) : Prop :=
  k < 32 ∧ ∃ u ud d, Joined t u ud d ∧ u.card = some (cardHex card) ∧ d.name = some (front ++ decimal k) ∧
    Accepted mode (pinText md5 mode pin) time (rowOf u ud d)

section
variable {valid : Bytes → Prop} {md5 : Md5} {t : Tables} {db : Connection} {time : Int} {mode : Byte} {pin card front : Bytes} {u : User}
variable {ud : UserDoor} {d : DoorRow}

/- A row without a door whose turn comes to the number all the same. -/
def namelessRow (md5 : Md5) (mode : Byte) (pin : Bytes) : Row := ⟨none,some (pinText md5 mode pin),some (2^31 - 1),some 1,none,none⟩

theorem namelessStops (doorname : Bytes) {place : Nat} (wildcard : doorname.findIdx? (· == 0x25) = some place)
    (asked : Asked md5 mode pin card doorname value) (rows : db.rows (selectText mode value doorname) = [namelessRow md5 mode pin]) :
    (getAccessMask2 md5 db time pin card mode doorname).value = none := by
  have met : PinMet mode (pinText md5 mode pin) (namelessRow md5 mode pin) := ⟨fun _ => rfl,fun _ => ⟨_,rfl,.inl rfl⟩⟩
  rw [← Option.not_isSome_iff_eq_none,answerSome time asked,rows]
  intro turn
  obtain ⟨sub,place',_⟩ := (rowSome.mp (turn _ (List.mem_singleton.mpr rfl)) (latestDate time)).2 met
  rw [subdoor,wildcard] at place'
  cases place'

end

/- A user with the card 00 for one door whose name begins with L. -/
def lift (name : Bytes) : Tables := oneLinked [⟨1,some name⟩] (by simp) 1

end AccessControl.DoorNames
