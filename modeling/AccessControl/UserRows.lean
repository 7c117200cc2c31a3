import AccessControl.UserDb
import Mathlib.Data.List.Dedup

/-! What the questions to the user database come to over its tables: the rows SQLite yields
for a statement, the bits a row is good for, and the mask as their union. -/
namespace AccessControl.UserRows
open BitMask DoorTable DoorController Numeral Traced UserDb

def rowOf (u : User) (ud : UserDoor) (d : DoorRow) : Row := ⟨u.name,u.pin,u.expireDate,ud.allowNoPin,ud.timeExpr,d.name⟩
def credential (mode : Byte) (u : User) : Option Bytes := if mode = modePin then u.pin else u.card

structure Joined (t : Tables) (u : User) (ud : UserDoor) (d : DoorRow) : Prop where
  user : u ∈ t.users
  link : ud ∈ t.userDoor
  door : d ∈ t.doors
  userid : ud.userid = some u.userid
  doorid : ud.doorid = some d.doorid

/- The three rows together meet the condition of the statement. -/
structure Selected (t : Tables) (mode : Byte) (value doorname : Bytes) (u : User) (ud : UserDoor) (d : DoorRow) : Prop
    extends Joined t u ud d where
  value : credential mode u = some value
  name : ∃ text, d.name = some text ∧ like doorname text = true

def selectText (mode : Byte) (value doorname : Bytes) : Bytes :=
  selectHead ++ doorname ++ selectAnd ++ (selectColumn mode ++ value ++ [0x27]) ++ ascii [')',';']

/- What is a statement at all. The code's own texts are, where the two texts in them hold no
apostrophe; a name with an apostrophe ends its literal itself, and may or may not leave one. -/
structure Grammar (valid : Bytes → Prop) : Prop where
  select : ∀ mode value doorname, 0x27 ∉ value → 0x27 ∉ doorname → valid (selectText mode value doorname)

/- What SQLite documents of the statement while its two texts hold no apostrophe: distinct
rows, in any order. A text that is no statement does not prepare, and yields no row. -/
structure Documented (valid : Bytes → Prop) (t : Tables) (db : Connection) : Prop where
  distinct : ∀ text, (db.rows text).Nodup
  select : ∀ mode value doorname, 0x27 ∉ value → 0x27 ∉ doorname → ∀ row,
    row ∈ db.rows (selectText mode value doorname) ↔ ∃ u ud d, Selected t mode value doorname u ud d ∧ row = rowOf u ud d
  unprepared : ∀ text, ¬ valid text → db.rows text = []

/- A grammar that asks of a text that its literals end, and no more. -/
def closed (text : Bytes) : Prop := text.count 0x27 % 2 = 0
instance : DecidablePred closed := fun text => inferInstanceAs (Decidable (text.count 0x27 % 2 = 0))

/- Tables of one row each. -/
def single (u : User) (ud : UserDoor) (d : DoorRow) : Tables where
  users := [u]
  userDoor := [ud]
  doors := [d]
  userKey := List.nodup_singleton u.userid
  cardKey := by cases card : u.card <;> simp [card]
  doorKey := List.nodup_singleton d.doorid

section
variable {t : Tables} {mode : Byte} {value doorname : Bytes}

/- An engine that is as documented, and can be run. -/
def selects (mode : Byte) (value doorname : Bytes) (u : User) (ud : UserDoor) (d : DoorRow) : Bool :=
  ud.userid == some u.userid && ud.doorid == some d.doorid && credential mode u == some value && d.name.any (like doorname)

def join (t : Tables) (mode : Byte) (value doorname : Bytes) : List Row :=
  (t.users.flatMap fun u => t.userDoor.flatMap fun ud =>
    (t.doors.filter (selects mode value doorname u ud)).map (rowOf u ud)).dedup

def reference (t : Tables) : Connection where
  rows text :=
    let rest := text.drop selectHead.length
    let doorname := rest.takeWhile (· != 0x27)
    let rest := rest.drop (doorname.length + selectAnd.length)
    let mode := if rest.take selectPin.length = selectPin then modePin else modeCard
    if closed text then join t mode ((rest.drop (selectColumn mode).length).takeWhile (· != 0x27)) doorname else []
  keyRows _ := []
  freed := id

theorem selectsIff {u ud d} (user : u ∈ t.users) (link : ud ∈ t.userDoor) (door : d ∈ t.doors) :
    selects mode value doorname u ud d = true ↔ Selected t mode value doorname u ud d := by
  simp only [selects,Bool.and_eq_true,beq_iff_eq,Option.any_eq_true]
  constructor
  · rintro ⟨⟨⟨userid,doorid⟩,found⟩,name⟩
    exact ⟨⟨user,link,door,userid,doorid⟩,found,name⟩
  · exact fun h => ⟨⟨⟨h.userid,h.doorid⟩,h.value⟩,h.name⟩

theorem memJoin {row} : row ∈ join t mode value doorname ↔ ∃ u ud d, Selected t mode value doorname u ud d ∧ row = rowOf u ud d := by
  simp only [join,List.mem_dedup,List.mem_flatMap,List.mem_map,List.mem_filter]
  constructor
  · rintro ⟨u,user,ud,link,d,⟨door,h⟩,same⟩
    exact ⟨u,ud,d,(selectsIff user link door).mp h,same.symm⟩
  · rintro ⟨u,ud,d,h,same⟩
    exact ⟨u,h.user,ud,h.link,d,⟨h.door,(selectsIff h.user h.link h.door).mpr h⟩,same.symm⟩

theorem joinColumn {other : Byte} (same : mode = modePin ↔ other = modePin) : join t mode value doorname = join t other value doorname := by
  have column : ∀ u, credential mode u = credential other u := fun u => by simp only [credential,same]
  have test : selects mode value doorname = selects other value doorname := by
    funext u ud d
    rw [selects,selects,column]
  rw [join,join,test]

theorem plainWhile {text rest : Bytes} (plain : 0x27 ∉ text) : (text ++ 0x27 :: rest).takeWhile (· != 0x27) = text := by
  rw [List.takeWhile_append_of_pos (fun b mem => by
    have other : b ≠ 0x27 := fun e => plain (e ▸ mem)
    simpa using other)]
  simp

theorem textQuotes (mode : Byte) (value doorname : Bytes) :
    (selectText mode value doorname).count 0x27 = doorname.count 0x27 + value.count 0x27 + 4 := by
  have column : (selectColumn mode).count 0x27 = 1 := by
    unfold selectColumn
    split <;> decide
  have fixed : selectHead.count 0x27 = 1 ∧ selectAnd.count 0x27 = 1 ∧ (ascii [')',';']).count 0x27 = 0 := by decide +kernel
  simp only [selectText,List.count_append,column,fixed.1,fixed.2.1,fixed.2.2,List.count_singleton_self]
  omega

theorem plainClosed {mode : Byte} {value doorname : Bytes} (plain : 0x27 ∉ value) (plainName : 0x27 ∉ doorname) :
    closed (selectText mode value doorname) := by
  rw [closed,textQuotes,List.count_eq_zero_of_not_mem plain,List.count_eq_zero_of_not_mem plainName]

theorem closedGrammar : Grammar closed := ⟨fun _ _ _ plain plainName => plainClosed plain plainName⟩

theorem referenceRows (t : Tables) {mode : Byte} {value doorname : Bytes} (plain : 0x27 ∉ value) (plainName : 0x27 ∉ doorname) :
    (reference t).rows (selectText mode value doorname) = join t mode value doorname := by
  have rest : (selectText mode value doorname).drop selectHead.length =
      doorname ++ 0x27 :: (ascii [' ','A','N','D',' '] ++ (selectColumn mode ++ (value ++ 0x27 :: ascii [')',';']))) := by
    rw [selectText,List.append_assoc,List.append_assoc,List.append_assoc,List.drop_left]
    simp only [List.append_assoc]
    rfl
  have after : (doorname ++ 0x27 :: (ascii [' ','A','N','D',' '] ++ (selectColumn mode ++ (value ++ 0x27 :: ascii [')',';'])))).drop
      (doorname.length + selectAnd.length) = selectColumn mode ++ (value ++ 0x27 :: ascii [')',';']) := by
    rw [← List.drop_drop,List.drop_left]
    rfl
  have column : ((selectColumn mode ++ (value ++ 0x27 :: ascii [')',';'])).take selectPin.length = selectPin) ↔ mode = modePin := by
    rw [selectColumn]
    split
    · rename_i pin
      rw [List.take_left]
      exact iff_of_true rfl pin
    · rename_i card
      rw [List.take_append_of_le_length (by decide)]
      exact iff_of_false (by decide) card
  unfold reference
  dsimp only
  rw [if_pos (plainClosed plain plainName),rest,plainWhile plainName,after]
  by_cases pin : mode = modePin
  · subst pin
    rw [if_pos (column.mpr rfl),List.drop_left,plainWhile plain]
  · have same : selectColumn mode = selectColumn modeCard := by rw [selectColumn,if_neg pin]; rfl
    rw [if_neg (fun e => pin (column.mp e)),same,List.drop_left,plainWhile plain]
    exact joinColumn (iff_of_false (by decide) pin)

theorem referenceDocumented (t : Tables) : Documented closed t (reference t) := by
  refine ⟨fun text => ?_,fun mode value doorname plain plainName row => ?_,fun text unclosed => if_neg unclosed⟩
  · unfold reference
    dsimp only
    split
    · exact List.nodup_dedup _
    · exact List.nodup_nil
  · rw [referenceRows t plain plainName]
    exact memJoin

end

section
variable {valid : Bytes → Prop} [DecidablePred valid]

/- The same under another grammar. -/
def gated (valid : Bytes → Prop) [DecidablePred valid] (t : Tables) : Connection :=
  {reference t with rows := fun text => if valid text then (reference t).rows text else []}

theorem gatedDocumented (grammar : Grammar valid) (t : Tables) : Documented valid t (gated valid t) := by
  have known := referenceDocumented t
  refine ⟨fun text => ?_,fun mode value doorname plain plainName row => ?_,fun text refused => if_neg refused⟩
  · unfold gated
    dsimp only
    split
    · exact known.distinct text
    · exact List.nodup_nil
  · unfold gated
    dsimp only
    rw [if_pos (grammar.select mode value doorname plain plainName)]
    exact known.select mode value doorname plain plainName row

/- Of a statement whose literal the name itself has ended nothing is documented here, and an
engine may answer it with any rows. -/
def scripted (valid : Bytes → Prop) [DecidablePred valid] (t : Tables) (text : Bytes) (rows : List Row) : Connection :=
  {reference t with rows := fun other => if other = text then rows else (gated valid t).rows other}

variable (valid) in
theorem scriptedRows (t : Tables) (text : Bytes) (rows : List Row) : (scripted valid t text rows).rows text = rows := if_pos rfl

def answering (valid : Bytes → Prop) [DecidablePred valid] (t : Tables) (text : Bytes) (row : Row) : Connection := scripted valid t text [row]

variable (valid) in
theorem answeringRows (t : Tables) (text : Bytes) (row : Row) : (answering valid t text row).rows text = [row] := scriptedRows valid t text [row]

theorem scriptedDocumented (grammar : Grammar valid) (t : Tables) {mode : Byte} {value doorname : Bytes} (quote : 0x27 ∈ doorname)
    (statement : valid (selectText mode value doorname)) {rows : List Row} (once : rows.Nodup) :
    Documented valid t (scripted valid t (selectText mode value doorname) rows) := by
  have known := gatedDocumented grammar t
  refine ⟨fun text => ?_,fun mode' value' doorname' plain plainName found => ?_,fun text refused => ?_⟩
  · unfold scripted
    dsimp only
    split
    · exact once
    · exact known.distinct text
  · have other : selectText mode' value' doorname' ≠ selectText mode value doorname := by
      intro same
      have quotes := congrArg (List.count 0x27) same
      have inside := List.count_pos_iff.mpr quote
      rw [textQuotes,textQuotes,List.count_eq_zero_of_not_mem plain,List.count_eq_zero_of_not_mem plainName] at quotes
      omega
    unfold scripted
    dsimp only
    rw [if_neg other]
    exact known.select mode' value' doorname' plain plainName found
  · have other : text ≠ selectText mode value doorname := fun same => refused (same ▸ statement)
    unfold scripted
    dsimp only
    rw [if_neg other]
    exact known.unprepared text refused

theorem answeringDocumented (grammar : Grammar valid) (t : Tables) {mode : Byte} {value doorname : Bytes} (quote : 0x27 ∈ doorname)
    (statement : valid (selectText mode value doorname)) (row : Row) : Documented valid t (answering valid t (selectText mode value doorname) row) :=
  scriptedDocumented grammar t quote statement (List.nodup_singleton row)

end

/- The texts that go into a statement, where they fit their buffers. -/
def pinText (md5 : Md5) (mode : Byte) (pin : Bytes) : Bytes :=
  if pinDigest mode then (List.ofFn (md5 pin)).flatMap hex2Lower else []
def cardText (mode : Byte) (card : Bytes) : Option Bytes :=
  if cardMode mode then if card = [] then none else some (card.flatMap hex2) else some []

section
variable {size : Nat} {hex : Byte → Bytes}

theorem sprintfValue (two : ∀ b, (hex b).length = 2) (bytes : Bytes) (text : Option Bytes)
    (room : (text.getD []).length + 2 * bytes.length + 1 ≤ size) :
    (sprintfHex size hex bytes text).value = some (if bytes = [] then text else some (text.getD [] ++ bytes.flatMap hex)) := by
  induction bytes generalizing text with
  | nil => rfl
  | cons b bytes ih =>
    rw [List.length_cons] at room
    have grown : (text.getD [] ++ hex b).length = (text.getD []).length + 2 := by rw [List.length_append,two]
    have fits : (text.getD []).length + 3 ≤ size := by omega
    rw [sprintfHex,valueBind,valueUse,if_pos fits,Option.bind_some,ih _ (by rw [Option.getD_some,grown]; omega),
      if_neg (List.cons_ne_nil b bytes)]
    by_cases last : bytes = []
    · subst last
      simp
    · rw [if_neg last,Option.getD_some,List.flatMap_cons,List.append_assoc]

end

theorem pinValue (md5 : Md5) (mode : Byte) (pin : Bytes) : (pinMd5 md5 mode pin).value = some (some (pinText md5 mode pin)) := by
  rw [pinMd5,pinText]
  split
  · rw [sprintfValue (fun _ => rfl) _ _ (by rw [List.length_ofFn]; decide),if_neg (by simp)]
    rfl
  · rfl

theorem cardValue (mode : Byte) {card : Bytes} (room : cardMode mode → card.length ≤ maxCardLen) :
    (cardStr mode card).value = some (cardText mode card) := by
  rw [cardStr,cardText]
  split
  · rename_i asked
    have fits := room asked
    unfold maxCardLen at fits
    rw [sprintfValue (fun _ => rfl) _ _ (by rw [cardStrLen,maxCardLen,Option.getD_none,List.length_nil]; omega)]
    split <;> rfl
  · rfl

/- The checks of the buffer come to one: the whole text has to fit. -/
def fitting (text : Bytes) : Option Bytes := if bufSize ≤ text.length then none else some text

def validMode (mode : Byte) : Bool := mode = modePin || cardMode mode
def statementValue (mode : Byte) (pinMd5 : Bytes) (cardStr : Option Bytes) : Option Bytes := if mode = modePin then some pinMd5 else cardStr

theorem statementFits {mode : Byte} {pinMd5 value : Bytes} {cardStr : Option Bytes} (doorname : Bytes) (valid : validMode mode = true)
    (chosen : statementValue mode pinMd5 cardStr = some value) :
    (statement mode (some pinMd5) cardStr doorname).value = some (fitting (selectText mode value doorname)) := by
  have piece : (condition mode (some pinMd5) cardStr).value = some (some (selectColumn mode ++ value ++ [0x27])) := by
    unfold condition selectColumn
    rw [statementValue] at chosen
    split at chosen
    · rename_i pin
      cases Option.some.inj chosen
      rw [if_pos pin,if_pos pin]
      rfl
    · rename_i other
      have card : cardMode mode = true := by simpa [validMode,other] using valid
      rw [if_neg other,if_neg other,if_pos card,chosen]
      rfl
  have sum : (selectText mode value doorname).length = (selectHead ++ doorname ++ selectAnd).length +
      (selectColumn mode ++ value ++ [0x27]).length + 2 := by
    rw [selectText,List.length_append,List.length_append]
    rfl
  unfold statement append fitting
  simp only [valueBind,valueNote,valuePure,Option.bind_some,List.nil_append]
  split
  · rename_i long
    rw [if_pos (by omega)]
    rfl
  · rw [valueBind,piece,Option.bind_some]
    simp only [valueBind,valueNote,valuePure,Option.bind_some]
    split
    · rename_i long
      rw [List.length_append] at long
      rw [if_pos (by omega)]
      rfl
    · rfl

theorem statementInvalid {mode : Byte} {pinMd5 cardStr : Option Bytes} (doorname : Bytes) (invalid : validMode mode = false) :
    (statement mode pinMd5 cardStr doorname).value = some none := by
  rw [validMode,Bool.or_eq_false_iff,decide_eq_false_iff_not] at invalid
  unfold statement append condition
  rw [if_neg invalid.1,invalid.2]
  simp only [valueBind,valueNote,valuePure,Option.bind_some,List.nil_append]
  split <;> rfl

theorem statementBuilt {mode : Byte} {pinMd5 doorname text : Bytes} {cardStr : Option Bytes}
    (h : (statement mode (some pinMd5) cardStr doorname).value = some (some text)) : validMode mode = true ∧
      ∃ value, statementValue mode pinMd5 cardStr = some value ∧ fitting (selectText mode value doorname) = some text := by
  cases valid : validMode mode with
  | false =>
    rw [statementInvalid doorname valid] at h
    cases h
  | true =>
    cases chosen : statementValue mode pinMd5 cardStr with
    | some value =>
      rw [statementFits doorname valid chosen] at h
      exact ⟨rfl,value,rfl,Option.some.inj h⟩
    | none =>
      -- A card mode whose card text has no value: nothing is built.
      rw [statementValue] at chosen
      split at chosen
      · cases chosen
      · rename_i other
        have piece : (condition mode (some pinMd5) cardStr).value = none := by
          have card : cardMode mode = true := by simpa [validMode,other] using valid
          rw [condition,if_neg other,if_pos card,chosen]
          rfl
        unfold statement append at h
        simp only [valueBind,valueNote,valuePure,Option.bind_some] at h
        split at h
        · cases h
        · rw [valueBind,piece] at h
          cases h

/- What one row adds to the mask, if its turn has a value. -/
def rowMask (mode : Byte) (pinMd5 doorname : Bytes) (time : Int) (row : Row) : Option Mask :=
  if columnInt row.expire < currTime time then some 0
  else (wrongPin mode pinMd5 row).value.bind fun wrong => if wrong then some 0 else (subdoor doorname row.door).bind shifted

section
variable {mode : Byte} {pinMd5 doorname : Bytes} {time : Int} {row : Row} {rows : List Row} {found : Found} {k : Nat}

theorem checkRowMask (found : Found) : ((checkRow mode pinMd5 doorname time row found).value).map Found.doorMask =
    (rowMask mode pinMd5 doorname time row).map (found.doorMask ||| ·) := by
  unfold checkRow rowMask
  split
  · simp
  · rw [valueBind]
    cases (wrongPin mode pinMd5 row).value with
    | none => rfl
    | some wrong =>
      rw [Option.bind_some,Option.bind_some]
      cases wrong with
      | true => simp
      | false =>
        simp only [Bool.false_eq_true,if_false,valueBind,valueUse,valuePure]
        cases subdoor doorname row.door with
        | none => rfl
        | some sub => cases h : shifted sub <;> simp [h]

theorem checkRowNone (found : Found) (h : rowMask mode pinMd5 doorname time row = none) :
    (checkRow mode pinMd5 doorname time row found).value = none := by
  have turn : _ = (rowMask mode pinMd5 doorname time row).map (found.doorMask ||| ·) := checkRowMask found
  rw [h,Option.map_none,Option.map_eq_none_iff] at turn
  exact turn

theorem checkRowSome (found : Found) {m : Mask} (h : rowMask mode pinMd5 doorname time row = some m) :
    ∃ next, (checkRow mode pinMd5 doorname time row found).value = some next ∧ next.doorMask = found.doorMask ||| m := by
  have turn : _ = (rowMask mode pinMd5 doorname time row).map (found.doorMask ||| ·) := checkRowMask found
  rw [h,Option.map_some,Option.map_eq_some_iff] at turn
  exact turn

/- The loop has a value just when each row has one, and the mask is their union. -/
theorem checkRowsSome : (checkRows mode pinMd5 doorname time rows found).value.isSome ↔
    ∀ row ∈ rows, (rowMask mode pinMd5 doorname time row).isSome := by
  induction rows generalizing found with
  | nil => simp [checkRows]
  | cons row rows ih =>
    rw [checkRows,valueBind,List.forall_mem_cons]
    cases h : rowMask mode pinMd5 doorname time row with
    | none =>
      rw [checkRowNone found h]
      simp
    | some m =>
      obtain ⟨next,turn,_⟩ := checkRowSome found h
      rw [turn,Option.bind_some,ih]
      simp

theorem checkRowsBit {out : Found} (h : (checkRows mode pinMd5 doorname time rows found).value = some out) :
    out.doorMask.getLsbD k = true ↔ found.doorMask.getLsbD k = true ∨
      ∃ row ∈ rows, ∃ m, rowMask mode pinMd5 doorname time row = some m ∧ m.getLsbD k = true := by
  induction rows generalizing found with
  | nil =>
    cases Option.some.inj h
    simp
  | cons row rows ih =>
    rw [checkRows,valueBind] at h
    cases first : rowMask mode pinMd5 doorname time row with
    | none =>
      rw [checkRowNone found first] at h
      cases h
    | some m =>
      obtain ⟨next,turn,mask⟩ := checkRowSome found first
      rw [turn,Option.bind_some] at h
      rw [ih h,mask,BitVec.getLsbD_or,Bool.or_eq_true,or_assoc]
      simp [first]

theorem shiftedSome {sub : Int} : (shifted sub).isSome ↔ 0 ≤ sub ∧ sub < 32 := by
  unfold shifted
  split <;> simp_all

theorem shiftedIs {sub : Int} : (∃ m, shifted sub = some m ∧ m.getLsbD k = true) ↔ sub = k ∧ k < 32 := by
  unfold shifted
  by_cases inside : 0 ≤ sub ∧ sub < 32
  · rw [if_pos inside]
    simp only [Option.some.injEq,exists_eq_left',← BitVec.twoPow_eq,BitVec.getLsbD_twoPow,Bool.and_eq_true,decide_eq_true_eq]
    omega
  · rw [if_neg inside]
    refine iff_of_false (by simp) ?_
    omega

/- The pin rule of the loop, as it is written. -/
def comparesPin (mode : Byte) : Bool := mode = modeCardAndPin ∨ mode = modeCardAndPinAlways

structure PinMet (mode : Byte) (pinMd5 : Bytes) (row : Row) : Prop where
  always : mode = modeCardAndPinAlways → row.userPin = some pinMd5
  card : mode = modeCardAndPin → ∃ stored, row.userPin = some stored ∧ (stored = pinMd5 ∨ columnInt row.allowNoPin = 1)

theorem wrongPinNone : (wrongPin mode pinMd5 row).value = none ↔ comparesPin mode = true ∧ row.userPin = none := by
  unfold wrongPin differs comparesPin
  split
  · rename_i always
    simp [always]
  · rename_i other
    split
    · rename_i card
      rw [valueBind,Option.bind_eq_none_iff]
      cases row.userPin <;> simp [card]
    · rename_i neither
      simp [other,neither]

theorem wrongPinFalse : (wrongPin mode pinMd5 row).value = some false ↔ PinMet mode pinMd5 row := by
  unfold wrongPin differs
  split
  · rename_i always
    rw [valueUse,Option.map_eq_some_iff]
    constructor
    · rintro ⟨stored,pin,same⟩
      rw [bne_eq_false_iff_eq] at same
      refine ⟨fun _ => same ▸ pin,fun card => ?_⟩
      rw [always] at card
      exact absurd card (by decide)
    · exact fun met => ⟨pinMd5,met.always always,by simp⟩
  · rename_i other
    split
    · rename_i card
      rw [valueBind,Option.bind_eq_some_iff]
      simp only [valueUse,valuePure,Option.map_eq_some_iff,Option.some.injEq,Bool.and_eq_false_iff,bne_eq_false_iff_eq]
      constructor
      · rintro ⟨differ,⟨stored,pin,rfl⟩,same⟩
        rw [bne_eq_false_iff_eq] at same
        exact ⟨fun always => absurd always other,fun _ => ⟨stored,pin,same⟩⟩
      · intro met
        obtain ⟨stored,pin,same⟩ := met.card card
        rw [← bne_eq_false_iff_eq (a := stored)] at same
        exact ⟨_,⟨stored,pin,rfl⟩,same⟩
    · rename_i neither
      exact iff_of_true rfl ⟨fun always => absurd always other,fun card => absurd card neither⟩

/- What a row is good for, and when its turn has a value. -/
structure Accepted (mode : Byte) (pinMd5 : Bytes) (time : Int) (row : Row) : Prop where
  unexpired : currTime time ≤ columnInt row.expire
  pin : PinMet mode pinMd5 row

theorem latestDate (time : Int) : currTime time ≤ columnInt (some (2^31 - 1)) := by
  have top : columnInt (some (2^31 - 1)) = 2^31 - 1 := by decide
  have bound := BitVec.toInt_lt (x := BitVec.ofInt 32 time)
  rw [top,currTime]
  omega

theorem rowBit : (∃ m, rowMask mode pinMd5 doorname time row = some m ∧ m.getLsbD k = true) ↔
    Accepted mode pinMd5 time row ∧ subdoor doorname row.door = some (k : Int) ∧ k < 32 := by
  unfold rowMask
  by_cases late : columnInt row.expire < currTime time
  · rw [if_pos late]
    refine iff_of_false (by simp) ?_
    rintro ⟨⟨intime,_⟩,_⟩
    omega
  · rw [if_neg late]
    cases wrong : (wrongPin mode pinMd5 row).value with
    | none =>
      refine iff_of_false (by simp) ?_
      rintro ⟨⟨_,met⟩,_⟩
      rw [← wrongPinFalse,wrong] at met
      cases met
    | some refused =>
      cases refused with
      | true =>
        refine iff_of_false (by simp) ?_
        rintro ⟨⟨_,met⟩,_⟩
        rw [← wrongPinFalse,wrong] at met
        cases met
      | false =>
        have accepted : Accepted mode pinMd5 time row := ⟨by omega,wrongPinFalse.mp wrong⟩
        simp only [Option.bind_some,Bool.false_eq_true,if_false,accepted,true_and]
        cases subdoor doorname row.door with
        | none => simp
        | some sub =>
          rw [Option.bind_some,shiftedIs,Option.some.injEq]

theorem rowSome : (rowMask mode pinMd5 doorname time row).isSome ↔ (currTime time ≤ columnInt row.expire →
    (comparesPin mode = true → row.userPin ≠ none) ∧
      (PinMet mode pinMd5 row → ∃ sub, subdoor doorname row.door = some sub ∧ 0 ≤ sub ∧ sub < 32)) := by
  unfold rowMask
  by_cases late : columnInt row.expire < currTime time
  · rw [if_pos late]
    exact iff_of_true rfl fun intime => absurd late (by omega)
  · rw [if_neg late]
    have intime : currTime time ≤ columnInt row.expire := by omega
    simp only [intime,true_imp_iff]
    cases wrong : (wrongPin mode pinMd5 row).value with
    | none =>
      obtain ⟨compares,empty⟩ := wrongPinNone.mp wrong
      exact iff_of_false (by simp) fun h => h.1 compares empty
    | some refused =>
      have stored : comparesPin mode = true → row.userPin ≠ none := by
        intro compares empty
        rw [wrongPinNone.mpr ⟨compares,empty⟩] at wrong
        cases wrong
      simp only [Option.bind_some,← wrongPinFalse,wrong,Option.some.injEq,and_iff_right stored]
      cases refused with
      | true => simp
      | false =>
        simp only [Bool.false_eq_true,if_false,true_imp_iff]
        cases subdoor doorname row.door with
        | none => simp
        | some sub => simp [shiftedSome]

end

/- Digits start at `0`: they hold no apostrophe and no NUL. -/
theorem digitFloor {d : Nat} (small : d < 16) : 48 ≤ (digitByte d).toNat := by
  rw [digitByte,BitVec.toNat_ofNat]
  split <;> omega

theorem hexFloor (b : Byte) : ∀ digit ∈ hex2 b, 48 ≤ digit.toNat := by
  have bound := b.isLt
  intro digit inside
  rw [hex2,List.mem_pair] at inside
  rcases inside with rfl | rfl
  · exact digitFloor (by omega)
  · exact digitFloor (by omega)

theorem hexLowerFloor (b : Byte) : ∀ digit ∈ hex2Lower b, 48 ≤ digit.toNat := by
  intro digit inside
  obtain ⟨upper,mem,rfl⟩ := List.mem_map.mp inside
  have floor := hexFloor b upper mem
  unfold lower
  split
  · rename_i letter
    rw [BitVec.toNat_add]
    change 48 ≤ (upper.toNat + 32) % 256
    omega
  · exact floor

theorem digitsPlain {hex : Byte → Bytes} (floor : ∀ b, ∀ digit ∈ hex b, 48 ≤ digit.toNat) (bytes : Bytes) {c : Byte} (low : c.toNat < 48) :
    c ∉ bytes.flatMap hex := by
  intro mem
  obtain ⟨b,_,inside⟩ := List.mem_flatMap.mp mem
  exact absurd (floor b c inside) (by omega)

/- A call that comes to prepare its statement, with the text it puts between the quotes. -/
structure Asked (md5 : Md5) (mode : Byte) (pin card doorname value : Bytes) : Prop where
  valid : validMode mode = true
  room : cardMode mode → card.length ≤ maxCardLen
  chosen : statementValue mode (pinText md5 mode pin) (cardText mode card) = some value
  fits : (selectText mode value doorname).length < bufSize

section
variable {md5 : Md5} {t : Tables} {db : Connection} {time : Int} {mode : Byte} {pin card doorname value : Bytes}
variable {answer : Answer} {k : Nat} {valid : Bytes → Prop}

theorem askedPlain (asked : Asked md5 mode pin card doorname value) : 0x27 ∉ value := by
  have chosen := asked.chosen
  rw [statementValue] at chosen
  split at chosen
  · cases Option.some.inj chosen
    rw [pinText]
    split
    · exact digitsPlain hexLowerFloor _ (by decide)
    · exact List.not_mem_nil
  · rw [cardText] at chosen
    split at chosen
    · split at chosen
      · cases chosen
      · cases Option.some.inj chosen
        exact digitsPlain hexFloor _ (by decide)
    · cases Option.some.inj chosen
      exact List.not_mem_nil

def start : Found := ⟨none,.authErr,0⟩

variable (md5 db time mode pin card doorname) in
theorem callValue : ((getAccessMask2 md5 db time pin card mode doorname).value).map Answer.mask =
    if cardMode mode ∧ maxCardLen < card.length then some 0
    else (statement mode (some (pinText md5 mode pin)) (cardText mode card) doorname).value.bind fun text =>
      match text with
      | none => some 0
      | some text => ((checkRows mode (pinText md5 mode pin) doorname time (db.rows text) start).value).map Found.doorMask := by
  unfold getAccessMask2
  rw [valueBind,pinValue,Option.bind_some]
  split
  · rfl
  · rename_i short
    rw [valueBind,cardValue mode (by
      intro asked
      rw [not_and,not_lt] at short
      exact short asked),Option.bind_some,valueBind]
    cases (statement mode (some (pinText md5 mode pin)) (cardText mode card) doorname).value with
    | none => rfl
    | some text =>
      cases text with
      | none => rfl
      | some text =>
        simp only [Option.bind_some,valueBind,valueNote,Option.getD_some,start]
        cases (checkRows mode (pinText md5 mode pin) doorname time (db.rows text) ⟨none,.authErr,0⟩).value <;> rfl

theorem askedValue (db : Connection) (time : Int) (asked : Asked md5 mode pin card doorname value) :
    ((getAccessMask2 md5 db time pin card mode doorname).value).map Answer.mask =
      ((checkRows mode (pinText md5 mode pin) doorname time (db.rows (selectText mode value doorname)) start).value).map Found.doorMask := by
  have room := asked.room
  have short : ¬ (cardMode mode = true ∧ maxCardLen < card.length) := fun h => absurd (room h.1) (by omega)
  have fits := asked.fits
  rw [callValue,if_neg short,statementFits doorname asked.valid asked.chosen,fitting,if_neg (by omega)]
  rfl

theorem fittingRoom {text fit : Bytes} (fits : fitting text = some fit) : text.length < bufSize := by
  unfold fitting at fits
  split at fits
  · cases fits
  · rename_i room
    exact not_le.mp room

/- A call that comes back has asked its statement, or it answers nothing. -/
theorem askedOr (given : (getAccessMask2 md5 db time pin card mode doorname).value = some answer) :
    (∃ value, Asked md5 mode pin card doorname value) ∨ answer = ⟨0,[]⟩ := by
  unfold getAccessMask2 at given
  rw [valueBind,pinValue,Option.bind_some] at given
  split at given
  · exact .inr (Option.some.inj given).symm
  · rename_i short
    rw [not_and,not_lt] at short
    rw [valueBind,cardValue mode (fun asked => short asked),Option.bind_some,valueBind] at given
    obtain ⟨text,built,rest⟩ := Option.bind_eq_some_iff.mp given
    cases text with
    | none => exact .inr (Option.some.inj rest).symm
    | some text =>
      obtain ⟨valid,value,chosen,fits⟩ := statementBuilt built
      exact .inl ⟨value,valid,fun asked => short asked,chosen,fittingRoom fits⟩

/- A mask other than zero comes from a statement. -/
theorem maskAsked (h : (getAccessMask2 md5 db time pin card mode doorname).value = some answer) (granted : answer.mask ≠ 0) :
    ∃ value, Asked md5 mode pin card doorname value :=
  (askedOr h).resolve_right fun nothing => granted (congrArg Answer.mask nothing)

/- The answer has a value when the turn of every row has one; its bits are those of the rows. -/
theorem answerSome (time : Int) (asked : Asked md5 mode pin card doorname value) :
    (getAccessMask2 md5 db time pin card mode doorname).value.isSome ↔ ∀ row ∈ db.rows (selectText mode value doorname),
      (rowMask mode (pinText md5 mode pin) doorname time row).isSome := by
  rw [← Option.isSome_map (f := Answer.mask),askedValue db time asked,Option.isSome_map,checkRowsSome]

theorem answerBit (asked : Asked md5 mode pin card doorname value)
    (h : (getAccessMask2 md5 db time pin card mode doorname).value = some answer) : answer.mask.getLsbD k = true ↔
      ∃ row ∈ db.rows (selectText mode value doorname),
        ∃ m, rowMask mode (pinText md5 mode pin) doorname time row = some m ∧ m.getLsbD k = true := by
  have value := askedValue db time asked
  rw [h,Option.map_some] at value
  obtain ⟨out,loop,mask⟩ := Option.map_eq_some_iff.mp value.symm
  have nothing : start.doorMask.getLsbD k = false := by simp [start]
  rw [← mask,checkRowsBit loop]
  simp only [nothing,Bool.false_eq_true,false_or]

/- Over the tables it is the selected rows that count. -/
theorem maskSome (time : Int) (documented : Documented valid t db) (plain : 0x27 ∉ doorname) (asked : Asked md5 mode pin card doorname value) :
    (getAccessMask2 md5 db time pin card mode doorname).value.isSome ↔ ∀ u ud d, Selected t mode value doorname u ud d →
      (rowMask mode (pinText md5 mode pin) doorname time (rowOf u ud d)).isSome := by
  have rows := documented.select mode _ doorname (askedPlain asked) plain
  rw [answerSome time asked]
  constructor
  · exact fun h u ud d selected => h _ ((rows _).mpr ⟨u,ud,d,selected,rfl⟩)
  · intro h row mem
    obtain ⟨u,ud,d,selected,rfl⟩ := (rows row).mp mem
    exact h u ud d selected

theorem maskBit (documented : Documented valid t db) (plain : 0x27 ∉ doorname) (asked : Asked md5 mode pin card doorname value)
    (h : (getAccessMask2 md5 db time pin card mode doorname).value = some answer) : answer.mask.getLsbD k = true ↔
      ∃ u ud d, Selected t mode value doorname u ud d ∧ Accepted mode (pinText md5 mode pin) time (rowOf u ud d) ∧
        subdoor doorname d.name = some (k : Int) ∧ k < 32 := by
  have rows := documented.select mode _ doorname (askedPlain asked) plain
  rw [answerBit asked h]
  simp only [rowBit]
  constructor
  · rintro ⟨row,mem,good⟩
    obtain ⟨u,ud,d,selected,rfl⟩ := (rows row).mp mem
    exact ⟨u,ud,d,selected,good⟩
  · rintro ⟨u,ud,d,selected,good⟩
    exact ⟨_,(rows _).mpr ⟨u,ud,d,selected,rfl⟩,good⟩

/- A text that is no statement grants nothing. -/
theorem silentAnswer (documented : Documented valid t db) (time : Int) (asked : Asked md5 mode pin card doorname value)
    (refused : ¬ valid (selectText mode value doorname)) :
    ∃ answer, (getAccessMask2 md5 db time pin card mode doorname).value = some answer ∧ answer.mask = 0 := by
  have loop := askedValue db time asked
  rw [documented.unprepared _ refused] at loop
  exact Option.map_eq_some_iff.mp loop

/- No call with this name comes to prepare a statement. -/
def Unprepared (valid : Bytes → Prop) (md5 : Md5) (doorname : Bytes) : Prop :=
  ∀ mode pin card value, Asked md5 mode pin card doorname value → ¬ valid (selectText mode value doorname)

/- For instance one with an odd number of apostrophes, where every statement ends its literals. -/
theorem oddUnprepared (ends : ∀ text, valid text → closed text) (odd : doorname.count 0x27 % 2 = 1) : Unprepared valid md5 doorname := by
  intro mode pin card value asked statement
  have even := ends _ statement
  rw [closed,textQuotes,List.count_eq_zero_of_not_mem (askedPlain asked)] at even
  omega

end
end AccessControl.UserRows
