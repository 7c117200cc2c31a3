import AccessControl.CString
import AccessControl.DoorNames

/-! The question of `getAccessMask2` as its arrays hold it: two loops of digits, three prints
with a check behind each, and the text that SQLite reads up to its NUL. -/
namespace AccessControl.QueryText
open BitMask CString DoorTable DoorController DoorNames Numeral Traced UserDb UserRows

/- The arrays on the stack of the call, with what they held before it. -/
structure Stack where
  dataBuf : Bytes
  pinMd5 : Bytes
  cardStr : Bytes
  dataSize : dataBuf.length = bufSize
  pinSize : pinMd5.length = md5Len
  cardSize : cardStr.length = cardStrLen

/- A text that a `char*` can point to. -/
structure Name where
  text : Bytes
  plain : 0 ∉ text

/- A `sprintf` of two digits with their NUL, a single NUL, an `snprintf` with its offset and the
room it is given, a text that is read, a prepared statement, and what comes after it. -/
inductive Use where
  | digits (size offset : Nat)
  | terminate (size index : Nat)
  | append (offset room : Int)
  | string (text : Option Bytes)
  | prepare (text : Bytes)
  | row (use : UserDb.Use)
  deriving DecidableEq, Repr

def Inside : Use → Prop
  | .digits size offset => offset + 3 ≤ size
  | .terminate size index => index < size
  | .append offset room => 0 ≤ offset ∧ offset < bufSize ∧ 0 < room ∧ offset + room ≤ bufSize
  | .string text => text.isSome
  | _ => True

def prepared : Use → Option Bytes
  | .prepare text => some text
  | _ => none

def sprintfHex (hex : Byte → Bytes) : Nat → Bytes → Bytes → Trace Use Bytes
  | _, [], arr => return arr
  | i, b :: rest, arr => do
    let piece := hex b ++ [0]
    let arr ← use (.digits arr.length (i * 2)) (if i * 2 + piece.length ≤ arr.length then some (overwrite arr (i * 2) piece) else none)
    sprintfHex hex (i + 1) rest arr

def terminate (arr : Bytes) (i : Nat) : Trace Use Bytes :=
  use (.terminate arr.length i) (if i < arr.length then some (arr.set i 0) else none)

def string (arr : Bytes) : Trace Use Bytes := use (.string (cString arr)) (cString arr)

/- The room is handed over as a `size_t`. -/
def snprintf (offset room : Int) (text arr : Bytes) : Trace Use (Int × Bytes) :=
  let piece := stored (BitVec.ofInt 32 room).toNat text
  use (.append offset room)
    (if 0 ≤ offset ∧ offset + piece.length ≤ arr.length then some (printed text,overwrite arr offset.toNat piece) else none)

def pinMd5 (md5 : Md5) (mode : Byte) (pin arr : Bytes) : Trace Use Bytes :=
  if pinDigest mode then do
    let arr ← sprintfHex hex2Lower 0 (List.ofFn (md5 pin)) arr
    terminate arr 32
  else terminate arr 0

def cardStr (mode : Byte) (card arr : Bytes) : Trace Use Bytes :=
  if cardMode mode then sprintfHex hex2 0 card arr else terminate arr 0

def column (head source : Bytes) (ret : Int) (dataBuf : Bytes) : Trace Use (Option (Int × Bytes)) := do
  let value ← string source
  let (len,dataBuf) ← snprintf ret (bufSize - ret) (head ++ value ++ [0x27]) dataBuf
  return some (ret + len,dataBuf)

/- The `switch` over the mode; none is the early return. -/
def condition (mode : Byte) (pinMd5 cardStr : Bytes) (ret : Int) (dataBuf : Bytes) : Trace Use (Option (Int × Bytes)) :=
  if mode = modePin then column selectPin pinMd5 ret dataBuf
  else if cardMode mode then column selectCard cardStr ret dataBuf
  else return none

def statement (mode : Byte) (pinMd5 cardStr : Bytes) (doorname : Name) (dataBuf : Bytes) : Trace Use (Option Bytes) := do
  let (ret,dataBuf) ← snprintf 0 bufSize (selectHead ++ doorname.text ++ selectAnd) dataBuf
  if bufSize ≤ ret then return none
  else do
    let found ← condition mode pinMd5 cardStr ret dataBuf
    match found with
    | none => return none
    | some (ret,dataBuf) =>
      if bufSize ≤ ret then return none
      else do
        let (len,dataBuf) ← snprintf ret (bufSize - ret) (ascii [')',';']) dataBuf
        return if bufSize ≤ ret + len then none else some dataBuf

structure Prepared where
  pinMd5 : Bytes
  cardStr : Bytes
  text : Bytes

def question (mode : Byte) (pinMd5 cardStr : Bytes) (doorname : Name) (dataBuf : Bytes) : Trace Use (Option Prepared) := do
  let found ← statement mode pinMd5 cardStr doorname dataBuf
  match found with
  | none => return none
  | some dataBuf => do
    let text ← string dataBuf
    return some ⟨pinMd5,cardStr,text⟩

/- Everything in front of `sqlite3_prepare_v2`; none is a return of 0. -/
def prepareText (md5 : Md5) (stack : Stack) (pin card : Bytes) (mode : Byte) (doorname : Name) : Trace Use (Option Prepared) := do
  let pinMd5 ← pinMd5 md5 mode pin stack.pinMd5
  if cardMode mode ∧ maxCardLen < card.length then return none
  else do
    let cardStr ← cardStr mode card stack.cardStr
    question mode pinMd5 cardStr doorname stack.dataBuf

/- The statement with its rows, and the event: its name is what has become of the text by then. -/
def answered (db : Connection) (time : Int) (mode : Byte) (doorname : Name) (p : Prepared) : Trace Use Answer := do
  note (.prepare p.text)
  let found ← lift .row (checkRows mode ((cString p.pinMd5).getD []) doorname.text time (db.rows p.text) ⟨none,.authErr,0⟩)
  let userName := found.userName.map db.freed
  return ⟨found.doorMask,[(if found.doorMask ≠ 0 then .authOk found.doorMask userName (cString p.cardStr)
    else errEvent userName (cString p.cardStr) found.errType,some doorname.text)]⟩

def getAccessMask2 (md5 : Md5) (db : Connection) (time : Int) (stack : Stack) (pin card : Bytes) (mode : Byte) (doorname : Name) :
    Trace Use Answer := do
  let found ← prepareText md5 stack pin card mode doorname
  match found with
  | none => return ⟨0,[]⟩
  | some p => answered db time mode doorname p

section
variable {back text arr : Bytes} {hex : Byte → Bytes}

/- What the digits leave behind them: nothing of it is written where there are none. -/
def hexTail (digits back : Bytes) : Bytes := if digits = [] then back else 0 :: back.drop (digits.length * 2 + 1)

theorem hexFrom (two : ∀ b, (hex b).length = 2) (front digits : Bytes) {i : Nat} (place : front.length = i * 2)
    (room : digits.length * 2 < back.length) : (sprintfHex hex i digits (front ++ back)).value =
      some (front ++ digits.flatMap hex ++ hexTail digits back) := by
  induction digits generalizing i front back with
  | nil => simp [sprintfHex,hexTail]
  | cons b rest ih =>
    rw [List.length_cons] at room
    have piece : (hex b ++ [0]).length = 3 := by rw [List.length_append,two]; rfl
    have fits : i * 2 + (hex b ++ [0]).length ≤ (front ++ back).length := by
      rw [piece,List.length_append]
      omega
    have written : overwrite (front ++ back) (i * 2) (hex b ++ [0]) = (front ++ hex b) ++ 0 :: back.drop 3 := by
      rw [← place,overwriteFront,piece]
      simp
    have after : (front ++ hex b).length = (i + 1) * 2 := by
      rw [List.length_append,two,place]
      omega
    have left : rest.length * 2 < (0 :: back.drop 3).length := by
      rw [List.length_cons,List.length_drop]
      omega
    have next := ih (front ++ hex b) after left
    have tail : hexTail rest (0 :: back.drop 3) = hexTail (b :: rest) back := by
      unfold hexTail
      by_cases empty : rest = []
      · subst empty
        rfl
      · rw [if_neg empty,if_neg (List.cons_ne_nil _ _),List.drop_succ_cons,List.drop_drop,List.length_cons]
        congr 2
        omega
    rw [sprintfHex,valueBind,valueUse,if_pos fits,Option.bind_some,written,next,tail,List.flatMap_cons]
    simp

theorem hexValue (two : ∀ b, (hex b).length = 2) (digits : Bytes) (room : digits.length * 2 < arr.length) :
    (sprintfHex hex 0 digits arr).value = some (digits.flatMap hex ++ hexTail digits arr) := hexFrom two [] digits rfl room

theorem hexInside (digits : Bytes) {i : Nat} (room : (i + digits.length) * 2 < arr.length) :
    Every Inside (sprintfHex hex i digits arr) := by
  induction digits generalizing i arr with
  | nil => exact everyPure _
  | cons b rest ih =>
    rw [List.length_cons] at room
    refine everyBind.mpr ⟨(everyUse _ _).mpr (show i * 2 + 3 ≤ arr.length by omega),fun written value => ?_⟩
    rw [valueUse] at value
    split at value
    · rename_i fits
      cases Option.some.inj value
      exact ih (by rw [overwriteLength fits]; omega)
    · cases value

theorem roomNat {k : Nat} (small : k ≤ bufSize) : (BitVec.ofInt 32 ((bufSize : Int) - k)).toNat = bufSize - k := by
  unfold bufSize at small ⊢
  rw [BitVec.toNat_ofInt]
  omega

/- What is stored stays in the array; where it fits it is the whole text with its NUL. -/
theorem printSpec {k : Nat} (whole : arr.length = bufSize) (small : k < bufSize) (text : Bytes) :
    ∃ after, (snprintf k (bufSize - k) text arr).value = some (printed text,after) ∧ after.length = bufSize ∧
      (k + text.length < bufSize → after = arr.take k ++ text ++ 0 :: arr.drop (k + text.length + 1)) := by
  have room := roomNat (show k ≤ bufSize by omega)
  have within : (stored (bufSize - k) text).length ≤ bufSize - k := storedWithin (by omega)
  have inside : (0 : Int) ≤ k ∧ (k : Int) + (stored (bufSize - k) text).length ≤ arr.length := by
    rw [whole]
    omega
  refine ⟨overwrite arr k (stored (bufSize - k) text),?_,?_,fun fits => ?_⟩
  · unfold snprintf
    dsimp only
    rw [room,valueUse,if_pos inside,Int.toNat_natCast]
  · rw [overwriteLength (by omega),whole]
  · rw [storedWhole (by omega),overwrite,List.length_append,List.length_singleton,← List.append_assoc,List.append_assoc _ [0]]
    rfl

theorem printInside {k : Nat} (small : k < bufSize) (text arr : Bytes) : Every Inside (snprintf k (bufSize - k) text arr) :=
  (everyUse _ _).mpr ⟨by omega,by omega,by omega,by omega⟩

theorem printedShort (short : text.length < 2^31) : printed text = text.length := if_pos short

theorem stringValue {source value : Bytes} (read : cString source = some value) : (string source).value = some value := read

theorem columnSpec {head source value dataBuf : Bytes} {k : Nat} (read : cString source = some value)
    (short : (head ++ value ++ [0x27]).length < 2^31) (whole : dataBuf.length = bufSize) (small : k < bufSize) :
    Every Inside (column head source k dataBuf) ∧ ∃ after, after.length = bufSize ∧
      (column head source k dataBuf).value = some (some (((k + (head ++ value ++ [0x27]).length : Nat) : Int),after)) ∧
      (k + (head ++ value ++ [0x27]).length < bufSize →
        after = dataBuf.take k ++ (head ++ value ++ [0x27]) ++ 0 :: dataBuf.drop (k + (head ++ value ++ [0x27]).length + 1)) := by
  obtain ⟨after,print,length,whole'⟩ := printSpec whole small (head ++ value ++ [0x27])
  refine ⟨?_,after,length,?_,whole'⟩
  · unfold column
    refine (everyGiven (stringValue read)).mpr ⟨(everyUse _ _).mpr (by rw [Inside,read]; rfl),?_⟩
    exact (everyGiven print).mpr ⟨printInside small _ _,everyPure _⟩
  · unfold column
    rw [valueBind,stringValue read,Option.bind_some,valueBind,print,Option.bind_some,printedShort short]
    push_cast
    rfl

end

/- The text in front of the condition, and the array that the condition reads. -/
def selectName (doorname : Bytes) : Bytes := selectHead ++ doorname ++ selectAnd
def source (mode : Byte) (pinMd5 cardStr : Bytes) : Bytes := if mode = modePin then pinMd5 else cardStr

theorem fixedPlain : 0 ∉ selectHead ∧ 0 ∉ selectAnd ∧ 0 ∉ selectPin ∧ 0 ∉ selectCard := by decide

theorem textPlain (mode : Byte) {value doorname : Bytes} (plain : 0 ∉ value) (named : 0 ∉ doorname) : 0 ∉ selectText mode value doorname := by
  have column : 0 ∉ selectColumn mode := by
    unfold selectColumn
    split
    · exact fixedPlain.2.2.1
    · exact fixedPlain.2.2.2
  simp only [selectText,List.mem_append,not_or]
  exact ⟨⟨⟨⟨fixedPlain.1,named⟩,fixedPlain.2.1⟩,⟨column,plain⟩,by decide⟩,by decide⟩

section
variable {mode : Byte} {pinMd5 cardStr dataBuf value : Bytes}

theorem textSplit (mode : Byte) (value doorname : Bytes) : selectText mode value doorname =
    selectName doorname ++ (selectColumn mode ++ value ++ [0x27]) ++ ascii [')',';'] := rfl

theorem conditionColumn (valid : validMode mode = true) (ret : Int) (dataBuf : Bytes) :
    condition mode pinMd5 cardStr ret dataBuf = column (selectColumn mode) (source mode pinMd5 cardStr) ret dataBuf := by
  unfold condition selectColumn source
  by_cases pin : mode = modePin
  · rw [if_pos pin,if_pos pin,if_pos pin]
  · have card : cardMode mode = true := by simpa [validMode,pin] using valid
    rw [if_neg pin,if_neg pin,if_neg pin,if_pos card]

/- The first print, with what it leaves. -/
theorem beginSpec (doorname : Name) (whole : dataBuf.length = bufSize) :
    Every Inside (snprintf 0 bufSize (selectHead ++ doorname.text ++ selectAnd) dataBuf) ∧ ∃ first, first.length = bufSize ∧
      (snprintf 0 bufSize (selectHead ++ doorname.text ++ selectAnd) dataBuf).value = some (printed (selectName doorname.text),first) ∧
      ((selectName doorname.text).length < bufSize → ∃ rest, first = selectName doorname.text ++ 0 :: rest) := by
  obtain ⟨first,print,length,text⟩ := printSpec (k := 0) whole (by decide) (selectName doorname.text)
  refine ⟨printInside (k := 0) (by decide) (selectName doorname.text) dataBuf,first,length,print,fun fits => ?_⟩
  rw [text (by omega),List.take_zero,List.nil_append]
  exact ⟨_,rfl⟩

theorem statementLong {doorname : Name} (named : (selectName doorname.text).length < 2^31) (long : bufSize ≤ (selectName doorname.text).length)
    (whole : dataBuf.length = bufSize) : Every Inside (statement mode pinMd5 cardStr doorname dataBuf) ∧
      (statement mode pinMd5 cardStr doorname dataBuf).value = some none := by
  obtain ⟨inside,first,_,print,_⟩ := beginSpec doorname whole
  unfold statement
  rw [everyGiven print,valueBind,print,Option.bind_some,printedShort named]
  dsimp only
  rw [if_pos (by omega)]
  exact ⟨⟨inside,everyPure _⟩,rfl⟩

theorem statementInvalid (doorname : Name) (invalid : validMode mode = false) (whole : dataBuf.length = bufSize) :
    Every Inside (statement mode pinMd5 cardStr doorname dataBuf) ∧
      (statement mode pinMd5 cardStr doorname dataBuf).value = some none := by
  rw [validMode,Bool.or_eq_false_iff,decide_eq_false_iff_not] at invalid
  obtain ⟨inside,first,_,print,_⟩ := beginSpec doorname whole
  unfold statement condition
  rw [everyGiven print,valueBind,print,Option.bind_some]
  dsimp only
  rw [if_neg invalid.1,invalid.2]
  split
  · exact ⟨⟨inside,everyPure _⟩,rfl⟩
  · exact ⟨⟨inside,everyPure _⟩,rfl⟩

/- An array without a NUL is read past its end. -/
theorem statementOpen {doorname : Name} (valid : validMode mode = true) (openEnd : cString (source mode pinMd5 cardStr) = none)
    (fits : (selectName doorname.text).length < bufSize) (whole : dataBuf.length = bufSize) :
    (statement mode pinMd5 cardStr doorname dataBuf).value = none := by
  obtain ⟨_,first,_,print,_⟩ := beginSpec doorname whole
  have named : (selectName doorname.text).length < 2^31 := lt_trans fits (by decide)
  have stuck : ∀ ret, (condition mode pinMd5 cardStr ret first).value = none := by
    intro ret
    rw [conditionColumn valid,column,valueBind,string,valueUse,openEnd]
    rfl
  unfold statement
  rw [valueBind,print,Option.bind_some,printedShort named]
  dsimp only
  rw [if_neg (by omega),valueBind,stuck]
  rfl

/- The checks between the prints come to one: a text that does not fit is not prepared, one that
fits stands in the buffer with its NUL. -/
theorem statementSpec {doorname : Name} (valid : validMode mode = true) (read : cString (source mode pinMd5 cardStr) = some value)
    (short : value.length ≤ bufSize) (named : (selectName doorname.text).length < 2^31) (whole : dataBuf.length = bufSize) :
    Every Inside (statement mode pinMd5 cardStr doorname dataBuf) ∧ ∃ found,
      (statement mode pinMd5 cardStr doorname dataBuf).value = some found ∧
      found.map cString = (fitting (selectText mode value doorname.text)).map some := by
  have plain := textPlain mode (cStringSome read) doorname.plain
  have sum : (selectText mode value doorname.text).length =
      (selectName doorname.text).length + (selectColumn mode ++ value ++ [0x27]).length + 2 := by
    rw [textSplit,List.length_append,List.length_append]
    rfl
  have piece : (selectColumn mode ++ value ++ [0x27]).length < 2^31 := by
    have column : (selectColumn mode).length ≤ 20 := by
      unfold selectColumn
      split <;> decide
    unfold bufSize at short
    rw [List.length_append,List.length_append,List.length_singleton]
    omega
  by_cases long : bufSize ≤ (selectName doorname.text).length
  · refine ⟨(statementLong named long whole).1,none,(statementLong named long whole).2,?_⟩
    rw [fitting,if_pos (by omega)]
    rfl
  · rw [not_le] at long
    obtain ⟨inside,first,firstLength,print,begun⟩ := beginSpec doorname whole
    obtain ⟨rest,firstText⟩ := begun long
    obtain ⟨insideColumn,second,secondLength,column,secondText⟩ := columnSpec read piece firstLength long
    rw [← conditionColumn valid] at insideColumn column
    unfold statement fitting
    rw [everyGiven print,valueBind,print,Option.bind_some,printedShort named]
    dsimp only
    rw [if_neg (by omega),everyGiven column,valueBind,column,Option.bind_some]
    dsimp only
    by_cases longer : bufSize ≤ (selectName doorname.text).length + (selectColumn mode ++ value ++ [0x27]).length
    · rw [if_pos (by omega),if_pos (by omega)]
      exact ⟨⟨inside,insideColumn,everyPure _⟩,none,rfl,rfl⟩
    · rw [not_le] at longer
      obtain ⟨third,last,_,thirdText⟩ := printSpec secondLength longer (ascii [')',';'])
      rw [if_neg (by omega),everyGiven last,valueBind,last,Option.bind_some]
      refine ⟨⟨inside,insideColumn,printInside longer _ _,everyPure _⟩,_,rfl,?_⟩
      rw [printedShort (by decide)]
      change Option.map cString (if (bufSize : Int) ≤ _ + ((2 : Nat) : Int) then none else some third) = _
      by_cases full : bufSize ≤ (selectText mode value doorname.text).length
      · rw [if_pos (by omega),if_pos full]
        rfl
      · have fits : (selectName doorname.text).length + (selectColumn mode ++ value ++ [0x27]).length + 2 < bufSize := by omega
        rw [if_neg (by omega),if_neg full,Option.map_some,Option.map_some,thirdText fits,secondText longer,firstText,
          List.take_left,← List.length_append,List.take_left]
        exact congrArg some (cStringPlain plain _)

/- A name without an end in sight: its length is no `int`, and what follows starts in front of the array. -/
theorem statementHuge {doorname : Name} (valid : validMode mode = true) (huge : 2^31 ≤ (selectName doorname.text).length)
    (whole : dataBuf.length = bufSize) : ¬ Every Inside (statement mode pinMd5 cardStr doorname dataBuf) := by
  obtain ⟨_,first,_,print,_⟩ := beginSpec doorname whole
  intro every
  unfold statement at every
  rw [everyGiven print,printed,if_neg (not_lt.mpr huge)] at every
  obtain ⟨_,rest⟩ := every
  dsimp only at rest
  rw [if_neg (by decide),everyBind,conditionColumn valid] at rest
  obtain ⟨reads,append⟩ := everyBind.mp rest.1
  have ended : Inside (.string (cString (source mode pinMd5 cardStr))) := (everyUse _ _).mp reads
  obtain ⟨value,read⟩ := Option.isSome_iff_exists.mp ended
  have offset := (everyUse _ _).mp (everyBind.mp (append value (stringValue read))).1
  exact absurd offset.1 (by decide)

end

section
variable {mode : Byte} {pinMd5 cardStr dataBuf value : Bytes} {doorname : Name}

theorem questionSpec (valid : validMode mode = true) (read : cString (source mode pinMd5 cardStr) = some value)
    (short : value.length ≤ bufSize) (named : (selectName doorname.text).length < 2^31) (whole : dataBuf.length = bufSize) :
    Every Inside (question mode pinMd5 cardStr doorname dataBuf) ∧ (question mode pinMd5 cardStr doorname dataBuf).value =
      some ((fitting (selectText mode value doorname.text)).map (Prepared.mk pinMd5 cardStr)) := by
  obtain ⟨inside,found,given,texts⟩ := statementSpec valid read short named whole
  unfold question
  rw [everyGiven given,valueBind,given,Option.bind_some]
  cases found with
  | none =>
    have none' : fitting (selectText mode value doorname.text) = none := Option.map_eq_none_iff.mp texts.symm
    rw [none']
    exact ⟨⟨inside,everyPure _⟩,rfl⟩
  | some dataBuf =>
    obtain ⟨text,fits,ended⟩ := Option.map_eq_some_iff.mp texts.symm
    rw [fits]
    dsimp only
    rw [everyGiven (stringValue ended.symm),valueBind,stringValue ended.symm]
    exact ⟨⟨inside,(everyUse _ _).mpr (by rw [Inside,← ended]; rfl),everyPure _⟩,rfl⟩

theorem questionNone (given : Every Inside (statement mode pinMd5 cardStr doorname dataBuf) ∧
    (statement mode pinMd5 cardStr doorname dataBuf).value = some none) :
    Every Inside (question mode pinMd5 cardStr doorname dataBuf) ∧ (question mode pinMd5 cardStr doorname dataBuf).value = some none := by
  unfold question
  rw [everyGiven given.2,valueBind,given.2]
  exact ⟨⟨given.1,everyPure _⟩,rfl⟩

theorem questionOpen (valid : validMode mode = true) (openEnd : cString (source mode pinMd5 cardStr) = none)
    (fits : (selectName doorname.text).length < bufSize) (whole : dataBuf.length = bufSize) :
    (question mode pinMd5 cardStr doorname dataBuf).value = none := by
  rw [question,valueBind,statementOpen valid openEnd fits whole]
  rfl

theorem questionHuge (valid : validMode mode = true) (huge : 2^31 ≤ (selectName doorname.text).length)
    (whole : dataBuf.length = bufSize) : ¬ Every Inside (question mode pinMd5 cardStr doorname dataBuf) :=
  fun every => statementHuge valid huge whole (everyBind.mp every).1

end

theorem terminateFirst {arr : Bytes} (some' : 0 < arr.length) :
    Every Inside (terminate arr 0) ∧ ∃ after, (terminate arr 0).value = some after ∧ cString after = some [] := by
  refine ⟨(everyUse _ _).mpr some',arr.set 0 0,if_pos some',?_⟩
  cases arr with
  | nil => cases some'
  | cons b rest => exact cStringPlain List.not_mem_nil rest

section
variable (md5 : Md5) (stack : Stack) (mode : Byte) (pin : Bytes) {card : Bytes}

theorem pinSpec : Every Inside (pinMd5 md5 mode pin stack.pinMd5) ∧ ∃ after,
    (pinMd5 md5 mode pin stack.pinMd5).value = some after ∧ cString after = some (pinText md5 mode pin) := by
  unfold pinMd5 pinText
  split
  · have room : (List.ofFn (md5 pin)).length * 2 < stack.pinMd5.length := by
      rw [List.length_ofFn,stack.pinSize]
      decide
    have digits := hexValue (fun b => (rfl : (hex2Lower b).length = 2)) (List.ofFn (md5 pin)) room
    have long : ((List.ofFn (md5 pin)).flatMap hex2Lower).length = 32 := by
      rw [hexLength hex2Lower (fun _ => rfl),List.length_ofFn]
    have tail : hexTail (List.ofFn (md5 pin)) stack.pinMd5 = 0 :: stack.pinMd5.drop 33 := by
      rw [hexTail,if_neg (by simp),List.length_ofFn]
    rw [tail] at digits
    rw [everyGiven digits,valueBind,digits,Option.bind_some,terminate,everyUse,valueUse,List.length_append,long,List.length_cons]
    refine ⟨⟨hexInside _ (by omega),show 32 < _ by omega⟩,_,if_pos (by omega),?_⟩
    rw [List.set_append_right _ _ (by omega),long]
    exact cStringPlain (digitsPlain hexLowerFloor _ (by decide)) _
  · exact terminateFirst (by rw [stack.pinSize]; decide)

/- What the condition finds in `cardStr`. -/
def cardRead (stack : Stack) (mode : Byte) (card : Bytes) : Option Bytes :=
  if cardMode mode then if card = [] then cString stack.cardStr else some (cardHex card) else some []

theorem cardSpec (room : cardMode mode → card.length ≤ maxCardLen) : Every Inside (cardStr mode card stack.cardStr) ∧ ∃ after,
    (cardStr mode card stack.cardStr).value = some after ∧ cString after = cardRead stack mode card := by
  unfold cardStr cardRead
  split
  · rename_i asked
    have fits : card.length * 2 < stack.cardStr.length := by
      have small := room asked
      rw [stack.cardSize,cardStrLen]
      omega
    refine ⟨hexInside _ (by omega),_,hexValue (fun _ => rfl) card fits,?_⟩
    unfold hexTail
    split
    · rename_i empty
      rw [empty]
      rfl
    · exact cStringPlain (digitsPlain hexFloor _ (by decide)) _
  · exact terminateFirst (by rw [stack.cardSize]; decide)

end

/- The text in front of the statement: inside the arrays, and nothing or the one that is wanted. -/
structure Builds (mode : Byte) (wanted doorname : Bytes) (asked : Trace Use (Option Prepared)) : Prop where
  inside : Every Inside asked
  text : ∃ found, asked.value = some found ∧ ∀ p, found = some p → p.text = selectText mode wanted doorname

/- What the call asks for: the digest in MODE_PIN, else the card. -/
def presented (md5 : Md5) (mode : Byte) (pin card : Bytes) : Bytes := if mode = modePin then pinHex md5 pin else cardHex card

section
variable {md5 : Md5} {stack : Stack} {pin card value : Bytes} {mode : Byte} {doorname : Name}

variable (md5 stack pin mode doorname) in
/- Both arrays are written, then the question is put together. -/
theorem prepareSpec (short : ¬ (cardMode mode = true ∧ maxCardLen < card.length)) : ∃ digest number,
    cString digest = some (pinText md5 mode pin) ∧ cString number = cardRead stack mode card ∧
    (prepareText md5 stack pin card mode doorname).value = (question mode digest number doorname stack.dataBuf).value ∧
    ∀ wanted, Builds mode wanted doorname.text (prepareText md5 stack pin card mode doorname) ↔
      Builds mode wanted doorname.text (question mode digest number doorname stack.dataBuf) := by
  obtain ⟨insidePin,digest,pinGiven,pinText'⟩ := pinSpec md5 stack mode pin
  have room : cardMode mode = true → card.length ≤ maxCardLen := fun asked => not_lt.mp fun long => short ⟨asked,long⟩
  obtain ⟨insideCard,number,cardGiven,cardText'⟩ := cardSpec stack mode room
  have every : Every Inside (prepareText md5 stack pin card mode doorname) ↔ Every Inside (question mode digest number doorname stack.dataBuf) := by
    unfold prepareText
    rw [everyGiven pinGiven,if_neg short,everyGiven cardGiven]
    exact ⟨fun every => every.2.2,fun every => ⟨insidePin,insideCard,every⟩⟩
  have value : (prepareText md5 stack pin card mode doorname).value = (question mode digest number doorname stack.dataBuf).value := by
    unfold prepareText
    rw [valueBind,pinGiven,Option.bind_some,if_neg short,valueBind,cardGiven,Option.bind_some]
  refine ⟨digest,number,pinText',cardText',value,fun wanted => ?_⟩
  exact ⟨fun builds => ⟨every.mp builds.inside,value ▸ builds.text⟩,fun builds => ⟨every.mpr builds.inside,value ▸ builds.text⟩⟩

theorem sourceRead {digest number : Bytes} (pinRead : cString digest = some (pinText md5 mode pin))
    (cardRead' : cString number = cardRead stack mode card) :
    cString (source mode digest number) = statementValue mode (pinText md5 mode pin) (cardRead stack mode card) := by
  unfold source statementValue
  split
  · exact pinRead
  · exact cardRead'

theorem readShort (room : cardMode mode = true → card.length ≤ maxCardLen)
    (read : statementValue mode (pinText md5 mode pin) (cardRead stack mode card) = some value) : value.length ≤ bufSize := by
  unfold statementValue at read
  split at read
  · cases Option.some.inj read
    unfold pinText
    split
    · rw [hexLength hex2Lower (fun _ => rfl),List.length_ofFn]
      decide
    · exact Nat.zero_le _
  · unfold cardRead at read
    split at read
    · rename_i asked
      have small := room asked
      unfold maxCardLen at small
      split at read
      · have length := cStringLength read
        rw [stack.cardSize,cardStrLen,maxCardLen] at length
        exact length.trans (by decide)
      · cases Option.some.inj read
        rw [cardHex,hexLength hex2 (fun _ => rfl)]
        unfold bufSize
        omega
    · cases Option.some.inj read
      exact Nat.zero_le _

/- An array that was written holds what was presented. -/
theorem readPresented (valid : validMode mode = true) (written : cardMode mode = true → card ≠ []) :
    statementValue mode (pinText md5 mode pin) (cardRead stack mode card) = some (presented md5 mode pin card) := by
  unfold statementValue presented
  by_cases pin' : mode = modePin
  · subst pin'
    rw [if_pos rfl,if_pos rfl]
    rfl
  · have asked : cardMode mode = true := by simpa [validMode,pin'] using valid
    rw [if_neg pin',if_neg pin',cardRead,if_pos asked,if_neg (written asked)]

theorem readEmpty (asked : cardMode mode = true) :
    statementValue mode (pinText md5 mode pin) (cardRead stack mode []) = cString stack.cardStr := by
  rw [statementValue,if_neg (cardOther asked),cardRead,if_pos asked,if_pos rfl]

/- A statement is prepared at one place only. -/
def Silent (use : Use) : Prop := prepared use = none

theorem silentHex (hex : Byte → Bytes) (digits : Bytes) (i : Nat) (arr : Bytes) : Every Silent (sprintfHex hex i digits arr) := by
  induction digits generalizing i arr with
  | nil => exact everyPure _
  | cons b rest ih => exact everyBind.mpr ⟨(everyUse _ _).mpr rfl,fun arr _ => ih (i + 1) arr⟩

theorem silentColumn (head source : Bytes) (ret : Int) (dataBuf : Bytes) : Every Silent (column head source ret dataBuf) :=
  everyBind.mpr ⟨(everyUse _ _).mpr rfl,fun _ _ => everyBind.mpr ⟨(everyUse _ _).mpr rfl,fun _ _ => everyPure _⟩⟩

theorem silentStatement (mode : Byte) (pinMd5 cardStr : Bytes) (doorname : Name) (dataBuf : Bytes) :
    Every Silent (statement mode pinMd5 cardStr doorname dataBuf) := by
  refine everyBind.mpr ⟨(everyUse _ _).mpr rfl,fun first _ => ?_⟩
  dsimp only
  split
  · exact everyPure _
  · refine everyBind.mpr ⟨?_,fun found _ => ?_⟩
    · unfold condition
      split
      · exact silentColumn _ _ _ _
      · split
        · exact silentColumn _ _ _ _
        · exact everyPure _
    · split
      · exact everyPure _
      · split
        · exact everyPure _
        · exact everyBind.mpr ⟨(everyUse _ _).mpr rfl,fun _ _ => everyPure _⟩

variable (md5 stack pin card mode doorname) in
theorem prepareSilent : Every Silent (prepareText md5 stack pin card mode doorname) := by
  refine everyBind.mpr ⟨?_,fun digest _ => ?_⟩
  · unfold pinMd5
    split
    · exact everyBind.mpr ⟨silentHex _ _ _ _,fun _ _ => (everyUse _ _).mpr rfl⟩
    · exact (everyUse _ _).mpr rfl
  · split
    · exact everyPure _
    · refine everyBind.mpr ⟨?_,fun number _ => everyBind.mpr ⟨silentStatement _ _ _ _ _,fun found _ => ?_⟩⟩
      · unfold cardStr
        split
        · exact silentHex _ _ _ _
        · exact (everyUse _ _).mpr rfl
      · split
        · exact everyPure _
        · exact everyBind.mpr ⟨(everyUse _ _).mpr rfl,fun _ _ => everyPure _⟩

end

/- Every write and read inside its array; no statement and no door, or the whole of the one text. -/
structure Complete (md5 : Md5) (pin card : Bytes) (mode : Byte) (doorname : Bytes) (call : Trace Use Answer) : Prop where
  inside : Every Inside call
  text : call.uses.filterMap prepared = [] ∧ call.value.map Answer.mask = some 0 ∨
    call.uses.filterMap prepared = [selectText mode (presented md5 mode pin card) doorname]

theorem silentNone {α : Type} {x : Trace Use α} (silent : Every Silent x) : x.uses.filterMap prepared = [] := List.filterMap_eq_nil_iff.mpr silent

section
variable {md5 : Md5} {db : Connection} {time : Int} {stack : Stack} {pin card : Bytes} {mode : Byte} {doorname : Name}

theorem answeredPrepares (p : Prepared) : (answered db time mode doorname p).uses.filterMap prepared = [p.text] := by
  have rows : ∀ uses : List UserDb.Use, (uses.map Use.row).filterMap prepared = [] := by
    intro uses
    rw [List.filterMap_map]
    exact List.filterMap_eq_nil_iff.mpr fun _ _ => rfl
  unfold answered
  cases given : (lift Use.row (checkRows mode ((cString p.pinMd5).getD []) doorname.text time (db.rows p.text) ⟨none,.authErr,0⟩)).value with
  | none =>
    rw [bindSome (valueNote _),bindNone given,List.filterMap_append]
    exact congrArg ([p.text] ++ ·) (rows _)
  | some found =>
    rw [bindSome (valueNote _),bindSome given,List.filterMap_append,List.filterMap_append]
    exact congrArg (fun rest => [p.text] ++ (rest ++ [])) (rows _)

theorem answeredInside (p : Prepared) : Every Inside (answered db time mode doorname p) :=
  everyBind.mpr ⟨(everyNote _).mpr trivial,fun _ _ => everyBind.mpr ⟨(everyLift _ _).mpr fun _ _ => trivial,fun _ _ => everyPure _⟩⟩

theorem completeIff : Complete md5 pin card mode doorname.text (getAccessMask2 md5 db time stack pin card mode doorname) ↔
    Builds mode (presented md5 mode pin card) doorname.text (prepareText md5 stack pin card mode doorname) := by
  have silent := silentNone (prepareSilent md5 stack pin card mode doorname)
  unfold getAccessMask2
  cases given : (prepareText md5 stack pin card mode doorname).value with
  | none =>
    rw [bindNone given]
    refine iff_of_false (fun complete => ?_) (fun builds => ?_)
    rotate_left
    · obtain ⟨found,some',_⟩ := builds.text
      cases given.symm.trans some'
    obtain ⟨_,mask⟩ | text := complete.text
    · cases mask
    · rw [silent] at text
      cases text
  | some found =>
    cases found with
    | none =>
      refine ⟨fun complete => ⟨(everyBind.mp complete.inside).1,none,given,fun _ some' => by cases some'⟩,fun builds => ?_⟩
      refine ⟨(everyGiven given).mpr ⟨builds.inside,everyPure _⟩,.inl ?_⟩
      rw [bindSome given]
      exact ⟨by rw [List.filterMap_append,silent]; rfl,rfl⟩
    | some p =>
      have texts : (prepareText md5 stack pin card mode doorname >>= fun found =>
          (match found with
          | none => pure ⟨0,[]⟩
          | some p => answered db time mode doorname p : Trace Use Answer)).uses.filterMap prepared = [p.text] := by
        rw [bindSome given,List.filterMap_append,silent]
        exact answeredPrepares p
      refine ⟨fun complete => ⟨(everyBind.mp complete.inside).1,some p,given,?_⟩,fun builds => ?_⟩
      · obtain ⟨none',_⟩ | text := complete.text
        · cases texts.symm.trans none'
        · intro _ same
          cases same
          exact List.singleton_inj.mp (texts.symm.trans text)
      · obtain ⟨found,same,text⟩ := builds.text
        cases given.symm.trans same
        exact ⟨(everyGiven given).mpr ⟨builds.inside,answeredInside p⟩,.inr (texts.trans (congrArg ([·]) (text p rfl)))⟩

end

/- No card at all leaves its array as the stack had it: the loop writes no NUL. -/
def Settled (stack : Stack) (card : Bytes) (mode : Byte) (doorname : Bytes) : Prop :=
  cardMode mode = true ∧ maxCardLen < card.length ∨
  (validMode mode = true → (selectName doorname).length < 2^31) ∧
  (cardMode mode = true → card = [] → bufSize ≤ (selectName doorname).length ∨
    ∃ text, cString stack.cardStr = some text ∧ (text = [] ∨ bufSize ≤ (selectText mode text doorname).length))

theorem fittedText {digest number text : Bytes} {p : Prepared} (fits : (fitting text).map (Prepared.mk digest number) = some p) :
    p.text = text ∧ text.length < bufSize := by
  obtain ⟨fit,given,same⟩ := Option.map_eq_some_iff.mp fits
  have room := fittingRoom given
  unfold fitting at given
  rw [if_neg (by omega)] at given
  cases Option.some.inj given
  exact ⟨same ▸ rfl,room⟩

theorem fittedOther (mode : Byte) (digest number value other doorname : Bytes) :
    (∃ found, some ((fitting (selectText mode value doorname)).map (Prepared.mk digest number)) = some found ∧
      ∀ p, found = some p → p.text = selectText mode other doorname) ↔
    selectText mode value doorname = selectText mode other doorname ∨ bufSize ≤ (selectText mode value doorname).length := by
  constructor
  · rintro ⟨found,same,texts⟩
    by_cases long : bufSize ≤ (selectText mode value doorname).length
    · exact .inr long
    · rw [fitting,if_neg long] at same
      exact .inl (texts _ (Option.some.inj same).symm)
  · intro cases'
    refine ⟨_,rfl,fun p fits => ?_⟩
    obtain ⟨text,room⟩ := fittedText fits
    exact text.trans (cases'.resolve_right (by omega))

theorem emptyOnly {mode : Byte} {value doorname : Bytes} : selectText mode value doorname = selectText mode [] doorname ↔ value = [] := by
  refine ⟨fun same => ?_,fun empty => by rw [empty]⟩
  have lengths := congrArg List.length same
  rw [textLength,textLength] at lengths
  exact List.length_eq_zero_iff.mp (by simpa using lengths)

section
variable {mode : Byte} {digest number dataBuf value wanted : Bytes} {doorname : Name}

theorem buildsNone {asked : Trace Use (Option Prepared)} (given : Every Inside asked ∧ asked.value = some none) :
    Builds mode wanted doorname.text asked := ⟨given.1,none,given.2,fun _ some' => by cases some'⟩

theorem buildsRead (valid : validMode mode = true) (read : cString (source mode digest number) = some value) (short : value.length ≤ bufSize)
    (named : (selectName doorname.text).length < 2^31) (whole : dataBuf.length = bufSize) :
    Builds mode wanted doorname.text (question mode digest number doorname dataBuf) ↔
      selectText mode value doorname.text = selectText mode wanted doorname.text ∨ bufSize ≤ (selectText mode value doorname.text).length := by
  obtain ⟨inside,given⟩ := questionSpec valid read short named whole
  rw [← fittedOther mode digest number value wanted doorname.text,← given]
  exact ⟨fun builds => builds.text,fun text => ⟨inside,text⟩⟩

end

section
variable {md5 : Md5} {db : Connection} {time : Int} {stack : Stack} {pin card : Bytes} {mode : Byte} {doorname : Name}

/- The text of no card is what the array held. -/
theorem emptyBuilds {text wanted : Bytes} (asked : cardMode mode = true) (left : cString stack.cardStr = some text)
    (fits : (selectName doorname.text).length < bufSize) : Builds mode wanted doorname.text (prepareText md5 stack pin [] mode doorname) ↔
      selectText mode text doorname.text = selectText mode wanted doorname.text ∨ bufSize ≤ (selectText mode text doorname.text).length := by
  have room : ¬ (cardMode mode = true ∧ maxCardLen < ([] : Bytes).length) := fun long => absurd long.2 (Nat.not_lt_zero _)
  obtain ⟨digest,number,pinRead,cardRead',_,same⟩ := prepareSpec md5 stack pin mode doorname room
  have read := sourceRead pinRead cardRead'
  rw [readEmpty asked,left] at read
  have short : text.length ≤ bufSize := by
    have length := cStringLength left
    rw [stack.cardSize] at length
    exact length.trans (by decide)
  have valid : validMode mode = true := by
    rw [validMode,asked,Bool.or_true]
  rw [same,buildsRead valid read short (lt_trans fits (by decide)) stack.dataSize]

theorem hugeBuilds {wanted : Bytes} (valid : validMode mode = true) (room : ¬ (cardMode mode = true ∧ maxCardLen < card.length))
    (huge : 2^31 ≤ (selectName doorname.text).length) : ¬ Builds mode wanted doorname.text (prepareText md5 stack pin card mode doorname) := by
  obtain ⟨digest,number,_,_,_,same⟩ := prepareSpec md5 stack pin mode doorname room
  rw [same]
  exact fun builds => questionHuge valid huge stack.dataSize builds.inside

/- A card that is there is asked for: the arrays then answer as the texts do. -/
theorem sameAnswer (written : cardMode mode = true → card ≠ []) (named : (selectName doorname.text).length < 2^31) :
    (getAccessMask2 md5 db time stack pin card mode doorname).value =
      (UserDb.getAccessMask2 md5 db time pin card mode doorname.text).value := by
  unfold getAccessMask2 UserDb.getAccessMask2
  rw [valueBind,valueBind,pinValue,Option.bind_some]
  by_cases tooLong : cardMode mode = true ∧ maxCardLen < card.length
  · obtain ⟨_,digest,given,_⟩ := pinSpec md5 stack mode pin
    unfold prepareText
    rw [valueBind,given,Option.bind_some,if_pos tooLong,if_pos tooLong]
    rfl
  · have room : cardMode mode = true → card.length ≤ maxCardLen := fun asked => not_lt.mp fun long => tooLong ⟨asked,long⟩
    obtain ⟨digest,number,pinRead,cardRead',value,_⟩ := prepareSpec md5 stack pin mode doorname tooLong
    have texts : cardRead stack mode card = cardText mode card := by
      unfold cardRead cardText
      split
      · rename_i asked
        rw [if_neg (written asked),if_neg (written asked)]
        rfl
      · rfl
    rw [value,if_neg tooLong,valueBind,cardValue mode room,Option.bind_some,valueBind]
    cases valid : validMode mode with
    | false =>
      rw [UserRows.statementInvalid doorname.text valid,(questionNone (statementInvalid doorname valid stack.dataSize)).2]
      rfl
    | true =>
      have chosen : statementValue mode (pinText md5 mode pin) (cardText mode card) = some (presented md5 mode pin card) :=
        texts ▸ readPresented valid written
      have read := sourceRead pinRead cardRead'
      rw [texts,chosen] at read
      rw [statementFits doorname.text valid chosen,(questionSpec valid read (readShort room (texts ▸ chosen)) named stack.dataSize).2]
      cases fitting (selectText mode (presented md5 mode pin card) doorname.text) with
      | none => rfl
      | some text =>
        simp only [Option.map_some,Option.bind_some,answered,valueBind,valueNote,valueLift,pinRead,cardRead',texts,Option.getD_some]
        rfl

end

theorem queryWhole (md5 : Md5) (db : Connection) (time : Int) (stack : Stack) (pin card : Bytes) (mode : Byte) (doorname : Name) :
    Complete md5 pin card mode doorname.text (getAccessMask2 md5 db time stack pin card mode doorname) ↔
      Settled stack card mode doorname.text := by
  rw [completeIff]
  by_cases tooLong : cardMode mode = true ∧ maxCardLen < card.length
  · obtain ⟨inside,digest,given,_⟩ := pinSpec md5 stack mode pin
    refine iff_of_true ?_ (.inl tooLong)
    refine buildsNone ?_
    unfold prepareText
    rw [everyGiven given,valueBind,given,Option.bind_some,if_pos tooLong]
    exact ⟨⟨inside,everyPure _⟩,rfl⟩
  · have room : cardMode mode = true → card.length ≤ maxCardLen := fun asked => not_lt.mp fun long => tooLong ⟨asked,long⟩
    obtain ⟨digest,number,pinRead,cardRead',_,same⟩ := prepareSpec md5 stack pin mode doorname tooLong
    have read := sourceRead pinRead cardRead'
    rw [Settled,or_iff_right tooLong]
    cases valid : validMode mode with
    | false =>
      have noCard : cardMode mode = false := by
        rw [validMode,Bool.or_eq_false_iff] at valid
        exact valid.2
      rw [same]
      refine iff_of_true (buildsNone (questionNone (statementInvalid doorname valid stack.dataSize))) ⟨fun yes => ?_,fun asked => ?_⟩
      · cases yes
      · rw [noCard] at asked
        cases asked
    | true =>
      by_cases named : (selectName doorname.text).length < 2^31
      · rw [and_iff_right (fun _ => named)]
        by_cases empty : cardMode mode = true ∧ card = []
        · obtain ⟨asked,rfl⟩ := empty
          have wanted : presented md5 mode pin [] = [] := if_neg (cardOther asked)
          rw [wanted,forall_prop_of_true asked,forall_prop_of_true rfl]
          by_cases long : bufSize ≤ (selectName doorname.text).length
          · rw [same]
            exact iff_of_true (buildsNone (questionNone (statementLong named long stack.dataSize))) (.inl long)
          · rw [or_iff_right long]
            cases left : cString stack.cardStr with
            | none =>
              rw [readEmpty asked,left] at read
              rw [same]
              refine iff_of_false (fun builds => ?_) ?_
              · obtain ⟨found,some',_⟩ := builds.text
                cases (questionOpen valid read (not_le.mp long) stack.dataSize).symm.trans some'
              · rintro ⟨text,some',_⟩
                cases some'
            | some text =>
              rw [emptyBuilds asked left (not_le.mp long),emptyOnly]
              simp only [Option.some.injEq,exists_eq_left']
        · have written : cardMode mode = true → card ≠ [] := fun asked none' => empty ⟨asked,none'⟩
          have chosen : statementValue mode (pinText md5 mode pin) (cardRead stack mode card) = some (presented md5 mode pin card) :=
            readPresented valid written
          have short := readShort room chosen
          rw [chosen] at read
          rw [same]
          exact iff_of_true ((buildsRead valid read short named stack.dataSize).mpr (.inl rfl)) (fun asked none' => absurd none' (written asked))
      · exact iff_of_false (hugeBuilds valid tooLong (not_lt.mp named)) (fun settled => named (settled.1 rfl))

/- The array holds the digits of the card of an earlier call, and no card asks for them again. -/
def leftover : Stack where
  dataBuf := List.replicate bufSize 0
  pinMd5 := List.replicate md5Len 0
  cardStr := ascii ['0','0'] ++ List.replicate 31 0
  dataSize := List.length_replicate
  pinSize := List.length_replicate
  cardSize := rfl

def doorA : Name := ⟨ascii ['A'],by decide⟩
def noTables : Connection := reference ⟨[],[],[],by decide,by decide,by decide⟩

/- A name of 2^31 letters. -/
def longName : Name := ⟨List.replicate (2^31) 0x41,fun mem => absurd (List.eq_of_mem_replicate mem) (by decide)⟩

theorem longNameHuge : 2^31 ≤ (selectName longName.text).length := by
  rw [selectName,List.length_append,List.length_append,show longName.text.length = 2^31 from List.length_replicate]
  omega

set_option maxRecDepth 10000 in
theorem earlierCard : (Builds modeCard (ascii ['0','0']) doorA.text (prepareText zeroMd5 leftover [] [] modeCard doorA) ∧
      ¬ Complete zeroMd5 [] [] modeCard doorA.text (getAccessMask2 zeroMd5 noTables 0 leftover [] [] modeCard doorA)) ∧
    ¬ Complete zeroMd5 [0x31] [] modePin longName.text (getAccessMask2 zeroMd5 noTables 0 leftover [0x31] [] modePin longName) := by
  have left : cString leftover.cardStr = some (ascii ['0','0']) := by decide
  have fits : (selectName doorA.text).length < bufSize := by decide
  refine ⟨⟨(emptyBuilds rfl left fits).mpr (.inl rfl),fun complete => ?_⟩,fun complete => ?_⟩
  · obtain same | long := (emptyBuilds rfl left fits).mp (completeIff.mp complete)
    · exact absurd (emptyOnly.mp same) (by decide)
    · exact absurd long (by decide)
  · exact hugeBuilds rfl (by decide) longNameHuge (completeIff.mp complete)

end AccessControl.QueryText
