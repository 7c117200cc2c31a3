import AccessControl.DoorController
import AccessControl.Numeral
import AccessControl.Traced
import AccessControl.Wildcard

/-! The user database: the tables, what SQLite makes of the statements of this program, and
the questions of the controller. Texts hold no NUL; a null text is `none`. -/
namespace AccessControl.UserDb
open BitMask DoorTable DoorController Numeral Traced Wildcard

structure User where
  userid : Int
  card : Option Bytes
  pin : Option Bytes
  name : Option Bytes
  expireDate : Option Int
  deriving DecidableEq, Repr

structure UserDoor where
  userid : Option Int
  doorid : Option Int
  allowNoPin : Option Int
  timeExpr : Option Bytes
  deriving DecidableEq, Repr

structure DoorRow where
  doorid : Int
  name : Option Bytes
  deriving DecidableEq, Repr

/- The tables with the keys that SQLite enforces; it does not enforce the references. -/
structure Tables where
  users : List User
  userDoor : List UserDoor
  doors : List DoorRow
  userKey : (users.map User.userid).Nodup
  cardKey : (users.filterMap User.card).Nodup
  doorKey : (doors.map DoorRow.doorid).Nodup

/- The letters of a text: a leading byte of UTF-8 and what continues it. -/
def continues (b : Byte) : Bool := b &&& 0xc0 == 0x80

def charsStep (b : Byte) (found : Bytes × List Bytes) : Bytes × List Bytes :=
  if continues b then (b :: found.1,found.2)
  else if 0xc0 ≤ b.toNat then ([],(b :: found.1) :: found.2)
  else ([],[b] :: (found.1.map ([·]) ++ found.2))

def chars (text : Bytes) : List Bytes :=
  let found := text.foldr charsStep ([],[])
  found.1.map ([·]) ++ found.2

def lower (b : Byte) : Byte := if 0x41 ≤ b.toNat ∧ b.toNat ≤ 0x5a then b + 0x20 else b
def sameChar (a b : Bytes) : Bool := a.map lower == b.map lower

def item (letter : Bytes) : Item Bytes := if letter = [0x25] then .run else if letter = [0x5f] then .any else .one letter

/- `text LIKE pattern`. -/
def like (pattern text : Bytes) : Bool := fits sameChar ((chars pattern).map item) (chars text)

/- A row of the statement of `getAccessMask2`, and of that of `checkKeyAccess2`. -/
structure Row where
  userName : Option Bytes
  userPin : Option Bytes
  expire : Option Int
  allowNoPin : Option Int
  timeExpr : Option Bytes
  door : Option Bytes
  deriving DecidableEq, Repr

structure KeyRow where
  userName : Option Bytes
  expire : Option Int
  door : Option Bytes
  deriving DecidableEq, Repr

/- The rows that stepping a statement yields, none where it does not prepare; and what is found in
the place of a column's text once its statement is finalized. -/
structure Connection where
  rows : Bytes → List Row
  keyRows : Bytes → List KeyRow
  freed : Bytes → Bytes

/- `sqlite3_column_int`. -/
def columnInt (value : Option Int) : Int := (BitVec.ofInt 32 (value.getD 0)).toInt

/- The digest of `md5.c`. -/
abbrev Md5 := Bytes → Fin 16 → Byte

def bufSize : Nat := 500
def md5Len : Nat := 33
def cardStrLen : Nat := maxCardLen * 2 + 1

/- A `sprintf` of two digits and the NUL behind them, one `snprintf` with its offset and the
room it is given, a `%s`, a text that is compared, a shift and a prepared statement. -/
inductive Use where
  | digits (size offset : Nat)
  | append (offset : Nat) (room : Int)
  | string (text : Option Bytes)
  | compare (text : Option Bytes)
  | shift (subdoor : Int)
  | prepare (text : Bytes)
  deriving DecidableEq, Repr

/- The buffer of `size` bytes starts without a value; each digit pair is written behind the last. -/
def sprintfHex (size : Nat) (hex : Byte → Bytes) : Bytes → Option Bytes → Trace Use (Option Bytes)
  | [], text => return text
  | b :: rest, text => do
    let before := text.getD []
    use (.digits size before.length) (if before.length + 3 ≤ size then some () else none)
    sprintfHex size hex rest (some (before ++ hex b))

def hex2Lower (b : Byte) : Bytes := (hex2 b).map lower

def append (text piece : Bytes) : Trace Use Bytes := do
  note (.append text.length (bufSize - text.length))
  return text ++ piece

def string (text : Option Bytes) : Trace Use Bytes := use (.string text) text

/- "SELECT DISTINCT users.name, users.pin, users.expire_date, user_door.allow_no_pin, user_door.time_expr,
doors.name FROM users JOIN user_door JOIN doors ON ( users.userid = user_door.userid AND
user_door.doorid = doors.doorid AND doors.name LIKE '" up to the first quote of the name. -/
def selectHead : Bytes := ascii [
  'S','E','L','E','C','T',' ','D','I','S','T','I','N','C','T',' ','u','s','e','r','s','.','n','a',
  'm','e',',',' ','u','s','e','r','s','.','p','i','n',',',' ','u','s','e','r','s','.','e','x','p',
  'i','r','e','_','d','a','t','e',',',' ','u','s','e','r','_','d','o','o','r','.','a','l','l','o',
  'w','_','n','o','_','p','i','n',',',' ','u','s','e','r','_','d','o','o','r','.','t','i','m','e',
  '_','e','x','p','r',',',' ','d','o','o','r','s','.','n','a','m','e',' ','F','R','O','M',' ','u',
  's','e','r','s',' ','J','O','I','N',' ','u','s','e','r','_','d','o','o','r',' ','J','O','I','N',
  ' ','d','o','o','r','s',' ','O','N',' ','(',' ','u','s','e','r','s','.','u','s','e','r','i','d',
  ' ','=',' ','u','s','e','r','_','d','o','o','r','.','u','s','e','r','i','d',' ','A','N','D',' ',
  'u','s','e','r','_','d','o','o','r','.','d','o','o','r','i','d',' ','=',' ','d','o','o','r','s',
  '.','d','o','o','r','i','d',' ','A','N','D',' ','d','o','o','r','s','.','n','a','m','e',' ','L',
  'I','K','E',' '] ++ [0x27]
def selectAnd : Bytes := 0x27 :: ascii [' ','A','N','D',' ']
def selectPin : Bytes := ascii ['u','s','e','r','s','.','p','i','n',' ','=','=',' '] ++ [0x27]
def selectCard : Bytes := ascii ['u','s','e','r','s','.','c','a','r','d',' ','=','=',' '] ++ [0x27]

def cardMode (mode : Byte) : Bool := mode = modeCard ∨ mode = modeCardAndPin ∨ mode = modeCardAndPinAlways
def pinDigest (mode : Byte) : Bool := mode = modePin ∨ mode = modeCardAndPinAlways

def selectColumn (mode : Byte) : Bytes := if mode = modePin then selectPin else selectCard

/- The `switch` over the mode; none is the early return. -/
def condition (mode : Byte) (pinMd5 cardStr : Option Bytes) : Trace Use (Option Bytes) :=
  if mode = modePin then do
    let value ← string pinMd5
    return some (selectPin ++ value ++ [0x27])
  else if cardMode mode then do
    let value ← string cardStr
    return some (selectCard ++ value ++ [0x27])
  else return none

/- The text of the statement, unless one of its checks returns first. -/
def statement (mode : Byte) (pinMd5 cardStr : Option Bytes) (doorname : Bytes) : Trace Use (Option Bytes) := do
  let text ← append [] (selectHead ++ doorname ++ selectAnd)
  if bufSize ≤ text.length then return none
  else do
    let found ← condition mode pinMd5 cardStr
    match found with
    | none => return none
    | some piece => do
      let text ← append text piece
      if bufSize ≤ text.length then return none
      else do
        let text ← append text (ascii [')',';'])
        return if bufSize ≤ text.length then none else some text

inductive ErrType where | authErr | expire | pin
  deriving DecidableEq, Repr

structure Found where
  userName : Option Bytes
  errType : ErrType
  doorMask : Mask
  deriving DecidableEq, Repr

/- `strcmp(..) != 0`. -/
def differs (text : Option Bytes) (other : Bytes) : Trace Use Bool := use (.compare text) (text.map (· != other))

/- The two tests of the pin in the loop over the rows. -/
def wrongPin (mode : Byte) (pinMd5 : Bytes) (row : Row) : Trace Use Bool :=
  if mode = modeCardAndPinAlways then differs row.userPin pinMd5
  else if mode = modeCardAndPin then do
    let differ ← differs row.userPin pinMd5
    return differ && columnInt row.allowNoPin != 1
  else return false

/- The number behind the place where the configured name has its `%`. -/
def subdoor (doorname : Bytes) (door : Option Bytes) : Option Int :=
  match doorname.findIdx? (· == 0x25) with
  | none => some 0
  | some place => door.bind fun name => if place ≤ name.length then atoi (name.drop place) else none

def shifted (subdoor : Int) : Option Mask := if 0 ≤ subdoor ∧ subdoor < 32 then some (1#32 <<< subdoor.toNat) else none

def currTime (time : Int) : Int := (BitVec.ofInt 32 time).toInt

/- One turn of the loop over the rows. -/
def checkRow (mode : Byte) (pinMd5 doorname : Bytes) (time : Int) (row : Row) (found : Found) : Trace Use Found :=
  if columnInt row.expire < currTime time then return ⟨row.userName,.expire,found.doorMask⟩
  else do
    let wrong ← wrongPin mode pinMd5 row
    if wrong then return ⟨row.userName,.pin,found.doorMask⟩
    else do
      let sub ← use (.string row.door) (subdoor doorname row.door)
      let bit ← use (.shift sub) (shifted sub)
      return ⟨row.userName,.authErr,found.doorMask ||| bit⟩

def checkRows (mode : Byte) (pinMd5 doorname : Bytes) (time : Int) : List Row → Found → Trace Use Found
  | [], found => return found
  | row :: rows, found => do
    let found ← checkRow mode pinMd5 doorname time row found
    checkRows mode pinMd5 doorname time rows found

def errEvent (user card : Option Bytes) : ErrType → Event
  | .authErr => .authErr user card
  | .expire => .authErrExpire user card
  | .pin => .authErrPin user card

def pinMd5 (md5 : Md5) (mode : Byte) (pin : Bytes) : Trace Use (Option Bytes) :=
  if pinDigest mode then sprintfHex md5Len hex2Lower (List.ofFn (md5 pin)) none else return some []
def cardStr (mode : Byte) (card : Bytes) : Trace Use (Option Bytes) :=
  if cardMode mode then sprintfHex cardStrLen hex2 card none else return some []

/- `time(0)` is the same for every row. The name of the last row is reported when its text is freed. -/
def getAccessMask2 (md5 : Md5) (db : Connection) (time : Int) (pin card : Bytes) (mode : Byte) (doorname : Bytes) :
    Trace Use Answer := do
  let pinMd5 ← pinMd5 md5 mode pin
  if cardMode mode ∧ maxCardLen < card.length then return ⟨0,[]⟩
  else do
    let cardStr ← cardStr mode card
    let text ← statement mode pinMd5 cardStr doorname
    match text with
    | none => return ⟨0,[]⟩
    | some text => do
      note (.prepare text)
      let found ← checkRows mode (pinMd5.getD []) doorname time (db.rows text) ⟨none,.authErr,0⟩
      let userName := found.userName.map db.freed
      return ⟨found.doorMask,[(if found.doorMask ≠ 0 then .authOk found.doorMask userName cardStr
        else errEvent userName cardStr found.errType,some doorname)]⟩

/- The statement stands as the source has it, with its two `AND` in a row. -/
def keyHead : Bytes := ascii [
  'S','E','L','E','C','T',' ','D','I','S','T','I','N','C','T',' ','u','s','e','r','s','.','n','a',
  'm','e',',',' ','u','s','e','r','s','.','e','x','p','i','r','e','_','d','a','t','e',',',' ','d',
  'o','o','r','s','.','n','a','m','e',' ','F','R','O','M',' ','u','s','e','r','s',' ','J','O','I',
  'N',' ','u','s','e','r','_','d','o','o','r',' ','J','O','I','N',' ','d','o','o','r','s',' ','J',
  'O','I','N',' ','k','e','y','s',' ','O','N',' ','(',' ','u','s','e','r','s','.','u','s','e','r',
  'i','d',' ','=',' ','u','s','e','r','_','d','o','o','r','.','u','s','e','r','i','d',' ','A','N',
  'D',' ','A','N','D',' ','u','s','e','r','_','d','o','o','r',' ','=',' ','d','o','o','r','s','.',
  'd','o','o','r','i','d',' ','A','N','D',' ','d','o','o','r','s','.','d','o','o','r','i','d',' ',
  '=','=',' ','k','e','y','s','.','d','o','o','r','i','d',' ','u','s','e','r','s','.','c','a','r',
  'd',' ','=',' '] ++ [0x27]
def keyAnd : Bytes := 0x27 :: ascii [' ','A','N','D',' ','k','e','y','s','.','c','a','r','d','i','d',' ','=',' '] ++ [0x27]
def keySelect (card1Str card2Str : Bytes) : Bytes := keyHead ++ card1Str ++ keyAnd ++ card2Str ++ 0x27 :: ascii [')',';']

/- The loop stops at its first row. -/
def checkKeyAccess2 (db : Connection) (time : Int) (card1 card2 : Bytes) : Trace Use Answer :=
  if maxCardLen < card1.length ∨ maxCardLen < card2.length then return ⟨0,[]⟩
  else do
    let card1Str ← sprintfHex cardStrLen hex2 card1 none
    let card2Str ← sprintfHex cardStrLen hex2 card2 none
    let first ← string card1Str
    let second ← string card2Str
    let text ← append [] (keySelect first second)
    if bufSize ≤ text.length then return ⟨0,[]⟩
    else do
      note (.prepare text)
      match db.keyRows text with
      | row :: _ =>
        let userName := row.userName.map db.freed
        if time < columnInt row.expire then return ⟨1,[(.authOk 1 userName card1Str,row.door.map db.freed)]⟩
        else return ⟨0,[(.authErr userName card1Str,card2Str)]⟩
      | [] => return ⟨0,[(.authErr none card1Str,card2Str)]⟩

/- What the controller gets for its questions; a call without a meaning gives it nothing. -/
def userDb (md5 : Md5) (db : Connection) (time : Int) : Database
  | .getAccessMask2 pin card mode doorname => ((getAccessMask2 md5 db time pin card mode doorname).value).getD ⟨0,[]⟩
  | .checkKeyAccess2 card1 card2 => ((checkKeyAccess2 db time card1 card2).value).getD ⟨0,[]⟩

end AccessControl.UserDb
