import AccessControl.DoorTable
import AccessControl.Epso

/-! The EPSO driver of the Roger readers. A poll asks for the input of the reader; the card
comes as a hexadecimal text and the keys as decimal digits up to a colon. -/
namespace AccessControl.ReaderRoger
open BitMask DoorTable Numeral Traced Epso

structure Reader where
  serial : Int
  address : Byte
  deriving DecidableEq, Repr

def storeByte (buf : Bytes) (index : Int) (b : Byte) : Trace Use Bytes :=
  use (.store index 1) (if 0 ≤ index ∧ index < buf.length then some (buf.set index.toNat b) else none)

/- The text from an offset up to its NUL; the walk leaves the buffer before the fuel is out. -/
def textFrom (buf : Bytes) : Nat → Nat → Trace Use Bytes
  | 0, _ => stuck
  | fuel + 1, k => do
    let b ← load (some buf) k
    if b = 0 then return []
    else
      let rest ← textFrom buf fuel (k + 1)
      return b :: rest
def text (buf : Bytes) (k : Nat) : Trace Use Bytes := textFrom buf (buf.length + 1) k

/- `index(bufp, ':')`, by its offset; `none` is the null pointer. -/
def indexFrom (buf : Bytes) (c : Byte) : Nat → Nat → Trace Use (Option Nat)
  | 0, _ => stuck
  | fuel + 1, k => do
    let b ← load (some buf) k
    if b = c then return some k
    else if b = 0 then return none
    else indexFrom buf c fuel (k + 1)
def index (buf : Bytes) (c : Byte) (k : Nat) : Trace Use (Option Nat) := indexFrom buf c (buf.length + 1) k

/- What is new, and the numbers that were set. -/
structure CardPin where
  isNewData : Byte
  card : Option (BitVec 64)
  pin : Option (BitVec 64)
  deriving DecidableEq, Repr

/- The card of a response, and where the pin begins. -/
def cardOf (buf : Bytes) : Trace Use (Bytes × Nat × CardPin) := do
  let status ← load (some buf) 0
  if status = 0x52 then
    let buf ← storeByte buf (1 + 16) 0
    let digits ← text buf 1
    return (buf,18,⟨0x01,some (strtoul 64 16 digits),none⟩)
  else return (buf,1,⟨0,none,none⟩)

/- `w` is the width of `unsigned long`. -/
def pinOf (w : Nat) (buf : Bytes) (bufp : Nat) (found : CardPin) : Trace Use (Bytes × CardPin) := do
  let first ← load (some buf) bufp
  if first ≠ 0x3a then
    let pe ← index buf 0x3a bufp
    match pe with
    | none => use .null none
    | some pe =>
      let buf ← storeByte buf pe 0
      let digits ← text buf bufp
      return (buf,{found with isNewData := found.isNewData ||| 0x02, pin := some ((strtoul w 10 digits).setWidth 64)})
  else return (buf,found)

def readCardPin (w fuel : Nat) (written : Int) (addr : Byte) (buf : Bytes) (line : List Arrival) :
    Trace Use (CardPin × List Arrival) := do
  let (len,out,line) ← epsoWriteRead fuel written addr 0xa5 0x33 (some buf) (BitVec.ofNat 16 bufSize) line
  let buf ← storeByte (out.getD buf) len 0
  if 4 < len then
    let (buf,bufp,found) ← cardOf buf
    let (_,found) ← pinOf w buf bufp found
    return (found,line)
  else return (⟨0,none,none⟩,line)

/- The bytes of a number as they lie in the memory of the controller, the low one first. -/
def memory (x : BitVec 64) (count : Nat) : Bytes := (List.range count).map fun k => (x >>> (8 * k)).setWidth 8

/- A number that was not set is used as the stack left it. -/
structure Locals where
  dataBuf : Bytes
  cardNum : BitVec 64
  pinNum : BitVec 64
  size : dataBuf.length = bufSize

def getReaderData (w fuel : Nat) (written : Int) (reader : Reader) (database : Database) (line : List Arrival) (locals : Locals) :
    Trace Use (List Callback × List Arrival) := do
  let (found,line) ← readCardPin w fuel written reader.address locals.dataBuf line
  let cardNum := found.card.getD locals.cardNum
  let pinNum := found.pin.getD locals.pinNum
  if flag 0x01 found.isNewData then
    let dataLen := if cardNum &&& 0x00ffffff00000000 != 0 then 7 else 4
    return ([⟨memory cardNum dataLen,.dataIsCard,.dataOk,database⟩],line)
  else if flag 0x02 found.isNewData then
    return ([⟨signed pinNum.toInt,.dataIsPin,.dataOk,database⟩],line)
  else return ([],line)

end AccessControl.ReaderRoger
