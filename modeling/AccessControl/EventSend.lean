import AccessControl.DoorTable
import AccessControl.Numeral
import AccessControl.Traced

/-! Reporting an event: one `wget` handed to the shell, built piece by piece in a buffer. A
null text is printed as `(null)`; the table of names is shorter than the events. -/
namespace AccessControl.EventSend
open BitMask DoorTable Numeral Traced

def bufSize : Nat := 256

/- The place of an event in the enumeration, and the table of its names. -/
def eventType : Event → Nat
  | .authOk .. => 0
  | .authErr .. => 1
  | .authErrExpire .. => 2
  | .authErrPin .. => 3
  | .manualOpen => 4
  | .doorUnlock .. => 5
  | .doorLock .. => 6
  | .doorIsOpen => 7
  | .doorIsClose => 8
  | .doorIsUnlock => 9
  | .doorIsLock => 10
  | .doorEmergencyActive => 11
  | .doorEmergencyInactive => 12
  | .doorOpenAlarm .. => 13
  | .remoteCtrl .. => 14

def eventNames : List Bytes := [
  ascii ['a','u','t','h','_','o','k'],
  ascii ['a','u','t','h','_','e','r','r'],
  ascii ['a','u','t','h','_','e','r','r','_','e','x','p','i','r','e'],
  ascii ['a','u','t','h','_','e','r','r','_','p','i','n'],
  ascii ['m','a','n','u','a','l','_','o','p','e','n'],
  ascii ['d','o','o','r','_','u','n','l','o','c','k'],
  ascii ['d','o','o','r','_','l','o','c','k'],
  ascii ['d','o','o','r','_','i','s','_','o','p','e','n'],
  ascii ['d','o','o','r','_','i','s','_','c','l','o','s','e'],
  ascii ['d','o','o','r','_','i','s','_','u','n','l','o','c','k'],
  ascii ['d','o','o','r','_','i','s','_','l','o','c','k'],
  ascii ['d','o','o','r','_','e','m','e','r','g','e','n','c','y','_','a','c','t','i','v','e'],
  ascii ['d','o','o','r','_','e','m','e','r','g','e','n','c','y','_','i','n','a','c','t','i','v','e'],
  ascii ['d','o','o','r','_','o','p','e','n','_','a','l','a','r','m']]

/- A look into the table of names, one `snprintf` with its offset and the room it is given, and
a text that is searched. -/
inductive Use where
  | name (index : Nat)
  | append (offset : Nat) (room : Int)
  | search (text : Option Bytes)
  deriving DecidableEq, Repr

/- A room below zero becomes the greatest size there is. -/
def append (text piece : Bytes) : Trace Use Bytes := do
  use (.append text.length (bufSize - text.length)) (if text.length ≤ bufSize then some () else none)
  return text ++ piece

def shown (text : Option Bytes) : Bytes := text.getD (ascii ['(','n','u','l','l',')'])

def opening : Bytes := ascii ['w','g','e','t',' ','-','q',' ','-','O',' ','/','d','e','v','/','n','u','l','l',' '] ++ [0x27]
def closing : Bytes := 0x27 :: ascii [' ','&']
def http : Bytes := ascii ['h','t','t','p',':','/','/']
def eventQuery : Bytes := ascii ['/','e','v','e','n','t','?','t','y','p','e','=']
def doorMaskArg (mask : Mask) : Bytes := ascii ['&','d','o','o','r','_','m','a','s','k','='] ++ signed mask.toInt
def userArg (user : Option Bytes) : Bytes := ascii ['&','u','s','e','r','='] ++ shown user
def cardArg (card : Option Bytes) : Bytes := ascii ['&','c','a','r','d','='] ++ shown card
def remoteArg (type action arg : Option Bytes) : Bytes :=
  ascii ['&','t','y','p','e','='] ++ shown type ++ ascii ['&','a','c','t','i','o','n','='] ++ shown action ++ ascii ['&','a','r','g','='] ++ shown arg

def appendMask (mask : Mask) (door : Option Bytes) (text : Bytes) : Trace Use Bytes := do
  let name ← use (.search door) door
  if 0x25 ∈ name then append text (doorMaskArg mask) else return text

/- What that adds to the text. -/
def maskText (mask : Mask) (door : Option Bytes) : Bytes := if 0x25 ∈ door.getD [] then doorMaskArg mask else []

def appendUser (user : Option Bytes) (text : Bytes) : Trace Use Bytes :=
  if user.isSome then append text (userArg user) else return text

/- The `switch` over the event, without what it logs. -/
def details (event : Event) (door : Option Bytes) (text : Bytes) : Trace Use Bytes :=
  match event with
  | .authOk mask user card => do
    let text ← appendMask mask door text
    append text (userArg user ++ cardArg card)
  | .authErr user card | .authErrExpire user card | .authErrPin user card => do
    let text ← appendUser user text
    append text (cardArg card)
  | .doorUnlock mask | .doorLock mask => appendMask mask door text
  | .remoteCtrl type action arg => append text (remoteArg type action arg)
  | _ => return text

/- `past` is what a look behind the end of the table finds. -/
def greeting (past : Option Bytes) (event : Event) : Option Bytes → Trace Use Bytes
  | none => return []
  | some host => do
    let name ← use (.name (eventType event)) ((eventNames[eventType event]?).or past)
    append [] (opening ++ http ++ host ++ eventQuery ++ name)

/- What is passed to `system`. -/
def sendEvent (eventHost past : Option Bytes) (event : Event) (door : Option Bytes) : Trace Use (Option Bytes) := do
  let text ← greeting past event eventHost
  if bufSize ≤ text.length then return none
  else do
    let text ← details event door text
    if bufSize ≤ text.length then return none
    else do
      let text ← append text closing
      return if bufSize ≤ text.length ∨ eventHost = none then none else some text

end AccessControl.EventSend
