import AccessControl.DoorTable
import AccessControl.OsdpPacket

/-! The OSDP driver of the Idesco readers. It polls, parses the answer and acts on the
response structure, whatever the parser said of the answer. -/
namespace AccessControl.ReaderIdesco
open BitMask DoorTable CrcTable Traced OsdpPacket

def maxPinLen : Nat := 28
def cardIdOffset : Nat := 4

/- The position never leaves the buffer, so that its terminator fits. -/
structure Reader where
  serial : Int
  useRs485Te : Bool
  address : Byte
  pinBuf : Bytes
  pinBufPos : Nat
  codeTimeout : Int
  whole : pinBuf.length = maxPinLen + 1
  inside : pinBufPos ≤ maxPinLen
  deriving DecidableEq, Repr

inductive Action where
  | sendPacket (data : Bytes)
  | processUserInfo (callback : Callback)
  | tcflush
  | portsetup

/- The serial line during one poll: the answer, and the descriptor if the port is opened again. -/
structure Line where
  read : Option Delivered
  reopened : Option Int

/- The locals of one call as the stack left them. -/
structure Locals where
  packet : Packet
  answer : Packet
  res : Response

def clearPin (reader : Reader) : Reader := {reader with pinBufPos := 0, inside := Nat.zero_le _}

def putPin (reader : Reader) (value : Byte) (room : reader.pinBufPos < maxPinLen) : Reader :=
  {reader with pinBuf := reader.pinBuf.set reader.pinBufPos value, pinBufPos := reader.pinBufPos + 1,
               whole := by rw [List.length_set]; exact reader.whole, inside := room}

def endPin (reader : Reader) : Reader :=
  {reader with pinBuf := reader.pinBuf.set reader.pinBufPos 0, whole := by rw [List.length_set]; exact reader.whole}

def clearReaderData (reader : Reader) : Reader := {clearPin reader with codeTimeout := 0}

/- `process_user_info(reader->pin_buf, reader->pin_buf_pos, DATA_IS_PIN, mode, ..)` -/
def pinInfo (reader : Reader) (mode : DataMode) (database : Database) : Action :=
  .processUserInfo ⟨reader.pinBuf.take reader.pinBufPos,.dataIsPin,mode,database⟩

def keyPress (reader : Reader) (database : Database) (value : Byte) : Reader × List Action :=
  if value = 0x7f then (clearPin reader,[])
  else if value = 0x0d then
    let reader := endPin reader
    (clearPin reader,[pinInfo reader .dataOk database])
  else if room : reader.pinBufPos < maxPinLen then (putPin reader value room,[])
  else (putPin (clearPin reader) value (show 0 < maxPinLen by decide),[pinInfo reader .dataOutOfBuf database])

def keypad (reader : Reader) (inputTimeout : Int) (database : Database) (res : Response) : Trace Use (Reader × List Action) :=
  forUp (fun i (reader,actions) => do
    let value ← load .payload res.payload i
    let (reader,calls) := keyPress reader database value
    return ({reader with codeTimeout := inputTimeout},actions ++ calls)) res.payloadlen.toNat 0 (reader,[])

def acknowledge (reader : Reader) (inputTimeout : Int) (database : Database) : Reader × List Action :=
  if 0 < reader.pinBufPos then
    if 0 < reader.codeTimeout then ({reader with codeTimeout := reader.codeTimeout - 1},[])
    else if inputTimeout ≠ 0 then (clearPin reader,[pinInfo reader .dataTimeout database])
    else (reader,[])
  else (reader,[])

/- The bytes of a card are handed over as they stand in the payload. -/
def card (reader : Reader) (database : Database) (res : Response) : Trace Use (Reader × List Action) :=
  if cardIdOffset < res.payloadlen.toNat then do
    let data ← forUp (fun i data => do
      let b ← load .payload res.payload (cardIdOffset + i)
      return data ++ [b]) (res.payloadlen.toNat - cardIdOffset) 0 []
    return (clearPin reader,[.processUserInfo ⟨data,.dataIsCard,.dataOk,database⟩])
  else return (clearPin reader,[])

/- The switch on the response code; a keypad reply falls through to the acknowledge. -/
def react (reader : Reader) (inputTimeout : Int) (database : Database) (res : Response) : Trace Use (Reader × List Action) :=
  if res.response = osdpRAW then card reader database res
  else if res.response = osdpKPD then do
    let (reader,calls) ← keypad reader inputTimeout database res
    let (reader,late) := acknowledge reader inputTimeout database
    return (reader,calls ++ late)
  else if res.response = osdpACK then return acknowledge reader inputTimeout database
  else return (reader,[])

def getReaderData (reader : Reader) (inputTimeout : Int) (database : Database) (line : Line) (locals : Locals) :
    Trace Use (Reader × List Action) := do
  let packet ← fillPacket locals.packet reader.address osdpPOLL []
  let sent := Action.sendPacket (packet.data.bytes.take packet.len.toNat)
  let (ok,answer) := recvPacket line.read locals.answer
  if ok then
    let (_,_,res) ← processPacket answer locals.res
    let (reader,actions) ← react reader inputTimeout database res
    return (reader,sent :: actions)
  else
    match line.reopened with
    | none => return (reader,[sent,.tcflush])
    | some serial => return ({reader with serial := serial},[sent,.tcflush,.portsetup])

end AccessControl.ReaderIdesco
