import AccessControl.ConfigFile
import AccessControl.OsdpFrame
import AccessControl.ReaderIdesco

/-! The lamp and the buzzer of an OSDP reader. One packet on the stack serves for every frame
of a signal and for the answers between them. -/
namespace AccessControl.OsdpSignal
open BitMask DoorTable CrcTable Traced OsdpPacket OsdpFrame ReaderIdesco
open ConfigFile (charValue)

def osdpLED : Byte := 0x69
def osdpBUZ : Byte := 0x6a

def black : Byte := 0
def red : Byte := 1
def green : Byte := 2
def amber : Byte := 3

def signalCode : Signal → Byte
  | .ok => 0x10
  | .doorOpen => 0x11
  | .doorLock => 0x12
  | .err => 0x20
  | .errAuth => 0x21
  | .errUsage => 0x22
  | .errComm => 0x23
  | .pin => 0x41
  | .pinQuiet => 0x42
  | .blocked => 0x81
  | .unblocked => 0x82

def ledset (packet : Packet) (address lednum color : Byte) (blink : Bool) (blinkTime : BitVec 32) : Trace Use Packet :=
  let ledy : Vector Byte 14 := #v[0,lednum,0,0,0,0,0,0,0,0,0,0,0,0]
  let ledy :=
    if blinkTime ≠ 0 then
      let ledy := (((ledy.set 2 2).set 3 1).set 4 1).set 5 color
      let ledy := (ledy.set 7 (blinkTime.setWidth 8)).set 8 ((blinkTime.sshiftRight 8).setWidth 8)
      if blink then ledy else ledy.set 6 color
    else
      let ledy := (((ledy.set 2 1).set 9 1).set 10 1).set 11 1
      let ledy := ledy.set 12 color
      if blink then ledy else ledy.set 13 color
  fillPacket packet address osdpLED ledy.toList

def beepset (packet : Packet) (address onTime offTime count : Byte) : Trace Use Packet :=
  fillPacket packet address osdpBUZ [0,2,onTime,offTime,count]

/- The packet, the frames written so far and what the line has for the reads to come. -/
structure Wire where
  packet : Packet
  sent : List Bytes
  reads : List (Option Delivered)

/- `send_packet`, the pause and `recv_packet`, whose results nobody looks at. -/
def exchange (fill : Packet → Trace Use Packet) (w : Wire) : Trace Use Wire := do
  let packet ← fill w.packet
  let sent := w.sent ++ [packet.data.bytes.take packet.len.toNat]
  let (_,packet) := recvPacket (w.reads.headD none) packet
  return ⟨packet,sent,w.reads.tail⟩

def led (reader : Reader) (lednum color : Byte) (blink : Bool) (blinkTime : BitVec 32) (w : Wire) : Trace Use Wire :=
  exchange (fun packet => ledset packet reader.address lednum color blink blinkTime) w
def beep (reader : Reader) (onTime offTime count : Byte) (w : Wire) : Trace Use Wire :=
  exchange (fun packet => beepset packet reader.address onTime offTime count) w

/- `case` of a `switch` over a `char`. -/
def isCase (unsignedChar : Bool) (signal : Byte) (s : Signal) : Bool := charValue unsignedChar signal == (signalCode s).toNat

def readerSignal (unsignedChar : Bool) (signal : Byte) (reader : Reader) (w : Wire) : Trace Use Wire :=
  let is := isCase unsignedChar signal
  if is .ok then do
    let w ← led reader 1 green false 48 w
    beep reader 1 1 1 w
  else if is .doorOpen then do
    let w ← led reader 1 green false 0 w
    beep reader 1 1 1 w
  else if is .doorLock then led reader 1 black false 0 w
  else if is .err || is .errAuth || is .errUsage || is .errComm then do
    let w ← led reader 1 red true 24 w
    beep reader 3 1 3 w
  else if is .pin then do
    let w ← led reader 1 amber true 12 w
    beep reader 1 1 2 w
  else if is .pinQuiet then led reader 1 amber true 12 w
  else if is .blocked then do
    let w ← led reader 2 amber true 0 w
    led reader 1 amber true 0 w
  else if is .unblocked then do
    let w ← led reader 2 black false 0 w
    led reader 1 black true 0 w
  else return w

/- What a reader is told: a lamp for a time, with the color of each half of its cycle, a lamp
from now on, or beeps. -/
inductive Command where
  | flash (lednum color offColor : Byte) (time : BitVec 16)
  | light (lednum color offColor : Byte)
  | beep (onTime offTime count : Byte)
  deriving DecidableEq, Repr

/- The message of a command as OSDP lays it out, its code, and the way back. -/
def Command.message : Command → Bytes
  | .flash lednum color offColor time => [0,lednum,2,1,1,color,offColor,low time,high time,0,0,0,0,0]
  | .light lednum color offColor => [0,lednum,1,0,0,0,0,0,0,1,1,1,color,offColor]
  | .beep onTime offTime count => [0,2,onTime,offTime,count]

def Command.code : Command → Byte
  | .flash .. => osdpLED
  | .light .. => osdpLED
  | .beep .. => osdpBUZ

def decodeMessage (code : Byte) (message : Bytes) : Option Command :=
  if code = osdpLED then
    match message with
    | [0,lednum,2,1,1,color,offColor,lower,upper,0,0,0,0,0] => some (.flash lednum color offColor (word upper lower))
    | [0,lednum,1,0,0,0,0,0,0,1,1,1,color,offColor] => some (.light lednum color offColor)
    | _ => none
  else if code = osdpBUZ then
    match message with
    | [0,2,onTime,offTime,count] => some (.beep onTime offTime count)
    | _ => none
  else none

/- A frame as a reader on the bus takes it: whole, under its own CRC, with its address. -/
def openFrame (bytes : Bytes) : Option (Byte × Byte × Bytes) :=
  match bytes with
  | start :: address :: lower :: upper :: control :: code :: rest =>
    let crc := crcOf (bytes.take (bytes.length - 2))
    if start = 0x53 ∧ control = 0x04 ∧ bytes.length = (word upper lower).toNat ∧ rest.drop (rest.length - 2) = [low crc,high crc] then
      some (address,code,rest.take (rest.length - 2))
    else none
  | _ => none

def decodeFrame (bytes : Bytes) : Option (Byte × Command) := do
  let (address,code,data) ← openFrame bytes
  let command ← decodeMessage code data
  return (address,command)

def ledCommand (lednum color : Byte) (blink : Bool) (blinkTime : BitVec 32) : Command :=
  if blinkTime ≠ 0 then .flash lednum color (if blink then 0 else color) (blinkTime.setWidth 16)
  else .light lednum color (if blink then 0 else color)

def commandFrame (address : Byte) (command : Command) : Bytes := frame address command.code command.message

section
variable {address : Byte} {command : Command}

theorem timeBytes (time : BitVec 32) : low (time.setWidth 16) = time.setWidth 8 ∧ high (time.setWidth 16) = (time.sshiftRight 8).setWidth 8 := by
  refine ⟨?_,?_⟩
  · apply BitVec.eq_of_getLsbD_eq
    intro i small
    simp only [low,BitVec.getLsbD_setWidth,small,decide_true,Bool.true_and,show i < 16 by omega]
  · apply BitVec.eq_of_getLsbD_eq
    intro i small
    simp only [high,BitVec.getLsbD_setWidth,BitVec.getLsbD_ushiftRight,BitVec.getLsbD_sshiftRight,small,decide_true,Bool.true_and,
      show 8 + i < 16 by omega,show ¬ 32 ≤ i by omega,show 8 + i < 32 by omega,decide_false,Bool.not_false,if_true]

theorem messageRoom (command : Command) : command.message.length ≤ 56 := by
  cases command <;> simp [Command.message]

theorem ledMessage (packet : Packet) (lednum color : Byte) (blink : Bool) (blinkTime : BitVec 32) :
    ledset packet address lednum color blink blinkTime =
      fillPacket packet address (ledCommand lednum color blink blinkTime).code (ledCommand lednum color blink blinkTime).message := by
  obtain ⟨lower,upper⟩ := timeBytes blinkTime
  by_cases steady : blinkTime = 0
  · have none : ¬ blinkTime ≠ 0 := fun h => h steady
    simp only [ledset,ledCommand,if_neg none]
    cases blink <;> rfl
  · simp only [ledset,ledCommand,if_pos steady,Command.message,lower,upper]
    cases blink <;> rfl

theorem beepMessage (packet : Packet) (onTime offTime count : Byte) : beepset packet address onTime offTime count =
    fillPacket packet address (Command.beep onTime offTime count).code (Command.beep onTime offTime count).message := rfl

/- Whatever lay in the packet, the frame of the command goes out. -/
theorem exchangeSends {fill : Packet → Trace Use Packet} (w : Wire)
    (fills : ∀ packet, fill packet = fillPacket packet address command.code command.message) :
    ∃ after, (exchange fill w).value = some after ∧ after.sent = w.sent ++ [commandFrame address command] := by
  obtain ⟨sent,built,len,bytes⟩ := fillBuilds w.packet address command.code (messageRoom command)
  have size : sent.len.toNat = command.message.length + 8 := by
    have room := messageRoom command
    rw [len,BitVec.toNat_ofNat]
    omega
  have out : sent.data.bytes.take sent.len.toNat = commandFrame address command := by
    rw [size,bytes]
    exact List.take_left' frameLength
  rw [exchange,fills,valueBind,built]
  exact ⟨_,rfl,by rw [out]⟩

theorem openSelf {code : Byte} {data : Bytes} (room : data.length ≤ 56) : openFrame (frame address code data) = some (address,code,data) := by
  have size : (frame address code data).length = data.length + 8 := frameLength
  have front : (frame address code data).take ((frame address code data).length - 2) = covered address code data := by
    rw [size,frame]
    exact List.take_left' coveredLength
  generalize sealed : [low (crcOf (covered address code data)),high (crcOf (covered address code data))] = crc
  have shape : frame address code data = 0x53 :: address :: low (BitVec.ofNat 16 (data.length + 8)) ::
      high (BitVec.ofNat 16 (data.length + 8)) :: 0x04 :: code :: (data ++ crc) := by
    rw [frame,sealed]
    rfl
  have two : (data ++ crc).length - 2 = data.length := by
    rw [List.length_append,← sealed]
    rfl
  have declared : (word (high (BitVec.ofNat 16 (data.length + 8))) (low (BitVec.ofNat 16 (data.length + 8)))).toNat = data.length + 8 := by
    rw [wordSplit,BitVec.toNat_ofNat]
    omega
  rw [shape] at front size ⊢
  rw [size] at front
  simp only [openFrame,front,sealed,two,List.drop_left,List.take_left,declared,size,and_self,if_true]

theorem decodeSelf (command : Command) : decodeMessage command.code command.message = some command := by
  cases command with
  | flash lednum color offColor time =>
    have split := wordSplit time
    show some (Command.flash lednum color offColor (word (high time) (low time))) = _
    rw [split]
  | light lednum color offColor => rfl
  | beep onTime offTime count => rfl

theorem decodeCommand (address : Byte) (command : Command) : decodeFrame (commandFrame address command) = some (address,command) := by
  rw [decodeFrame,commandFrame,openSelf (messageRoom command)]
  show (decodeMessage command.code command.message).bind _ = _
  rw [decodeSelf]
  rfl

theorem ledSends (reader : Reader) (lednum color : Byte) (blink : Bool) (blinkTime : BitVec 32) (w : Wire) :
    ∃ after, (led reader lednum color blink blinkTime w).value = some after ∧
      after.sent = w.sent ++ [commandFrame reader.address (ledCommand lednum color blink blinkTime)] :=
  exchangeSends w fun packet => ledMessage packet lednum color blink blinkTime

theorem beepSends (reader : Reader) (onTime offTime count : Byte) (w : Wire) :
    ∃ after, (beep reader onTime offTime count w).value = some after ∧
      after.sent = w.sent ++ [commandFrame reader.address (.beep onTime offTime count)] :=
  exchangeSends w fun packet => beepMessage packet onTime offTime count

end

/- What each signal is to show. -/
def commands : Signal → List Command
  | .ok => [.flash 1 green green 48,.beep 1 1 1]
  | .doorOpen => [.light 1 green green,.beep 1 1 1]
  | .doorLock => [.light 1 black black]
  | .err | .errAuth | .errUsage | .errComm => [.flash 1 red black 24,.beep 3 1 3]
  | .pin => [.flash 1 amber black 12,.beep 1 1 2]
  | .pinQuiet => [.flash 1 amber black 12]
  | .blocked => [.light 2 amber black,.light 1 amber black]
  | .unblocked => [.light 2 black black,.light 1 black black]

/- A signal from 0x80 on is negative where `char` has a sign, and no case is. -/
def shown (unsignedChar : Bool) (s : Signal) : List Command :=
  if unsignedChar ∨ (signalCode s).toNat < 0x80 then commands s else []

/- The frames that went out beyond those of `before`, as readers take them. -/
def Sends (before after : Wire) (told : List (Byte × Command)) : Prop :=
  ∃ frames, after.sent = before.sent ++ frames ∧ frames.map decodeFrame = told.map some

theorem sendsOne {before after : Wire} {address : Byte} {command : Command}
    (sent : after.sent = before.sent ++ [commandFrame address command]) : Sends before after [(address,command)] :=
  ⟨_,sent,by rw [List.map_singleton,decodeCommand]; rfl⟩

theorem sendsBoth {before between after : Wire} {told more : List (Byte × Command)} (first : Sends before between told)
    (second : Sends between after more) : Sends before after (told ++ more) := by
  obtain ⟨frames,sent,decoded⟩ := first
  obtain ⟨later,sent',decoded'⟩ := second
  exact ⟨frames ++ later,by rw [sent',sent,List.append_assoc],by rw [List.map_append,List.map_append,decoded,decoded']⟩

section
variable {reader : Reader} {w : Wire}

/- One frame and then another; the answer between them lies in the packet of the second. -/
theorem twoSends {first second : Wire → Trace Use Wire} {one two : Command}
    (each : ∀ w, ∃ after, (first w).value = some after ∧ after.sent = w.sent ++ [commandFrame reader.address one])
    (next : ∀ w, ∃ after, (second w).value = some after ∧ after.sent = w.sent ++ [commandFrame reader.address two]) :
    ∃ after, (first w >>= second).value = some after ∧ Sends w after [(reader.address,one),(reader.address,two)] := by
  obtain ⟨between,value,sent⟩ := each w
  obtain ⟨after,value',sent'⟩ := next between
  rw [valueBind,value]
  exact ⟨after,value',sendsBoth (sendsOne sent) (sendsOne sent')⟩

theorem oneSends {first : Wire → Trace Use Wire} {one : Command}
    (each : ∀ w, ∃ after, (first w).value = some after ∧ after.sent = w.sent ++ [commandFrame reader.address one]) :
    ∃ after, (first w).value = some after ∧ Sends w after [(reader.address,one)] := by
  obtain ⟨after,value,sent⟩ := each w
  exact ⟨after,value,sendsOne sent⟩

end

/- Whatever the reader answers in between and whatever the packet held, a signal of the
controller tells the reader what the signal is to show, in frames it accepts; where `char` has
a sign the two signals of a blocked door tell it nothing. -/
theorem signalsShown (unsignedChar : Bool) (signal : Signal) (reader : Reader) (w : Wire) :
    ∃ after, (readerSignal unsignedChar (signalCode signal) reader w).value = some after ∧
      Sends w after ((shown unsignedChar signal).map fun command => (reader.address,command)) := by
  have nothing : Sends w w [] := ⟨[],(List.append_nil _).symm,rfl⟩
  cases unsignedChar with
  | true =>
    cases signal with
    | ok => exact twoSends (fun w => ledSends reader 1 green false 48 w) fun w => beepSends reader 1 1 1 w
    | doorOpen => exact twoSends (fun w => ledSends reader 1 green false 0 w) fun w => beepSends reader 1 1 1 w
    | doorLock => exact oneSends fun w => ledSends reader 1 black false 0 w
    | err | errAuth | errUsage | errComm => exact twoSends (fun w => ledSends reader 1 red true 24 w) fun w => beepSends reader 3 1 3 w
    | pin => exact twoSends (fun w => ledSends reader 1 amber true 12 w) fun w => beepSends reader 1 1 2 w
    | pinQuiet => exact oneSends fun w => ledSends reader 1 amber true 12 w
    | blocked => exact twoSends (fun w => ledSends reader 2 amber true 0 w) fun w => ledSends reader 1 amber true 0 w
    | unblocked => exact twoSends (fun w => ledSends reader 2 black false 0 w) fun w => ledSends reader 1 black true 0 w
  | false =>
    cases signal with
    | ok => exact twoSends (fun w => ledSends reader 1 green false 48 w) fun w => beepSends reader 1 1 1 w
    | doorOpen => exact twoSends (fun w => ledSends reader 1 green false 0 w) fun w => beepSends reader 1 1 1 w
    | doorLock => exact oneSends fun w => ledSends reader 1 black false 0 w
    | err | errAuth | errUsage | errComm => exact twoSends (fun w => ledSends reader 1 red true 24 w) fun w => beepSends reader 3 1 3 w
    | pin => exact twoSends (fun w => ledSends reader 1 amber true 12 w) fun w => beepSends reader 1 1 2 w
    | pinQuiet => exact oneSends fun w => ledSends reader 1 amber true 12 w
    | blocked => exact ⟨w,rfl,nothing⟩
    | unblocked => exact ⟨w,rfl,nothing⟩

end AccessControl.OsdpSignal
