import AccessControl.CrcTable
import AccessControl.Traced
import Mathlib.Data.List.GetD

/-! OSDP packets as the serial line delivers them: `read` fills the front of a buffer
that keeps the rest of the poll before. An index outside its array has no meaning. -/
namespace AccessControl.OsdpPacket
open BitMask CrcTable Traced

def packetLen : Nat := 64

structure Buffer where
  bytes : Bytes
  size : bytes.length = packetLen
  deriving DecidableEq, Repr

def clear : Buffer := ⟨List.replicate packetLen 0,List.length_replicate ..⟩

structure Packet where
  len : BitVec 32
  data : Buffer
  deriving DecidableEq, Repr

structure Response where
  response : Byte
  payloadlen : Byte
  payload : Buffer
  deriving DecidableEq, Repr

/- An index of `packet->data` or of `response->payload`, and a difference taken from the length. -/
inductive Use where
  | data (index : Nat)
  | payload (index : Nat)
  | minus (len amount : Nat)
  deriving DecidableEq, Repr

def Inside : Use → Prop
  | .data i => i < packetLen
  | .payload i => i < packetLen
  | .minus _ _ => True

def load (place : Nat → Use) (b : Buffer) (i : Nat) : Trace Use Byte := use (place i) b.bytes[i]?

def Buffer.set (b : Buffer) (i : Nat) (v : Byte) : Buffer := ⟨b.bytes.set i v,by rw [List.length_set]; exact b.size⟩

@[simp] theorem setBytes (b : Buffer) (i : Nat) (v : Byte) : (b.set i v).bytes = b.bytes.set i v := rfl

def store (place : Nat → Use) (b : Buffer) (i : Nat) (v : Byte) : Trace Use Buffer :=
  use (place i) (if i < packetLen then some (b.set i v) else none)

def minus (len : BitVec 32) (amount : Nat) : Trace Use (BitVec 32) := do
  note (.minus len.toNat amount)
  return len - BitVec.ofNat 32 amount

def osdpPOLL : Byte := 0x60
def osdpACK : Byte := 0x40
def osdpNACK : Byte := 0x41
def osdpRAW : Byte := 0x50
def osdpKPD : Byte := 0x53
def osdpCOM : Byte := 0x54

def fCrcBlk (pData : Buffer) (nLength : BitVec 16) : Trace Use (BitVec 16) :=
  forUp (fun ii nCrc => do
    let data ← load .data pData ii
    return crcByte nCrc data) nLength.toNat 0 0x1D0F

/- `memcpy(response->payload, packet->data+offset, count)`. -/
def memcpy (payload data : Buffer) (offset count : Nat) : Trace Use Buffer :=
  forUp (fun i payload => do
    let b ← load .data data (offset + i)
    store .payload payload i b) count 0 payload

def rawReply (packet : Packet) (response : Response) : Trace Use (Bool × Packet × Response) := do
  let count ← minus packet.len 8
  let payload ← memcpy response.payload packet.data 6 count.toNat
  let payloadlen ← minus packet.len 8
  let response := {response with payload := payload, payloadlen := payloadlen.setWidth 8}
  return (true,packet,response)

def keypadReply (packet : Packet) (response : Response) : Trace Use (Bool × Packet × Response) := do
  let pinlen ← load .data packet.data 7
  let payload ← memcpy response.payload packet.data 8 pinlen.toNat
  let response := {response with payload := payload, payloadlen := pinlen}
  return (true,packet,response)

def reply (packet : Packet) (response : Response) : Trace Use (Bool × Packet × Response) := do
  let code ← load .data packet.data 5
  if code = osdpACK ∨ code = osdpNACK then return (true,packet,response)
  else if code = osdpRAW then rawReply packet response
  else if code = osdpKPD then keypadReply packet response
  else if code = osdpCOM then rawReply packet response
  else return (false,packet,response)

/- The comparison in `process_packet`, for a packet whose length is set. -/
def crcOk (packet : Packet) : Trace Use Bool := do
  let nLength ← minus packet.len 2
  let crc ← fCrcBlk packet.data (nLength.setWidth 16)
  let last ← minus packet.len 1
  let upper ← load .data packet.data last.toNat
  let last ← minus packet.len 2
  let lower ← load .data packet.data last.toNat
  return crc == word upper lower

def processPacket (packet : Packet) (response : Response) : Trace Use (Bool × Packet × Response) := do
  let upper ← load .data packet.data 3
  let lower ← load .data packet.data 2
  let packet := {packet with len := (word upper lower).setWidth 32}
  let ok ← crcOk packet
  if ok then
    let code ← load .data packet.data 5
    reply packet {response with payloadlen := 0, response := code}
  else return (false,packet,response)

/- What `read` gives for the whole buffer, at most `PACKETLEN` bytes; `none` is an error. -/
structure Delivered where
  bytes : Bytes
  fits : bytes.length ≤ packetLen
  deriving DecidableEq, Repr

def received (d : Delivered) (before : Buffer) : Buffer :=
  ⟨d.bytes ++ before.bytes.drop d.bytes.length,by
    have fits := d.fits
    rw [List.length_append,List.length_drop,before.size]
    omega⟩

def recvPacket (read : Option Delivered) (packet : Packet) : Bool × Packet :=
  match read with
  | none => (false,packet)
  | some d =>
    if d.bytes = [] then (false,packet)
    else
      let packet := ⟨BitVec.ofNat 32 d.bytes.length,received d packet.data⟩
      (packet.data.bytes.head? == some 0x53,packet)

/- A poll's answer as the driver takes it: parsed only if it was received. -/
def receivePacket (read : Option Delivered) (answer : Packet) (response : Response) : Trace Use (Bool × Packet × Response) :=
  let (ok,answer) := recvPacket read answer
  if ok then processPacket answer response else return (false,answer,response)

def crclenPacket (packet : Packet) : Trace Use Packet := do
  let packet := {packet with len := packet.len + 2}
  let data ← store .data packet.data 2 (packet.len.setWidth 8)
  let data ← store .data data 3 ((packet.len.ushiftRight 8).setWidth 8)
  let nLength ← minus packet.len 2
  let crc ← fCrcBlk data (nLength.setWidth 16)
  let next ← minus packet.len 2
  let data ← store .data data next.toNat (low crc)
  let last ← minus packet.len 1
  let data ← store .data data last.toNat (high crc)
  return {packet with data := data}

/- `datalen` is the length of `data`. -/
def fillPacket (packet : Packet) (address command : Byte) (data : Bytes) : Trace Use Packet := do
  let buffer ← store .data packet.data 0 0x53
  let buffer ← store .data buffer 1 address
  let buffer ← store .data buffer 2 0x0
  let buffer ← store .data buffer 3 0x0
  let buffer ← store .data buffer 4 0x04
  let buffer ← store .data buffer 5 command
  let buffer ← forUp (fun i buffer => store .data buffer (6 + i) (data.getD i 0)) data.length 0 buffer
  crclenPacket ⟨BitVec.ofNat 32 (6 + data.length),buffer⟩

/- The length a buffer's header declares, and the check that the packet's CRC makes. -/
def Buffer.at (b : Buffer) (i : Nat) : Byte := b.bytes.getD i 0
def declared (b : Buffer) : Nat := (word (b.at 3) (b.at 2)).toNat
def Checked (b : Buffer) : Prop :=
  crcOf (b.bytes.take (declared b - 2)) = word (b.at (declared b - 1)) (b.at (declared b - 2))
instance (b : Buffer) : Decidable (Checked b) := by unfold Checked; infer_instance

def processed (packet : Packet) : Packet := {packet with len := (word (packet.data.at 3) (packet.data.at 2)).setWidth 32}
def copied (payload data : Buffer) (offset count : Nat) : Buffer :=
  up (fun i payload => payload.set i (data.at (offset + i))) count 0 payload

section
variable {b payload data : Buffer} {packet : Packet} {response : Response}

theorem loadValue (place) (b : Buffer) (i : Nat) : (load place b i).value = if i < packetLen then some (b.at i) else none := by
  unfold load Buffer.at
  rw [valueUse]
  by_cases inside : i < packetLen
  · have bound : i < b.bytes.length := by rw [b.size]; exact inside
    rw [if_pos inside,List.getElem?_eq_getElem bound,List.getD_eq_getElem _ _ bound]
  · rw [if_neg inside,List.getElem?_eq_none]
    rw [b.size]
    omega

theorem loadSome (place) (b : Buffer) {i : Nat} (inside : i < packetLen) : (load place b i).value = some (b.at i) :=
  (loadValue place b i).trans (if_pos inside)

@[simp] theorem storeValue (place) (b : Buffer) (i : Nat) (v : Byte) :
    (store place b i v).value = if i < packetLen then some (b.set i v) else none := rfl

@[simp] theorem minusValue (len : BitVec 32) (amount : Nat) : (minus len amount).value = some (len - BitVec.ofNat 32 amount) := by
  simp [minus]

theorem crcValue (b : Buffer) (nLength : BitVec 16) : (fCrcBlk b nLength).value =
    if nLength.toNat ≤ packetLen then some (crcOf (b.bytes.take nLength.toNat)) else none := by
  have turn : ∀ ii nCrc, (do let data ← load .data b ii; return crcByte nCrc data : Trace Use (BitVec 16)).value =
      if ii < packetLen then some (crcByte nCrc (b.at ii)) else none := by
    intro ii nCrc
    rw [valueBind,loadValue]
    split <;> rfl
  rw [fCrcBlk,valueUp (f := fun ii nCrc => crcByte nCrc (b.at ii)) turn _ 0 _ (Nat.zero_le _),Nat.zero_add]
  by_cases room : nLength.toNat ≤ packetLen
  · rw [if_pos room,if_pos room]
    have loop := upInvariant (fun i nCrc => nCrc = crcOf (b.bytes.take i)) (f := fun ii nCrc => crcByte nCrc (b.at ii))
      (k := nLength.toNat) (i := 0) (s := 0x1D0F) rfl ?_
    · rw [loop,Nat.zero_add]
    · intro i nCrc _ small same
      have bound : i < b.bytes.length := by rw [b.size]; omega
      rw [same,← List.take_append_getElem bound,crcSnoc,Buffer.at,List.getD_eq_getElem _ _ bound]
  · rw [if_neg room,if_neg room]

theorem memcpyValue (payload data : Buffer) {offset count : Nat} (start : offset ≤ packetLen) :
    (memcpy payload data offset count).value =
      if offset + count ≤ packetLen then some (copied payload data offset count) else none := by
  have turn : ∀ i payload, (do let b ← load .data data (offset + i); store .payload payload i b : Trace Use Buffer).value =
      if i < packetLen - offset then some (payload.set i (data.at (offset + i))) else none := by
    intro i payload
    rw [valueBind,loadValue]
    by_cases room : offset + i < packetLen
    · have inside : i < packetLen := by omega
      rw [if_pos room,if_pos (by omega),Option.bind_some,storeValue,if_pos inside]
    · rw [if_neg room,if_neg (by omega),Option.bind_none]
  rw [memcpy,valueUp (f := fun i payload => payload.set i (data.at (offset + i))) turn count 0 payload (Nat.zero_le _),copied]
  by_cases room : offset + count ≤ packetLen
  · rw [if_pos room,if_pos (by omega)]
  · rw [if_neg room,if_neg (by omega)]

theorem copiedBytes (payload data : Buffer) {offset count : Nat} (room : offset + count ≤ packetLen) :
    (copied payload data offset count).bytes = (data.bytes.drop offset).take count ++ payload.bytes.drop count := by
  have loop := upInvariant
    (fun i (b : Buffer) => b.bytes = (data.bytes.drop offset).take i ++ payload.bytes.drop i)
    (f := fun i payload => payload.set i (data.at (offset + i))) (k := count) (i := 0) (s := payload) rfl ?_
  · rw [copied,loop,Nat.zero_add]
  · intro i b _ small same
    have inData : offset + i < data.bytes.length := by rw [data.size]; omega
    have inPayload : i < payload.bytes.length := by rw [payload.size]; omega
    have inDrop : i < (data.bytes.drop offset).length := by rw [List.length_drop]; omega
    have taken : ((data.bytes.drop offset).take i).length = i := by rw [List.length_take]; omega
    have next : payload.bytes.drop i = payload.bytes[i] :: payload.bytes.drop (i + 1) := List.drop_eq_getElem_cons inPayload
    have value : data.at (offset + i) = (data.bytes.drop offset)[i] := by
      rw [Buffer.at,List.getD_eq_getElem _ _ inData,List.getElem_drop]
    rw [setBytes,same,next,← List.take_append_getElem inDrop,value,List.set_append_right _ _ (by omega),taken,Nat.sub_self,
      List.set_cons_zero,List.append_assoc,List.singleton_append]

theorem copiedTake (payload data : Buffer) {offset count : Nat} (room : offset + count ≤ packetLen) :
    (copied payload data offset count).bytes.take count = (data.bytes.drop offset).take count := by
  have length : ((data.bytes.drop offset).take count).length = count := by
    rw [List.length_take,List.length_drop,data.size]
    omega
  rw [copiedBytes payload data room,List.take_append_of_le_length (by omega),List.take_of_length_le (by omega)]

/- The reply codes whose payload fills the frame after its six bytes of header. -/
def Carries (code : Byte) : Prop := code = osdpRAW ∨ code = osdpCOM
def Known (code : Byte) : Prop := code = osdpACK ∨ code = osdpNACK ∨ code = osdpRAW ∨ code = osdpKPD ∨ code = osdpCOM
instance (code) : Decidable (Carries code) := by unfold Carries; infer_instance
instance (code) : Decidable (Known code) := by unfold Known; infer_instance

def rawPayload (packet : Packet) (response : Response) : Response :=
  let count := declared packet.data - 8
  {response with payload := copied response.payload packet.data 6 count, payloadlen := BitVec.ofNat 8 count}
def keypadPayload (packet : Packet) (response : Response) : Response :=
  let pinlen := packet.data.at 7
  {response with payload := copied response.payload packet.data 8 pinlen.toNat, payloadlen := pinlen}

theorem processedLen (packet : Packet) : (processed packet).len.toNat = declared packet.data := by
  unfold processed declared
  rw [BitVec.toNat_setWidth]
  omega

theorem lessNat (packet : Packet) (amount : Nat) (small : amount ≤ 8) :
    ((processed packet).len - BitVec.ofNat 32 amount).toNat =
      if amount ≤ declared packet.data then declared packet.data - amount else 2^32 + declared packet.data - amount := by
  have len := processedLen packet
  have bound : declared packet.data < 65536 := (word (packet.data.at 3) (packet.data.at 2)).isLt
  rw [BitVec.toNat_sub,BitVec.toNat_ofNat,len]
  split <;> omega

theorem rawValue (response) (fits : declared packet.data ≤ packetLen) : (rawReply (processed packet) response).value =
    if 8 ≤ declared packet.data then some (true,processed packet,rawPayload packet response) else none := by
  have less := lessNat packet 8 (le_refl 8)
  unfold rawReply
  simp only [valueBind,minusValue,Option.bind_some,memcpyValue _ _ (show 6 ≤ packetLen by decide),less]
  unfold packetLen at fits
  by_cases long : 8 ≤ declared packet.data
  · have width : ((processed packet).len - BitVec.ofNat 32 8).setWidth 8 = BitVec.ofNat 8 (declared packet.data - 8) := by
      apply BitVec.eq_of_toNat_eq
      rw [BitVec.toNat_setWidth,less,if_pos long,BitVec.toNat_ofNat]
    rw [if_pos long,if_pos long,if_pos (by unfold packetLen; omega),Option.bind_some,width]
    rfl
  · rw [if_neg long,if_neg long,if_neg (by unfold packetLen; omega),Option.bind_none]

theorem keypadValue (packet response) : (keypadReply packet response).value =
    if (packet.data.at 7).toNat ≤ 56 then some (true,packet,keypadPayload packet response) else none := by
  unfold keypadReply
  simp only [valueBind,loadSome _ _ (show 7 < packetLen by decide),Option.bind_some,
    memcpyValue _ _ (show 8 ≤ packetLen by decide)]
  by_cases room : (packet.data.at 7).toNat ≤ 56
  · rw [if_pos room,if_pos (by unfold packetLen; omega)]
    rfl
  · rw [if_neg room,if_neg (by unfold packetLen; omega),Option.bind_none]

/- What the switch on the reply code gives for a packet of at most `PACKETLEN` bytes. -/
theorem replyValue (response) (fits : declared packet.data ≤ packetLen) : (reply (processed packet) response).value =
    let code := packet.data.at 5
    if Carries code then
      if 8 ≤ declared packet.data then some (true,processed packet,rawPayload packet response) else none
    else if code = osdpKPD then
      if (packet.data.at 7).toNat ≤ 56 then some (true,processed packet,keypadPayload packet response) else none
    else some (decide (Known code),processed packet,response) := by
  have code : (load .data (processed packet).data 5).value = some (packet.data.at 5) := loadSome _ _ (by decide)
  have raw := rawValue response fits
  have keypad : (keypadReply (processed packet) response).value =
      if (packet.data.at 7).toNat ≤ 56 then some (true,processed packet,keypadPayload packet response) else none :=
    keypadValue (processed packet) response
  unfold reply
  rw [valueBind,code,Option.bind_some]
  generalize packet.data.at 5 = code
  by_cases ack : code = osdpACK ∨ code = osdpNACK
  · obtain rfl | rfl := ack <;> rfl
  · by_cases isRaw : code = osdpRAW
    · subst isRaw
      exact raw
    · by_cases isKeypad : code = osdpKPD
      · subst isKeypad
        exact keypad
      · by_cases isCom : code = osdpCOM
        · subst isCom
          exact raw
        · have unknown : ¬ Known code := by unfold Known; tauto
          have bare : ¬ Carries code := by unfold Carries; tauto
          simp only [ack,isRaw,isKeypad,isCom,bare,unknown,if_false,valuePure,decide_false]

theorem crcOkValue (packet : Packet) : (crcOk (processed packet)).value =
    if 2 ≤ declared packet.data ∧ declared packet.data ≤ packetLen then some (decide (Checked packet.data)) else none := by
  have two := lessNat packet 2 (by omega)
  have one := lessNat packet 1 (by omega)
  have bound : declared packet.data < 65536 := (word (packet.data.at 3) (packet.data.at 2)).isLt
  have data : (processed packet).data = packet.data := rfl
  have nLength : (((processed packet).len - BitVec.ofNat 32 2).setWidth 16).toNat =
      if 2 ≤ declared packet.data then declared packet.data - 2 else 65534 + declared packet.data := by
    rw [BitVec.toNat_setWidth,two]
    split <;> omega
  unfold crcOk
  simp only [valueBind,minusValue,Option.bind_some,crcValue,nLength,loadValue,one,two,data]
  unfold packetLen
  by_cases least : 2 ≤ declared packet.data
  · by_cases most : declared packet.data ≤ 64
    · have inside : declared packet.data - 1 < 64 ∧ declared packet.data - 2 < 64 ∧ declared packet.data - 2 ≤ 64 := by omega
      have some' : 1 ≤ declared packet.data := by omega
      simp only [least,most,inside,some',and_self,if_true,Option.bind_some,valuePure]
      rfl
    · have outside : ¬ declared packet.data - 1 < 64 := by omega
      have some' : 1 ≤ declared packet.data := by omega
      simp only [least,most,some',if_true,outside,if_false,and_false,Option.bind_none,Option.bind_fun_none]
  · have outside : ¬ 65534 + declared packet.data ≤ 64 := by omega
    simp only [least,if_false,outside,false_and,Option.bind_none]

theorem processValue (packet response) : (processPacket packet response).value =
    if 2 ≤ declared packet.data ∧ declared packet.data ≤ packetLen then
      if Checked packet.data then
        (reply (processed packet) {response with payloadlen := 0, response := packet.data.at 5}).value
      else some (false,processed packet,response)
    else none := by
  have ok := crcOkValue packet
  have code : (load .data (processed packet).data 5).value = some (packet.data.at 5) := loadSome _ _ (by decide)
  unfold processPacket
  rw [valueBind,loadSome _ _ (by decide),Option.bind_some,valueBind,loadSome _ _ (by decide),Option.bind_some]
  change (crcOk (processed packet) >>= fun ok => if ok = true then _ else pure (false,processed packet,response)).value = _
  rw [valueBind,ok]
  by_cases sized : 2 ≤ declared packet.data ∧ declared packet.data ≤ packetLen
  · rw [if_pos sized,if_pos sized,Option.bind_some]
    by_cases checked : Checked packet.data
    · rw [if_pos checked,if_pos (decide_eq_true checked),valueBind]
      change (load .data (processed packet).data 5).value.bind _ = _
      rw [code,Option.bind_some]
      rfl
    · rw [if_neg checked,if_neg (by simpa using checked)]
      rfl
  · rw [if_neg sized,if_neg sized,Option.bind_none]

def coded (packet : Packet) (response : Response) : Response := {response with payloadlen := 0, response := packet.data.at 5}

abbrev Sizes (packet : Packet) : Prop := 2 ≤ declared packet.data ∧ declared packet.data ≤ packetLen

/- The parser's outcomes, each with what led to it. -/
inductive Processes (packet : Packet) (response : Response) : Option (Bool × Packet × Response) → Prop where
  | outside (sizes : ¬ Sizes packet) : Processes packet response none
  | wrongCrc (sizes : Sizes packet) (wrong : ¬ Checked packet.data) :
      Processes packet response (some (false,processed packet,response))
  | raw (sizes : Sizes packet) (checked : Checked packet.data) (carries : Carries (packet.data.at 5))
      (long : 8 ≤ declared packet.data) :
      Processes packet response (some (true,processed packet,rawPayload packet (coded packet response)))
  | rawShort (sizes : Sizes packet) (checked : Checked packet.data) (carries : Carries (packet.data.at 5))
      (short : ¬ 8 ≤ declared packet.data) : Processes packet response none
  | keypad (sizes : Sizes packet) (checked : Checked packet.data) (bare : ¬ Carries (packet.data.at 5))
      (isKeypad : packet.data.at 5 = osdpKPD) (room : (packet.data.at 7).toNat ≤ 56) :
      Processes packet response (some (true,processed packet,keypadPayload packet (coded packet response)))
  | keypadLong (sizes : Sizes packet) (checked : Checked packet.data) (bare : ¬ Carries (packet.data.at 5))
      (isKeypad : packet.data.at 5 = osdpKPD) (long : ¬ (packet.data.at 7).toNat ≤ 56) : Processes packet response none
  | plain (sizes : Sizes packet) (checked : Checked packet.data) (bare : ¬ Carries (packet.data.at 5))
      (other : packet.data.at 5 ≠ osdpKPD) :
      Processes packet response (some (decide (Known (packet.data.at 5)),processed packet,coded packet response))

theorem processCases (packet response) : Processes packet response (processPacket packet response).value := by
  rw [processValue]
  by_cases sizes : 2 ≤ declared packet.data ∧ declared packet.data ≤ packetLen
  · rw [if_pos sizes]
    by_cases checked : Checked packet.data
    · rw [if_pos checked,replyValue _ sizes.2]
      dsimp only
      by_cases carries : Carries (packet.data.at 5)
      · rw [if_pos carries]
        by_cases long : 8 ≤ declared packet.data
        · rw [if_pos long]
          exact .raw sizes checked carries long
        · rw [if_neg long]
          exact .rawShort sizes checked carries long
      · rw [if_neg carries]
        by_cases isKeypad : packet.data.at 5 = osdpKPD
        · rw [if_pos isKeypad]
          by_cases room : (packet.data.at 7).toNat ≤ 56
          · rw [if_pos room]
            exact .keypad sizes checked carries isKeypad room
          · rw [if_neg room]
            exact .keypadLong sizes checked carries isKeypad room
        · rw [if_neg isKeypad]
          exact .plain sizes checked carries isKeypad
    · rw [if_neg checked]
      exact .wrongCrc sizes checked
  · rw [if_neg sizes]
    exact .outside sizes

end

end AccessControl.OsdpPacket
