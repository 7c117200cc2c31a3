import AccessControl.OsdpPacket

/-! The bytes of a built frame, and what the parser makes of it: every message comes back
under its reply code, with the payload that the code carries. -/
namespace AccessControl.OsdpFrame
open BitMask CrcTable Traced OsdpPacket

/- The part under the CRC: header, address, length, control, command, message. -/
def header (address command : Byte) (len : BitVec 16) : Bytes := [0x53,address,low len,high len,0x04,command]
def covered (address command : Byte) (data : Bytes) : Bytes :=
  header address command (BitVec.ofNat 16 (data.length + 8)) ++ data
def frame (address command : Byte) (data : Bytes) : Bytes :=
  covered address command data ++ [low (crcOf (covered address command data)),high (crcOf (covered address command data))]

section
variable {address command : Byte} {data : Bytes} {b : Buffer}

theorem coveredLength : (covered address command data).length = data.length + 6 := by
  rw [covered,List.length_append,Nat.add_comm]
  rfl

theorem frameLength : (frame address command data).length = data.length + 8 := by
  rw [frame,List.length_append,coveredLength]
  rfl

/- The message goes in behind the header. -/
def written (data : Bytes) (b : Buffer) : Buffer := up (fun i b => b.set (6 + i) (data.getD i 0)) data.length 0 b

theorem writtenBytes (room : data.length ≤ 56) : (written data b).bytes = b.bytes.take 6 ++ data ++ b.bytes.drop (6 + data.length) := by
  have size := b.size
  unfold packetLen at size
  have loop := upInvariant (fun i (c : Buffer) => c.bytes = b.bytes.take 6 ++ data.take i ++ b.bytes.drop (6 + i))
    (f := fun i b => b.set (6 + i) (data.getD i 0)) (k := data.length) (i := 0) (s := b) ?_ ?_
  · rw [written,loop,Nat.zero_add,List.take_length]
  · rw [List.take_zero,List.append_nil,Nat.add_zero,List.take_append_drop]
  · intro i c _ small same
    have next : b.bytes.drop (6 + i) = b.bytes[6 + i] :: b.bytes.drop (6 + (i + 1)) := List.drop_eq_getElem_cons (by omega)
    have front : (b.bytes.take 6 ++ data.take i).length = 6 + i := by
      rw [List.length_append,List.length_take,List.length_take]
      omega
    have value : data.getD i 0 = data[i] := List.getD_eq_getElem _ _ (by omega)
    have grown : data.take (i + 1) = data.take i ++ [data[i]] := (List.take_append_getElem (by omega)).symm
    rw [setBytes,same,List.set_append_right _ _ (by omega),front,Nat.sub_self,next,List.set_cons_zero,value,grown]
    simp only [List.append_assoc,List.singleton_append]

theorem writtenValue (room : data.length ≤ 56) :
    (forUp (fun i buffer => store .data buffer (6 + i) (data.getD i 0)) data.length 0 b).value = some (written data b) := by
  have turn : ∀ i (b : Buffer), (store .data b (6 + i) (data.getD i 0)).value =
      if i < 58 then some (b.set (6 + i) (data.getD i 0)) else none := by
    intro i b
    rw [storeValue]
    unfold packetLen
    by_cases inside : i < 58
    · rw [if_pos inside,if_pos (by omega)]
    · rw [if_neg inside,if_neg (by omega)]
  rw [valueUp (f := fun i (b : Buffer) => b.set (6 + i) (data.getD i 0)) turn data.length 0 b (Nat.zero_le _),if_pos (by omega)]
  rfl

/- The length goes into its two bytes, and the CRC behind the message. -/
def lengthened (len : BitVec 16) (b : Buffer) : Buffer := (b.set 2 (low len)).set 3 (high len)

theorem lengthenedBytes (front : b.bytes.take (6 + data.length) = [0x53,address,0x0,0x0,0x04,command] ++ data) :
    (lengthened (BitVec.ofNat 16 (data.length + 8)) b).bytes = covered address command data ++ b.bytes.drop (6 + data.length) := by
  have whole := List.take_append_drop (6 + data.length) b.bytes
  rw [front] at whole
  rw [lengthened,setBytes,setBytes]
  nth_rewrite 1 [← whole]
  rfl

theorem crclenValue (room : data.length ≤ 56)
    (front : b.bytes.take (6 + data.length) = [0x53,address,0x0,0x0,0x04,command] ++ data) :
    ∃ sent, (crclenPacket ⟨BitVec.ofNat 32 (6 + data.length),b⟩).value = some sent ∧
      sent.len = BitVec.ofNat 32 (data.length + 8) ∧
      sent.data.bytes = frame address command data ++ b.bytes.drop (data.length + 8) := by
  have size := b.size
  unfold packetLen at size
  have longer : BitVec.ofNat 32 (6 + data.length) + 2 = BitVec.ofNat 32 (data.length + 8) := by
    apply BitVec.eq_of_toNat_eq
    simp
    omega
  have less : ∀ k, k ≤ 2 → (BitVec.ofNat 32 (data.length + 8) - BitVec.ofNat 32 k).toNat = data.length + 8 - k := by
    intro k small
    rw [BitVec.toNat_sub,BitVec.toNat_ofNat,BitVec.toNat_ofNat]
    omega
  have next : (BitVec.ofNat 32 (data.length + 8) - BitVec.ofNat 32 2).toNat = data.length + 6 := less 2 (le_refl 2)
  have last : (BitVec.ofNat 32 (data.length + 8) - BitVec.ofNat 32 1).toNat = data.length + 7 := less 1 (by omega)
  have nLength : ((BitVec.ofNat 32 (data.length + 8) - BitVec.ofNat 32 2).setWidth 16).toNat = data.length + 6 := by
    rw [BitVec.toNat_setWidth,next]
    omega
  have lower : (BitVec.ofNat 32 (data.length + 8)).setWidth 8 = low (BitVec.ofNat 16 (data.length + 8)) := by
    apply BitVec.eq_of_toNat_eq
    rw [low,BitVec.toNat_setWidth,BitVec.toNat_setWidth,BitVec.toNat_ofNat,BitVec.toNat_ofNat]
    omega
  have upper : ((BitVec.ofNat 32 (data.length + 8)).ushiftRight 8).setWidth 8 = high (BitVec.ofNat 16 (data.length + 8)) := by
    apply BitVec.eq_of_toNat_eq
    rw [high,BitVec.ushiftRight_eq,BitVec.toNat_setWidth,BitVec.toNat_setWidth,BitVec.toNat_ushiftRight,BitVec.toNat_ushiftRight,
      BitVec.toNat_ofNat,BitVec.toNat_ofNat,Nat.shiftRight_eq_div_pow,Nat.shiftRight_eq_div_pow]
    omega
  have measured := lengthenedBytes front
  have crc : crcOf ((lengthened (BitVec.ofNat 16 (data.length + 8)) b).bytes.take (data.length + 6)) =
      crcOf (covered address command data) := by
    rw [measured,List.take_left' coveredLength]
  have rest : b.bytes.drop (6 + data.length) =
      b.bytes[6 + data.length] :: b.bytes[6 + data.length + 1] :: b.bytes.drop (data.length + 8) := by
    have index : 6 + data.length + 1 + 1 = data.length + 8 := by omega
    rw [List.drop_eq_getElem_cons (by omega),List.drop_eq_getElem_cons (by omega),index]
  refine ⟨⟨BitVec.ofNat 32 (data.length + 8),((lengthened (BitVec.ofNat 16 (data.length + 8)) b).set (data.length + 6)
    (low (crcOf (covered address command data)))).set (data.length + 7) (high (crcOf (covered address command data)))⟩,?_,rfl,?_⟩
  · unfold crclenPacket
    simp only [valueBind,storeValue,minusValue,crcValue,longer,lower,upper,nLength,next,last,Option.bind_some]
    unfold packetLen
    rw [if_pos (by decide),Option.bind_some,if_pos (by decide),Option.bind_some,if_pos (by omega),Option.bind_some,
      if_pos (by omega),Option.bind_some,if_pos (by omega),Option.bind_some,valuePure]
    have folded : (b.set 2 (low (BitVec.ofNat 16 (data.length + 8)))).set 3 (high (BitVec.ofNat 16 (data.length + 8))) =
        lengthened (BitVec.ofNat 16 (data.length + 8)) b := rfl
    rw [folded,crc]
  · rw [setBytes,setBytes,measured,List.set_append_right _ _ (by rw [coveredLength]),coveredLength,Nat.sub_self,rest,
      List.set_cons_zero,List.set_append_right _ _ (by rw [coveredLength]; omega),coveredLength,
      show data.length + 7 - (data.length + 6) = 1 by omega,List.set_cons_succ,List.set_cons_zero,frame,List.append_assoc]
    rfl

theorem sixSet (bytes : Bytes) (long : 6 ≤ bytes.length) (u v w x y z : Byte) :
    (((((bytes.set 0 u).set 1 v).set 2 w).set 3 x).set 4 y).set 5 z = [u,v,w,x,y,z] ++ bytes.drop 6 := by
  match bytes,long with
  | _ :: _ :: _ :: _ :: _ :: _ :: rest,_ => rfl

/- The frame in its packet, over what the packet held before. -/
theorem fillBuilds (packet : Packet) (address command : Byte) (room : data.length ≤ 56) :
    ∃ sent, (fillPacket packet address command data).value = some sent ∧ sent.len = BitVec.ofNat 32 (data.length + 8) ∧
      sent.data.bytes = frame address command data ++ packet.data.bytes.drop (data.length + 8) := by
  obtain ⟨start,started⟩ : ∃ b : Buffer, (((((packet.data.set 0 0x53).set 1 address).set 2 0x0).set 3 0x0).set 4 0x04).set 5 command = b :=
    ⟨_,rfl⟩
  have size := packet.data.size
  unfold packetLen at size
  have begun : start.bytes = [0x53,address,0x0,0x0,0x04,command] ++ packet.data.bytes.drop 6 := by
    rw [← started]
    exact sixSet packet.data.bytes (by omega) ..
  have after := writtenBytes (b := start) room
  rw [begun,List.take_left' (show List.length [0x53,address,0x0,0x0,0x04,command] = 6 from rfl),← List.drop_drop,
    List.drop_left' (show List.length [0x53,address,0x0,0x0,0x04,command] = 6 from rfl),List.drop_drop] at after
  have length : ([0x53,address,0x0,0x0,0x04,command] ++ data).length = 6 + data.length := by
    rw [List.length_append]
    rfl
  have front : (written data start).bytes.take (6 + data.length) = [0x53,address,0x0,0x0,0x04,command] ++ data := by
    rw [after]
    exact List.take_left' length
  obtain ⟨sent,value,len,bytes⟩ := crclenValue room front
  refine ⟨sent,?_,len,?_⟩
  · have stores : ∀ (b : Buffer) (v : Byte) (i : Nat), i < 6 → (store .data b i v).value = some (b.set i v) :=
      fun b v i inside => if_pos (by unfold packetLen; omega)
    unfold fillPacket
    simp only [valueBind,stores _ _ _ (show 0 < 6 by decide),stores _ _ _ (show 1 < 6 by decide),
      stores _ _ _ (show 2 < 6 by decide),stores _ _ _ (show 3 < 6 by decide),stores _ _ _ (show 4 < 6 by decide),
      stores _ _ _ (show 5 < 6 by decide),Option.bind_some]
    rw [started,writtenValue room,Option.bind_some]
    exact value
  · have behind : data.length + 8 = 6 + data.length + 2 := by omega
    rw [bytes,after,behind,← List.drop_drop,List.drop_left' length,List.drop_drop]

theorem frameAt (front : frame address command data <+: b.bytes) {i : Nat} (inside : i < data.length + 8) :
    b.at i = (frame address command data).getD i 0 := by
  obtain ⟨rest,whole⟩ := front
  rw [Buffer.at,← whole,List.getD_append _ _ _ _ (by rw [frameLength]; exact inside)]

theorem frameCommand (front : frame address command data <+: b.bytes) : b.at 5 = command := by
  rw [frameAt front (by omega)]
  rfl

theorem frameDeclared (front : frame address command data <+: b.bytes) (room : data.length ≤ 56) :
    declared b = data.length + 8 := by
  have lower : b.at 2 = low (BitVec.ofNat 16 (data.length + 8)) := by
    rw [frameAt front (by omega)]
    rfl
  have upper : b.at 3 = high (BitVec.ofNat 16 (data.length + 8)) := by
    rw [frameAt front (by omega)]
    rfl
  rw [declared,lower,upper,wordSplit,BitVec.toNat_ofNat]
  omega

theorem frameCovered (front : frame address command data <+: b.bytes) :
    b.bytes.take (data.length + 6) = covered address command data := by
  obtain ⟨rest,whole⟩ := front
  rw [← whole,frame,List.append_assoc]
  exact List.take_left' coveredLength

theorem frameData (front : frame address command data <+: b.bytes) : (b.bytes.drop 6).take data.length = data := by
  have sum : data.length + 6 = 6 + data.length := Nat.add_comm ..
  have before := congrArg (List.drop 6) (frameCovered front)
  rw [sum,List.drop_take,Nat.add_sub_cancel_left] at before
  exact before

theorem frameChecked (front : frame address command data <+: b.bytes) (room : data.length ≤ 56) : Checked b := by
  have place : ∀ i, (frame address command data).getD (data.length + 6 + i) 0 =
      [low (crcOf (covered address command data)),high (crcOf (covered address command data))].getD i 0 := by
    intro i
    rw [frame,List.getD_append_right _ _ _ _ (by rw [coveredLength]; omega),coveredLength,Nat.add_sub_cancel_left]
  have lower : b.at (data.length + 6) = low (crcOf (covered address command data)) :=
    (frameAt front (by omega)).trans (place 0)
  have upper : b.at (data.length + 7) = high (crcOf (covered address command data)) :=
    (frameAt front (by omega)).trans (place 1)
  have two : data.length + 8 - 2 = data.length + 6 := rfl
  have one : data.length + 8 - 1 = data.length + 7 := rfl
  unfold Checked
  rw [frameDeclared front room,two,one,frameCovered front,lower,upper,wordSplit]

end

/- What a message carries, by its code: all of it, nothing, or the keys behind a reader
number and their count. -/
inductive Carried : Byte → Bytes → Bytes → Prop where
  | raw (data) : Carried osdpRAW data data
  | com (data) : Carried osdpCOM data data
  | ack (data) : Carried osdpACK data []
  | nack (data) : Carried osdpNACK data []
  | keypad (reader : Byte) (keys : Bytes) : Carried osdpKPD (reader :: BitVec.ofNat 8 keys.length :: keys) keys

/- What the parser leaves of a reply. -/
structure Handed (command : Byte) (payload : Bytes) (after : Response) : Prop where
  code : after.response = command
  length : after.payloadlen.toNat = payload.length
  bytes : after.payload.bytes.take payload.length = payload

section
variable {address command : Byte} {data payload : Bytes} {packet : Packet}

theorem rawHanded (response : Response) (front : frame address command data <+: packet.data.bytes) (room : data.length ≤ 56) :
    Handed command data (rawPayload packet (coded packet response)) := by
  have length : declared packet.data - 8 = data.length := by rw [frameDeclared front room,Nat.add_sub_cancel]
  refine ⟨frameCommand front,?_,?_⟩
  · simp only [rawPayload,length,BitVec.toNat_ofNat]
    omega
  · simp only [rawPayload,length]
    rw [copiedTake _ _ (by unfold packetLen; omega),frameData front]

theorem keypadHanded {reader : Byte} {keys : Bytes} (response : Response)
    (front : frame address osdpKPD (reader :: BitVec.ofNat 8 keys.length :: keys) <+: packet.data.bytes) (room : keys.length ≤ 54) :
    (packet.data.at 7).toNat = keys.length ∧ Handed osdpKPD keys (keypadPayload packet (coded packet response)) := by
  have place : packet.data.at 7 = BitVec.ofNat 8 keys.length := by
    rw [frameAt front (by rw [List.length_cons,List.length_cons]; omega)]
    rfl
  have count : (packet.data.at 7).toNat = keys.length := by
    rw [place,BitVec.toNat_ofNat]
    omega
  have behind : (packet.data.bytes.drop 8).take keys.length = keys := by
    have message := congrArg (List.drop 2) (frameData front)
    rw [List.drop_take,List.drop_drop] at message
    exact message
  refine ⟨count,frameCommand front,count,?_⟩
  simp only [keypadPayload,count]
  rw [copiedTake _ _ (by unfold packetLen; omega),behind]

/- A frame parses to what its message carries, wherever it stands in front of the buffer. -/
theorem frameParses (carried : Carried command data payload) (room : data.length ≤ 56)
    (front : frame address command data <+: packet.data.bytes) (response : Response) :
    ∃ after, (processPacket packet response).value = some (true,processed packet,after) ∧ Handed command payload after := by
  have sizes : Sizes packet := by
    unfold Sizes packetLen
    rw [frameDeclared front room]
    omega
  have value := processValue packet response
  rw [if_pos sizes,if_pos (frameChecked front room),replyValue _ sizes.2] at value
  dsimp only at value
  have code := frameCommand front
  have long : 8 ≤ declared packet.data := by
    rw [frameDeclared front room]
    omega
  cases carried with
  | raw =>
    rw [if_pos (code ▸ by decide),if_pos long] at value
    exact ⟨_,value,rawHanded response front room⟩
  | com =>
    rw [if_pos (code ▸ by decide),if_pos long] at value
    exact ⟨_,value,rawHanded response front room⟩
  | ack =>
    rw [if_neg (code ▸ by decide),if_neg (code ▸ by decide),code] at value
    exact ⟨_,value,rfl,rfl,rfl⟩
  | nack =>
    rw [if_neg (code ▸ by decide),if_neg (code ▸ by decide),code] at value
    exact ⟨_,value,rfl,rfl,rfl⟩
  | keypad reader keys =>
    rw [List.length_cons,List.length_cons] at room
    obtain ⟨count,handed⟩ := keypadHanded response front (by omega)
    rw [if_neg (code ▸ by decide),if_pos code,if_pos (by omega)] at value
    exact ⟨_,value,handed⟩

/- What `fill_packet` builds, `process_packet` takes apart again. -/
theorem roundTrip (address : Byte) (packet : Packet) (carried : Carried command data payload) (room : data.length ≤ 56) :
    ∃ sent, (fillPacket packet address command data).value = some sent ∧
      ∀ got : Packet, sent.data.bytes.take sent.len.toNat <+: got.data.bytes → ∀ response,
        ∃ after, (processPacket got response).value = some (true,processed got,after) ∧ Handed command payload after := by
  obtain ⟨sent,built,len,bytes⟩ := fillBuilds packet address command room
  refine ⟨sent,built,fun got whole response => ?_⟩
  have count : sent.len.toNat = data.length + 8 := by
    rw [len,BitVec.toNat_ofNat]
    omega
  rw [count,bytes,List.take_left' frameLength] at whole
  exact frameParses carried room whole response

theorem roundTripKeys : ∃ sent, (fillPacket ⟨0,clear⟩ 0x01 osdpKPD [0,2,0x31,0x0d]).value = some sent ∧
    ∀ got : Packet, sent.data.bytes.take sent.len.toNat <+: got.data.bytes → ∀ response,
      ∃ after, (processPacket got response).value = some (true,processed got,after) ∧ Handed osdpKPD [0x31,0x0d] after :=
  roundTrip 0x01 ⟨0,clear⟩ (.keypad 0 [0x31,0x0d]) (by decide)

end
end AccessControl.OsdpFrame
