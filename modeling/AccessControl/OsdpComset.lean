import AccessControl.OsdpFrame

/-! Setting the address and the speed of a reader: of the five bytes of the message `comset`
writes two, and the other three are what its array held before. -/
namespace AccessControl.OsdpComset
open BitMask CrcTable Traced OsdpPacket OsdpFrame

def osdpCOMSET : Byte := 0x6e

/- `payload` is the array on the stack; a conversion to `char` keeps the low byte. -/
def comset (packet : Packet) (payload : Vector Byte 5) (oldaddress newaddress : Byte) (baudrate : BitVec 32) : Trace Use Packet :=
  let payload := payload.set 0 newaddress
  let payload := payload.set 1 (baudrate.setWidth 8)
  fillPacket packet oldaddress osdpCOMSET payload.toList

/- The frame that goes out, and the message in it. -/
def sentFrame (sent : Packet) : Bytes := sent.data.bytes.take sent.len.toNat
def sentMessage (sent : Packet) : Bytes := (sent.data.bytes.drop 6).take 5

/- The message as OSDP has it: the new address, then the speed with its low byte first. -/
def speedBytes (baudrate : BitVec 32) : Bytes := [baudrate.setWidth 8,(baudrate >>> 8).setWidth 8,(baudrate >>> 16).setWidth 8,
  (baudrate >>> 24).setWidth 8]
def encode (newaddress : Byte) (baudrate : BitVec 32) : Bytes := newaddress :: speedBytes baudrate
def decode : Bytes → Option (Byte × BitVec 32)
  | [newaddress,a,b,c,d] => some (newaddress,d ++ c ++ b ++ a)
  | _ => none

/- The three bytes that `comset` leaves alone hold the upper part of the speed already. -/
def Held (payload : Vector Byte 5) (baudrate : BitVec 32) : Prop := payload.toList.drop 2 = (speedBytes baudrate).drop 1
instance (payload baudrate) : Decidable (Held payload baudrate) := by unfold Held; infer_instance

/- The frame depends on the three values alone, and says what was asked for. -/
structure Encoded (oldaddress newaddress : Byte) (baudrate : BitVec 32) (sent : Packet) : Prop where
  frame : sentFrame sent = OsdpFrame.frame oldaddress osdpCOMSET (encode newaddress baudrate)
  message : decode (sentMessage sent) = some (newaddress,baudrate)

section
variable {oldaddress newaddress : Byte} {baudrate : BitVec 32}

variable (newaddress) in
theorem speedSelf (baudrate : BitVec 32) : decode (encode newaddress baudrate) = some (newaddress,baudrate) := by
  have joined : (baudrate >>> 24).setWidth 8 ++ (baudrate >>> 16).setWidth 8 ++ (baudrate >>> 8).setWidth 8 ++ baudrate.setWidth 8 = baudrate := by
    apply BitVec.eq_of_getLsbD_eq
    intro k small
    simp only [BitVec.getLsbD_append,BitVec.getLsbD_setWidth,BitVec.getLsbD_ushiftRight]
    by_cases first : k < 8
    · simp [first]
    · by_cases second : k < 16
      · simp [first,show k - 8 < 8 by omega,show 8 + (k - 8) = k by omega]
      · by_cases third : k < 24
        · simp [first,show ¬ k - 8 < 8 by omega,show k - 8 - 8 < 8 by omega,show 16 + (k - 8 - 8) = k by omega]
        · simp [first,show ¬ k - 8 < 8 by omega,show ¬ k - 8 - 8 < 8 by omega,show k - 8 - 8 - 8 < 8 by omega,
            show 24 + (k - 8 - 8 - 8) = k by omega]
  rw [encode,speedBytes,decode,joined]

/- And a message that decodes to the two values is theirs. -/
theorem decodeSelf {message : Bytes} (decoded : decode message = some (newaddress,baudrate)) : message = encode newaddress baudrate := by
  have bytes : ∀ a b c d : Byte, (d ++ c ++ b ++ a).setWidth 8 = a ∧ ((d ++ c ++ b ++ a) >>> 8).setWidth 8 = b ∧
      ((d ++ c ++ b ++ a) >>> 16).setWidth 8 = c ∧ ((d ++ c ++ b ++ a) >>> 24).setWidth 8 = d := by
    intro a b c d
    refine ⟨?_,?_,?_,?_⟩
    all_goals
      apply BitVec.eq_of_getLsbD_eq
      intro k small
      rw [BitVec.getLsbD_setWidth]
      simp only [BitVec.getLsbD_ushiftRight,BitVec.getLsbD_append]
      simp [small,show ¬ 16 + k < 8 by omega,show ¬ 24 + k < 8 by omega,show 16 + k - 8 = 8 + k by omega,
        show 24 + k - 8 = 16 + k by omega]
  match message with
  | [first,a,b,c,d] =>
    obtain ⟨rfl,rfl⟩ := Prod.mk.inj (Option.some.inj decoded)
    obtain ⟨lowest,next,upper,highest⟩ := bytes a b c d
    rw [encode,speedBytes,lowest,next,upper,highest]
  | [] | [_] | [_,_] | [_,_,_] | [_,_,_,_] | _ :: _ :: _ :: _ :: _ :: _ :: _ => cases decoded

theorem writtenPayload (payload : Vector Byte 5) (newaddress low : Byte) :
    ((payload.set 0 newaddress).set 1 low).toList = newaddress :: low :: payload.toList.drop 2 := by
  have size := payload.length_toList
  rw [Vector.toList_set,Vector.toList_set]
  match payload.toList,size with
  | [_,_,_,_,_],_ => rfl

/- What goes out, over any array and any packet. -/
theorem comsetSent (packet : Packet) (payload : Vector Byte 5) (oldaddress newaddress : Byte) (baudrate : BitVec 32) :
    ∃ sent, (comset packet payload oldaddress newaddress baudrate).value = some sent ∧
      sentMessage sent = newaddress :: baudrate.setWidth 8 :: payload.toList.drop 2 ∧
      sentFrame sent = OsdpFrame.frame oldaddress osdpCOMSET (newaddress :: baudrate.setWidth 8 :: payload.toList.drop 2) := by
  have written := writtenPayload payload newaddress (baudrate.setWidth 8)
  have length : ((payload.set 0 newaddress).set 1 (baudrate.setWidth 8)).toList.length = 5 := Vector.length_toList
  obtain ⟨sent,built,len,bytes⟩ := fillBuilds packet oldaddress osdpCOMSET
    (show ((payload.set 0 newaddress).set 1 (baudrate.setWidth 8)).toList.length ≤ 56 by omega)
  have front : OsdpFrame.frame oldaddress osdpCOMSET ((payload.set 0 newaddress).set 1 (baudrate.setWidth 8)).toList <+: sent.data.bytes := by
    rw [bytes]
    exact List.prefix_append ..
  have message := frameData front
  have size : sent.len.toNat = 5 + 8 := by
    rw [len,length]
    rfl
  rw [length] at message
  refine ⟨sent,built,message.trans written,?_⟩
  rw [sentFrame,size,bytes,← written]
  refine List.take_left' ?_
  rw [frameLength,length]

/- A frame gives back its address and its message. -/
theorem frameInjective {address address' command : Byte} {data data' : Bytes} (long : data.length = data'.length)
    (same : OsdpFrame.frame address command data = OsdpFrame.frame address' command data') : address = address' ∧ data = data' := by
  unfold OsdpFrame.frame covered at same
  have parts := List.append_inj same (by simp [header,long])
  have parts' := List.append_inj parts.1 rfl
  simp only [header,List.cons.injEq] at parts'
  exact ⟨parts'.1.2.1,parts'.2⟩

/- Frames of two calls are the same just when the addresses, the low byte of the speed and
what the array held are. -/
theorem framesSame {packet packet' : Packet} {payload payload' : Vector Byte 5} {oldaddress' newaddress' : Byte} {baudrate' : BitVec 32}
    {sent sent' : Packet} (first : (comset packet payload oldaddress newaddress baudrate).value = some sent)
    (second : (comset packet' payload' oldaddress' newaddress' baudrate').value = some sent') :
    sentFrame sent = sentFrame sent' ↔ oldaddress = oldaddress' ∧ newaddress = newaddress' ∧
      baudrate.setWidth 8 = baudrate'.setWidth 8 ∧ payload.toList.drop 2 = payload'.toList.drop 2 := by
  obtain ⟨made,value,_,frame⟩ := comsetSent packet payload oldaddress newaddress baudrate
  obtain ⟨made',value',_,frame'⟩ := comsetSent packet' payload' oldaddress' newaddress' baudrate'
  cases Option.some.inj (first.symm.trans value)
  cases Option.some.inj (second.symm.trans value')
  rw [frame,frame']
  constructor
  · intro same
    obtain ⟨address,message⟩ := frameInjective (by simp) same
    obtain ⟨new,rest⟩ := List.cons.inj message
    obtain ⟨lowest,held⟩ := List.cons.inj rest
    exact ⟨address,new,lowest,held⟩
  · rintro ⟨rfl,rfl,lowest,held⟩
    rw [lowest,held]

end

/- The message says what was asked for just when the array held the upper bytes already; there
the frame is that of the three values, and two speeds have two frames. -/
theorem comsetEncodes (packet : Packet) (payload : Vector Byte 5) (oldaddress newaddress : Byte) (baudrate : BitVec 32) :
    ∃ sent, (comset packet payload oldaddress newaddress baudrate).value = some sent ∧
      (Encoded oldaddress newaddress baudrate sent ↔ Held payload baudrate) ∧
      (decode (sentMessage sent) = some (newaddress,baudrate) ↔ Held payload baudrate) ∧
      (Held payload baudrate → ∀ packet' payload' oldaddress' newaddress' baudrate' sent',
        (comset packet' payload' oldaddress' newaddress' baudrate').value = some sent' → Held payload' baudrate' →
        sentFrame sent = sentFrame sent' → (oldaddress,newaddress,baudrate) = (oldaddress',newaddress',baudrate')) := by
  obtain ⟨sent,value,message,frame⟩ := comsetSent packet payload oldaddress newaddress baudrate
  have whole : Held payload baudrate → newaddress :: baudrate.setWidth 8 :: payload.toList.drop 2 = encode newaddress baudrate :=
    fun held => by rw [held]; rfl
  have decoded : decode (sentMessage sent) = some (newaddress,baudrate) ↔ Held payload baudrate := by
    rw [message]
    constructor
    · intro right
      obtain ⟨_,rest⟩ := List.cons.inj (decodeSelf right)
      exact (List.cons.inj rest).2
    · intro held
      rw [whole held]
      exact speedSelf newaddress baudrate
  refine ⟨sent,value,⟨fun h => decoded.mp h.message,fun held => ⟨?_,decoded.mpr held⟩⟩,decoded,?_⟩
  · rw [frame,whole held]
  · intro held packet' payload' oldaddress' newaddress' baudrate' sent' value' held' same
    obtain ⟨rfl,rfl,lowest,rest⟩ := (framesSame value value').mp same
    have bytes : encode newaddress baudrate = encode newaddress baudrate' := by
      rw [Held] at held held'
      have upper : (speedBytes baudrate).drop 1 = (speedBytes baudrate').drop 1 := held.symm.trans (rest.trans held')
      have first : speedBytes baudrate = baudrate.setWidth 8 :: (speedBytes baudrate).drop 1 := rfl
      have second : speedBytes baudrate' = baudrate'.setWidth 8 :: (speedBytes baudrate').drop 1 := rfl
      rw [encode,encode,first,second,lowest,upper]
    have speeds := (speedSelf newaddress baudrate).symm.trans ((congrArg decode bytes).trans (speedSelf newaddress baudrate'))
    rw [(Prod.mk.inj (Option.some.inj speeds)).2]

/- `osdp-set-address` asks for 9600 over a cleared stack: the message says 128, in the frame
that asks for 128 as well; over another stack the same call sends another frame. -/
def blank : Vector Byte 5 := Vector.replicate 5 0
def dirty : Vector Byte 5 := Vector.replicate 5 1

theorem speedLost : ∃ sent other stale, (comset ⟨0,clear⟩ blank 0x7f 0x01 9600).value = some sent ∧
    (comset ⟨0,clear⟩ blank 0x7f 0x01 128).value = some other ∧ (comset ⟨0,clear⟩ dirty 0x7f 0x01 9600).value = some stale ∧
    decode (sentMessage sent) = some (0x01,128) ∧ decode (sentMessage sent) ≠ some (0x01,9600) ∧
    sentFrame sent = sentFrame other ∧ sentFrame sent ≠ sentFrame stale := by
  obtain ⟨sent,value,message,_⟩ := comsetSent ⟨0,clear⟩ blank 0x7f 0x01 9600
  obtain ⟨other,value',_⟩ := comsetSent ⟨0,clear⟩ blank 0x7f 0x01 128
  obtain ⟨stale,value'',_⟩ := comsetSent ⟨0,clear⟩ dirty 0x7f 0x01 9600
  refine ⟨sent,other,stale,value,value',value'',?_,?_,?_,?_⟩
  · rw [message]
    decide
  · rw [message]
    decide
  · exact (framesSame value value').mpr ⟨rfl,rfl,rfl,rfl⟩
  · intro same
    have held := ((framesSame value value'').mp same).2.2.2
    exact absurd held (by decide)

end AccessControl.OsdpComset
