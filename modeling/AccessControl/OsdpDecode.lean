import AccessControl.OsdpPacket

/-! What a poll decodes, as a function of the bytes it received. The declared length
replaces the received one, so that leftovers of earlier polls can complete a frame. -/
namespace AccessControl.OsdpDecode
open BitMask CrcTable Traced OsdpPacket

/- The reply code and the payload of an accepted frame; no value where the parser has none. -/
def decode (read : Option Delivered) (answer : Packet) (response : Response) : Option (Option (Byte × Bytes)) :=
  (receivePacket read answer response).value.map fun (ok,_,after) =>
    if ok then some (after.response,after.payload.bytes.take after.payloadlen.toNat) else none

/- Whatever the buffer and the response held, one and the same outcome, and a refusal if
the header declares more than was received. -/
def Determined (d : Delivered) : Prop :=
  ∀ answer answer' response response', ∃ outcome,
    decode (some d) answer response = some outcome ∧ decode (some d) answer' response' = some outcome ∧
    (d.bytes.length < declared (received d answer.data) → outcome = none)

def byteAt (bytes : Bytes) (i : Nat) : Byte := bytes.getD i 0
def declares (bytes : Bytes) : Nat := (word (byteAt bytes 3) (byteAt bytes 2)).toNat

/- A frame received whole: its CRC is wrong, or all that the parser copies was received. -/
def Whole (bytes : Bytes) (len : Nat) : Prop :=
  crcOf (bytes.take (len - 2)) ≠ word (byteAt bytes (len - 1)) (byteAt bytes (len - 2)) ∨
  6 ≤ bytes.length ∧ (Carries (byteAt bytes 5) → 8 ≤ len) ∧
    (byteAt bytes 5 = osdpKPD → 8 ≤ bytes.length ∧ 8 + (byteAt bytes 7).toNat ≤ bytes.length)

/- A frame cut short that no leftover completes: its code is unknown, or the one byte
of its CRC that arrived is wrong, or the code would be a byte of the CRC and is unknown. -/
def Cut (bytes : Bytes) (len : Nat) : Prop :=
  6 ≤ bytes.length ∧ ¬ Known (byteAt bytes 5) ∨
  len = bytes.length + 1 ∧ low (crcOf (bytes.take (len - 2))) ≠ byteAt bytes (len - 2) ∨
  bytes.length < 6 ∧ len = 6 ∧ ¬ Known (high (crcOf (bytes.take 4))) ∨
  bytes.length = 5 ∧ len = 7 ∧ ¬ Known (low (crcOf (bytes.take 5)))

def Settled (bytes : Bytes) : Prop :=
  4 ≤ bytes.length ∧ 2 ≤ declares bytes ∧ declares bytes ≤ packetLen ∧
  (declares bytes ≤ bytes.length → Whole bytes (declares bytes)) ∧
  (bytes.length < declares bytes → Cut bytes (declares bytes))

/- The parser's outcome as a function of the buffer alone. -/
def parsed (b : Buffer) : Option (Option (Byte × Bytes)) :=
  if 2 ≤ declared b ∧ declared b ≤ packetLen then
    if Checked b then
      if Carries (b.at 5) then
        if 8 ≤ declared b then some (some (b.at 5,(b.bytes.drop 6).take (declared b - 8))) else none
      else if b.at 5 = osdpKPD then
        if (b.at 7).toNat ≤ 56 then some (some (b.at 5,(b.bytes.drop 8).take (b.at 7).toNat)) else none
      else some (if Known (b.at 5) then some (b.at 5,[]) else none)
    else some none
  else none

theorem processParsed (packet response) : ((processPacket packet response).value.map fun (ok,_,after) =>
    if ok then some (after.response,after.payload.bytes.take after.payloadlen.toNat) else none) = parsed packet.data := by
  have cases' := processCases packet response
  generalize (processPacket packet response).value = value at cases'
  unfold parsed
  cases cases' with
  | outside sizes => exact (if_neg sizes).symm
  | wrongCrc sizes wrong =>
    rw [if_pos sizes,if_neg wrong]
    rfl
  | raw sizes checked carries long =>
    have most := sizes.2
    unfold packetLen at most
    have width : (BitVec.ofNat 8 (declared packet.data - 8)).toNat = declared packet.data - 8 := by
      rw [BitVec.toNat_ofNat]
      omega
    rw [if_pos sizes,if_pos checked,if_pos carries,if_pos long,Option.map_some]
    simp only [if_true,rawPayload,width]
    rw [copiedTake _ _ (by unfold packetLen; omega)]
    rfl
  | rawShort sizes checked carries short =>
    rw [if_pos sizes,if_pos checked,if_pos carries,if_neg short]
    rfl
  | keypad sizes checked bare isKeypad room =>
    rw [if_pos sizes,if_pos checked,if_neg bare,if_pos isKeypad,if_pos room,Option.map_some]
    simp only [if_true,keypadPayload]
    rw [copiedTake _ _ (by unfold packetLen; omega)]
    rfl
  | keypadLong sizes checked bare isKeypad long =>
    rw [if_pos sizes,if_pos checked,if_neg bare,if_pos isKeypad,if_neg long]
    rfl
  | plain sizes checked bare other =>
    rw [if_pos sizes,if_pos checked,if_neg bare,if_neg other]
    by_cases known : Known (packet.data.at 5)
    · simp only [Option.map_some,known,decide_true,if_true]
      rfl
    · simp only [Option.map_some,known,decide_false,Bool.false_eq_true,if_false]

/- The buffers that one delivery can leave are those that begin with its bytes. -/
theorem receivedPrefix (d : Delivered) (before : Buffer) : d.bytes <+: (received d before).bytes := List.prefix_append ..

theorem prefixReceived {d : Delivered} {b : Buffer} (front : d.bytes <+: b.bytes) : received d b = b := by
  obtain ⟨rest,whole⟩ := front
  cases b with
  | mk bytes size =>
    dsimp only at whole
    subst whole
    simp only [received,List.drop_left]

theorem decodeParsed {d : Delivered} (start : d.bytes.head? = some 0x53) (answer response) :
    decode (some d) answer response = parsed (received d answer.data) := by
  have some' : d.bytes ≠ [] := by
    intro empty
    rw [empty] at start
    cases start
  have front : (received d answer.data).bytes.head? = some 0x53 := by
    rw [received,List.head?_append_of_ne_nil _ some',start]
  unfold decode receivePacket recvPacket
  simp only [some',if_false,front,beq_self_eq_true,if_true]
  exact processParsed _ response

theorem decodeRefused {d : Delivered} (start : d.bytes.head? ≠ some 0x53) (answer response) :
    decode (some d) answer response = some none := by
  unfold decode receivePacket recvPacket
  by_cases empty : d.bytes = []
  · simp only [empty,if_true]
    rfl
  · have front : ((received d answer.data).bytes.head? == some 0x53) = false := by
      rw [received,List.head?_append_of_ne_nil _ empty]
      simpa using start
    simp only [empty,if_false,front,Bool.false_eq_true]
    rfl

theorem determinedParsed {d : Delivered} (start : d.bytes.head? = some 0x53) : Determined d ↔
    ∀ b b' : Buffer, d.bytes <+: b.bytes → d.bytes <+: b'.bytes → ∃ outcome,
      parsed b = some outcome ∧ parsed b' = some outcome ∧ (d.bytes.length < declared b → outcome = none) := by
  constructor
  · intro determined b b' front front'
    have same := determined ⟨0,b⟩ ⟨0,b'⟩ ⟨0,0,b⟩ ⟨0,0,b⟩
    rw [decodeParsed start,decodeParsed start,prefixReceived front,prefixReceived front'] at same
    exact same
  · intro same answer answer' response response'
    rw [decodeParsed start,decodeParsed start]
    exact same _ _ (receivedPrefix d _) (receivedPrefix d _)

section
variable {bytes : Bytes} {b b' : Buffer}

theorem takeFront (front : bytes <+: b.bytes) {k : Nat} (inside : k ≤ bytes.length) : b.bytes.take k = bytes.take k := by
  obtain ⟨rest,whole⟩ := front
  rw [← whole,List.take_append_of_le_length inside]

theorem atFront (front : bytes <+: b.bytes) {i : Nat} (inside : i < bytes.length) : b.at i = byteAt bytes i := by
  obtain ⟨rest,whole⟩ := front
  rw [Buffer.at,← whole,byteAt,List.getD_append _ _ _ _ inside]

theorem sliceFront (front : bytes <+: b.bytes) {offset count : Nat} (inside : offset + count ≤ bytes.length) :
    (b.bytes.drop offset).take count = (bytes.drop offset).take count := by
  rw [List.take_drop,List.take_drop,takeFront front inside]

theorem declaredFront (front : bytes <+: b.bytes) (header : 4 ≤ bytes.length) : declared b = declares bytes := by
  rw [declared,declares,atFront front (by omega),atFront front (by omega)]

/- A right CRC under a known code is accepted, or read out of bounds. -/
theorem knownAccepted (checked : Checked b) (known : Known (b.at 5)) : parsed b ≠ some none := by
  unfold parsed
  rw [if_pos checked,if_pos known]
  split
  · split
    · split <;> simp
    · split
      · split <;> simp
      · simp
  · simp

theorem unknownRefused (least : 2 ≤ declared b) (most : declared b ≤ packetLen) (refused : Checked b → ¬ Known (b.at 5)) :
    parsed b = some none := by
  unfold parsed
  rw [if_pos ⟨least,most⟩]
  by_cases checked : Checked b
  · have unknown := refused checked
    have bare : ¬ Carries (b.at 5) := by
      unfold Known at unknown
      unfold Carries
      tauto
    have other : b.at 5 ≠ osdpKPD := by
      unfold Known at unknown
      tauto
    rw [if_pos checked,if_neg bare,if_neg other,if_neg unknown]
  · rw [if_neg checked]

/- The bytes `xs` with their CRC, and acknowledges behind it. -/
def sealed (xs : Bytes) (room : xs.length ≤ 62) : Buffer :=
  ⟨xs ++ low (crcOf xs) :: high (crcOf xs) :: List.replicate (62 - xs.length) osdpACK,by
    simp only [List.length_append,List.length_cons,List.length_replicate]
    unfold packetLen
    omega⟩

theorem sealedBytes (xs : Bytes) (room) : (sealed xs room).bytes =
    xs ++ low (crcOf xs) :: high (crcOf xs) :: List.replicate (62 - xs.length) osdpACK := rfl

theorem sealedLow (xs : Bytes) (room) {i : Nat} (place : i = xs.length) : (sealed xs room).at i = low (crcOf xs) := by
  subst place
  rw [Buffer.at,sealedBytes,List.getD_append_right _ _ _ _ (le_refl _),Nat.sub_self]
  rfl

theorem sealedHigh (xs : Bytes) (room) {i : Nat} (place : i = xs.length + 1) : (sealed xs room).at i = high (crcOf xs) := by
  subst place
  rw [Buffer.at,sealedBytes,List.getD_append_right _ _ _ _ (by omega),Nat.add_sub_cancel_left]
  rfl

theorem sealedTail (xs : Bytes) (room) {i : Nat} (after : xs.length + 2 ≤ i) (inside : i < packetLen) :
    (sealed xs room).at i = osdpACK := by
  unfold packetLen at inside
  rw [Buffer.at,sealed,List.getD_append_right _ _ _ _ (by omega)]
  obtain ⟨j,rfl⟩ : ∃ j, i = xs.length + (j + 2) := ⟨i - xs.length - 2,by omega⟩
  rw [Nat.add_sub_cancel_left,List.getD_cons_succ,List.getD_cons_succ,List.getD_replicate]
  omega

theorem sealedChecked (xs : Bytes) (room) (len : declared (sealed xs room) = xs.length + 2) : Checked (sealed xs room) := by
  have before : (sealed xs room).bytes.take xs.length = xs := by
    rw [sealed,List.take_append_of_le_length (le_refl _),List.take_length]
  unfold Checked
  rw [len,Nat.add_sub_cancel,before]
  exact wordEq.mpr ⟨(sealedHigh xs room rfl).symm,(sealedLow xs room rfl).symm⟩

theorem sealedBefore (xs : Bytes) (room) {i : Nat} (inside : i < xs.length) : (sealed xs room).at i = byteAt xs i := by
  rw [Buffer.at,sealed,List.getD_append _ _ _ _ inside,byteAt]

theorem ackKnown : Known osdpACK := .inl rfl

/- A leftover that completes the frame with a right CRC must not bring a known code. -/
theorem completedUnknown (refuses : ∀ b : Buffer, bytes <+: b.bytes → parsed b = some none) (header : 4 ≤ bytes.length)
    {xs : Bytes} (len : declares bytes = xs.length + 2) (room : xs.length ≤ 62)
    (front : bytes <+: (sealed xs room).bytes) : ¬ Known ((sealed xs room).at 5) := by
  intro known
  have checked := sealedChecked xs room ((declaredFront front header).trans len)
  exact knownAccepted checked known (refuses _ front)

theorem cutOneByte (refuses : ∀ b : Buffer, bytes <+: b.bytes → parsed b = some none) (header : 4 ≤ bytes.length)
    (most : declares bytes ≤ packetLen) (one : declares bytes = bytes.length + 1) : Cut bytes (declares bytes) := by
  unfold packetLen at most
  by_cases lower : low (crcOf (bytes.take (declares bytes - 2))) = byteAt bytes (declares bytes - 2)
  · have last : declares bytes - 2 = bytes.length - 1 := by omega
    rw [last] at lower
    have length : (bytes.take (bytes.length - 1)).length = bytes.length - 1 := by rw [List.length_take]; omega
    have room : (bytes.take (bytes.length - 1)).length ≤ 62 := by omega
    have whole : bytes = bytes.take (bytes.length - 1) ++ [low (crcOf (bytes.take (bytes.length - 1)))] := by
      have bound : bytes.length - 1 < bytes.length := by omega
      rw [lower,byteAt,List.getD_eq_getElem _ _ bound,List.take_append_getElem,Nat.sub_add_cancel (by omega),List.take_length]
    have front : bytes <+: (sealed _ room).bytes := by
      rw [sealedBytes]
      nth_rewrite 1 [whole]
      exact List.prefix_append_right_inj _ |>.mpr (List.prefix_cons_inj _ |>.mpr List.nil_prefix)
    have unknown := completedUnknown refuses header (by rw [length]; omega) room front
    by_cases six : 6 ≤ bytes.length
    · rw [atFront front (by omega)] at unknown
      exact .inl ⟨six,unknown⟩
    · by_cases five : bytes.length = 5
      · rw [sealedHigh _ room (by omega),five] at unknown
        exact .inr (.inr (.inl ⟨by omega,by omega,unknown⟩))
      · rw [sealedTail _ room (by omega) (by decide)] at unknown
        exact absurd ackKnown unknown
  · exact .inr (.inl ⟨one,lower⟩)

theorem cutMoreBytes (refuses : ∀ b : Buffer, bytes <+: b.bytes → parsed b = some none) (header : 4 ≤ bytes.length)
    (most : declares bytes ≤ packetLen) (more : bytes.length + 2 ≤ declares bytes) : Cut bytes (declares bytes) := by
  unfold packetLen at most
  have completed : ∀ filler : Bytes, declares bytes = bytes.length + filler.length + 2 →
      ∀ room, ¬ Known ((sealed (bytes ++ filler) room).at 5) := by
    intro filler len room
    refine completedUnknown refuses header (by rw [List.length_append]; exact len) room ?_
    rw [sealedBytes,List.append_assoc]
    exact List.prefix_append ..
  have acks := completed (List.replicate (declares bytes - 2 - bytes.length) osdpACK)
    (by rw [List.length_replicate]; omega) (by rw [List.length_append,List.length_replicate]; omega)
  by_cases six : 6 ≤ bytes.length
  · rw [sealedBefore _ _ (by rw [List.length_append]; omega),byteAt,List.getD_append _ _ _ _ (by omega)] at acks
    exact .inl ⟨six,acks⟩
  · by_cases eight : 8 ≤ declares bytes
    · rw [sealedBefore _ _ (by rw [List.length_append,List.length_replicate]; omega),byteAt,
        List.getD_append_right _ _ _ _ (by omega),List.getD_replicate _ (by omega)] at acks
      exact absurd ackKnown acks
    · have bare := completed []
      simp only [List.append_nil,List.length_nil,Nat.add_zero] at bare
      by_cases exact' : declares bytes = bytes.length + 2
      · have unknown := bare exact' (by omega)
        by_cases five : bytes.length = 5
        · rw [sealedLow bytes _ five.symm] at unknown
          refine .inr (.inr (.inr ⟨five,by omega,?_⟩))
          rw [List.take_of_length_le (by omega)]
          exact unknown
        · have four : bytes.length = 4 := by omega
          rw [sealedHigh bytes _ (by omega)] at unknown
          refine .inr (.inr (.inl ⟨by omega,by omega,?_⟩))
          rw [List.take_of_length_le (by omega)]
          exact unknown
      -- Four bytes of seven: some fifth byte makes the low byte of the CRC an acknowledge.
      · have four : bytes.length = 4 := by omega
        have unknown := completed [high (crcOf bytes) ^^^ 0x44] (by rw [List.length_singleton]; omega)
          (by rw [List.length_append,List.length_singleton]; omega)
        rw [sealedLow _ _ (by rw [List.length_append,List.length_singleton]; omega),crcSnoc,crcReaches] at unknown
        exact absurd ackKnown unknown

/- The bytes received, and one value all over the rest of the buffer. -/
def filled (bytes : Bytes) (v : Byte) (fits : bytes.length ≤ packetLen) : Buffer :=
  ⟨bytes ++ List.replicate (packetLen - bytes.length) v,by
    rw [List.length_append,List.length_replicate]
    omega⟩

theorem filledFront (bytes : Bytes) (v : Byte) (fits) : bytes <+: (filled bytes v fits).bytes := List.prefix_append ..

theorem filledAt (bytes : Bytes) (v : Byte) (fits) {i : Nat} (after : bytes.length ≤ i) (inside : i < packetLen) :
    (filled bytes v fits).at i = v := by
  rw [Buffer.at,filled,List.getD_append_right _ _ _ _ after,List.getD_replicate _ (by omega)]

theorem wholeChecked (front : bytes <+: b.bytes) (header : 4 ≤ bytes.length) (least : 2 ≤ declares bytes)
    (whole : declares bytes ≤ bytes.length) : Checked b ↔
      crcOf (bytes.take (declares bytes - 2)) = word (byteAt bytes (declares bytes - 1)) (byteAt bytes (declares bytes - 2)) := by
  rw [Checked,declaredFront front header,takeFront front (by omega),atFront front (by omega),atFront front (by omega)]

theorem parsedKeypad (least : 2 ≤ declared b) (most : declared b ≤ packetLen) (checked : Checked b) (isKeypad : b.at 5 = osdpKPD) :
    parsed b = if (b.at 7).toNat ≤ 56 then some (some (osdpKPD,(b.bytes.drop 8).take (b.at 7).toNat)) else none := by
  have bare : ¬ Carries (b.at 5) := by rw [isKeypad]; decide
  unfold parsed
  rw [if_pos ⟨least,most⟩,if_pos checked,if_neg bare,if_pos isKeypad,isKeypad]

/- A keypad reply whose count reaches past what was received hands leftovers over. -/
theorem keypadReceived (fits : bytes.length ≤ packetLen) (header : 8 ≤ bytes.length)
    (same : ∀ b b' : Buffer, bytes <+: b.bytes → bytes <+: b'.bytes → parsed b = parsed b')
    (least : 2 ≤ declares bytes) (most : declares bytes ≤ packetLen)
    (checked : ∀ b : Buffer, bytes <+: b.bytes → Checked b) (isKeypad : byteAt bytes 5 = osdpKPD)
    (small : (byteAt bytes 7).toNat ≤ 56) : 8 + (byteAt bytes 7).toNat ≤ bytes.length := by
  by_contra past
  unfold packetLen at fits
  have payload : ∀ v, ∃ rest, parsed (filled bytes v fits) = some (some (osdpKPD,bytes.drop 8 ++ v :: rest)) := by
    intro v
    have front := filledFront bytes v fits
    have len := declaredFront front (by omega)
    rw [parsedKeypad (len ▸ least) (len ▸ most) (checked _ front) ((atFront front (by omega)).trans isKeypad),
      atFront front (by omega),if_pos small]
    refine ⟨List.replicate ((byteAt bytes 7).toNat - (bytes.length - 8) - 1) v,?_⟩
    have taken : (filled bytes v fits).bytes.drop 8 = bytes.drop 8 ++ List.replicate (packetLen - bytes.length) v :=
      List.drop_append_of_le_length header
    have length : (bytes.drop 8).length = bytes.length - 8 := List.length_drop ..
    obtain ⟨k,more⟩ : ∃ k, (byteAt bytes 7).toNat - (bytes.length - 8) = k + 1 := ⟨_,(Nat.sub_add_cancel (by omega)).symm⟩
    have least' : min (k + 1) (packetLen - bytes.length) = k + 1 := by unfold packetLen; omega
    rw [taken,List.take_append,length,List.take_of_length_le (by omega),List.take_replicate,more,least',Nat.add_sub_cancel]
    rfl
  obtain ⟨rest,zeros⟩ := payload 0
  obtain ⟨rest',ones⟩ := payload 1
  have equal := same _ _ (filledFront bytes 0 fits) (filledFront bytes 1 fits)
  rw [zeros,ones] at equal
  simp at equal

theorem wholeNecessary (fits : bytes.length ≤ packetLen) (header : 4 ≤ bytes.length)
    (same : ∀ b b' : Buffer, bytes <+: b.bytes → bytes <+: b'.bytes → parsed b = parsed b')
    (defined : ∀ b : Buffer, bytes <+: b.bytes → parsed b ≠ none)
    (least : 2 ≤ declares bytes) (whole : declares bytes ≤ bytes.length) : Whole bytes (declares bytes) := by
  have most : declares bytes ≤ packetLen := whole.trans fits
  by_cases right : crcOf (bytes.take (declares bytes - 2)) =
      word (byteAt bytes (declares bytes - 1)) (byteAt bytes (declares bytes - 2))
  · have checked : ∀ b : Buffer, bytes <+: b.bytes → Checked b := fun b front => (wholeChecked front header least whole).mpr right
    have len : ∀ b : Buffer, bytes <+: b.bytes → declared b = declares bytes := fun b front => declaredFront front header
    have six : 6 ≤ bytes.length := by
      by_contra short
      have acks := filledFront bytes osdpACK fits
      have zeros := filledFront bytes 0 fits
      have known : Known ((filled bytes osdpACK fits).at 5) := by
        rw [filledAt _ _ _ (by omega) (by decide)]
        exact ackKnown
      have unknown : ¬ Known ((filled bytes 0 fits).at 5) := by
        rw [filledAt _ _ _ (by omega) (by decide)]
        decide
      have refused := unknownRefused (len _ zeros ▸ least) (len _ zeros ▸ most) (fun _ => unknown)
      exact knownAccepted (checked _ acks) known ((same _ _ acks zeros).trans refused)
    refine .inr ⟨six,fun carries => ?_,fun isKeypad => ?_⟩
    · by_contra short
      have zeros := filledFront bytes 0 fits
      refine defined _ zeros ?_
      unfold parsed
      rw [len _ zeros,if_pos ⟨least,most⟩,if_pos (checked _ zeros),atFront zeros (by omega),if_pos carries,if_neg short]
    · have keypad : ∀ b : Buffer, bytes <+: b.bytes → (b.at 7).toNat ≤ 56 := by
        intro b front
        by_contra large
        refine defined b front ?_
        rw [parsedKeypad (len b front ▸ least) (len b front ▸ most) (checked b front)
          ((atFront front (by omega)).trans isKeypad),if_neg large]
      have eight : 8 ≤ bytes.length := by
        by_contra short
        have large := keypad _ (filledFront bytes 0xff fits)
        rw [filledAt _ _ _ (by omega) (by decide)] at large
        exact absurd large (by decide)
      have zeros := filledFront bytes 0 fits
      have small := keypad _ zeros
      rw [atFront zeros (by omega)] at small
      exact ⟨eight,keypadReceived fits eight same least most checked isKeypad small⟩
  · exact .inl right

/- A cut frame of one of the kinds above is refused, whatever completes it. -/
theorem cutRefused (header : 4 ≤ bytes.length) (least : 2 ≤ declares bytes) (most : declares bytes ≤ packetLen)
    (cut : Cut bytes (declares bytes)) (front : bytes <+: b.bytes) : parsed b = some none := by
  have len := declaredFront front header
  refine unknownRefused (len ▸ least) (len ▸ most) (fun checked known => ?_)
  unfold Checked at checked
  rw [len] at checked
  obtain ⟨upper,lower⟩ := wordEq.mp checked
  rcases cut with ⟨six,unknown⟩ | ⟨one,wrong⟩ | ⟨few,len6,unknown⟩ | ⟨five,len7,unknown⟩
  · rw [atFront front (by omega)] at known
    exact unknown known
  · rw [takeFront front (by omega),atFront front (by omega)] at lower
    exact wrong lower
  · rw [len6,takeFront front (by omega)] at upper
    rw [← upper] at known
    exact unknown known
  · rw [len7,takeFront front (by omega)] at lower
    rw [← lower] at known
    exact unknown known

theorem wholeSame (fits : bytes.length ≤ packetLen) (header : 4 ≤ bytes.length) (least : 2 ≤ declares bytes)
    (whole : declares bytes ≤ bytes.length) (settled : Whole bytes (declares bytes)) :
    ∃ outcome, ∀ b : Buffer, bytes <+: b.bytes → parsed b = some outcome := by
  have sized : 2 ≤ declares bytes ∧ declares bytes ≤ packetLen := ⟨least,whole.trans fits⟩
  by_cases right : crcOf (bytes.take (declares bytes - 2)) =
      word (byteAt bytes (declares bytes - 1)) (byteAt bytes (declares bytes - 2))
  · obtain ⟨six,raw,keypad⟩ := settled.resolve_left (fun wrong => wrong right)
    have value : ∀ b : Buffer, bytes <+: b.bytes → parsed b =
        if Carries (byteAt bytes 5) then some (some (byteAt bytes 5,(bytes.drop 6).take (declares bytes - 8)))
        else if byteAt bytes 5 = osdpKPD then some (some (byteAt bytes 5,(bytes.drop 8).take (byteAt bytes 7).toNat))
        else some (if Known (byteAt bytes 5) then some (byteAt bytes 5,[]) else none) := by
      intro b front
      have checked := (wholeChecked front header least whole).mpr right
      unfold parsed
      rw [declaredFront front header,if_pos sized,if_pos checked,atFront front (by omega)]
      by_cases carries : Carries (byteAt bytes 5)
      · have eight := raw carries
        rw [if_pos carries,if_pos carries,if_pos eight,sliceFront front (by omega)]
      · rw [if_neg carries,if_neg carries]
        by_cases isKeypad : byteAt bytes 5 = osdpKPD
        · obtain ⟨eight,room⟩ := keypad isKeypad
          unfold packetLen at fits
          rw [if_pos isKeypad,if_pos isKeypad,atFront front (by omega),if_pos (by omega),sliceFront front room]
        · rw [if_neg isKeypad,if_neg isKeypad]
    by_cases carries : Carries (byteAt bytes 5)
    · exact ⟨_,fun b front => (value b front).trans (if_pos carries)⟩
    · by_cases isKeypad : byteAt bytes 5 = osdpKPD
      · exact ⟨_,fun b front => (value b front).trans ((if_neg carries).trans (if_pos isKeypad))⟩
      · exact ⟨_,fun b front => (value b front).trans ((if_neg carries).trans (if_neg isKeypad))⟩
  · refine ⟨none,fun b front => ?_⟩
    have len := declaredFront front header
    exact unknownRefused (len ▸ sized.1) (len ▸ sized.2)
      (fun checked => absurd ((wholeChecked front header least whole).mp checked) right)

end

/- A poll decodes by its own bytes just when they are refused at their first one or settle
the outcome. -/
theorem decodesReceived (d : Delivered) : Determined d ↔ (d.bytes.head? = some 0x53 → Settled d.bytes) := by
  by_cases start : d.bytes.head? = some 0x53
  · rw [determinedParsed start]
    simp only [start,true_implies]
    have fits := d.fits
    have some' : 0 < d.bytes.length := by
      rw [List.length_pos_iff]
      intro empty
      rw [empty] at start
      cases start
    constructor
    · intro determined
      have defined : ∀ b : Buffer, d.bytes <+: b.bytes → parsed b ≠ none := by
        intro b front undefined
        obtain ⟨outcome,value,_⟩ := determined b b front front
        rw [undefined] at value
        cases value
      have sized : ∀ b : Buffer, d.bytes <+: b.bytes → 2 ≤ declared b ∧ declared b ≤ packetLen := by
        intro b front
        by_contra outside
        exact defined b front (if_neg outside)
      have header : 4 ≤ d.bytes.length := by
        by_contra short
        have bound := (sized _ (filledFront d.bytes 0xff fits)).2
        have upper : (filled d.bytes 0xff fits).at 3 = 0xff := filledAt _ _ _ (by omega) (by decide)
        have large : 0xff00 ≤ declared (filled d.bytes 0xff fits) := by
          rw [declared,upper,wordNat]
          exact Nat.le_add_right ..
        unfold packetLen at bound
        omega
      obtain ⟨least,most⟩ := sized _ (filledFront d.bytes 0 fits)
      rw [declaredFront (filledFront d.bytes 0 fits) header] at least most
      refine ⟨header,least,most,fun whole => ?_,fun short => ?_⟩
      · refine wholeNecessary fits header (fun b b' front front' => ?_) defined least whole
        obtain ⟨outcome,value,value',_⟩ := determined b b' front front'
        exact value.trans value'.symm
      · have refuses : ∀ b : Buffer, d.bytes <+: b.bytes → parsed b = some none := by
          intro b front
          obtain ⟨outcome,value,_,refused⟩ := determined b b front front
          rw [value,refused (by rw [declaredFront front header]; exact short)]
        by_cases one : declares d.bytes = d.bytes.length + 1
        · exact cutOneByte refuses header most one
        · exact cutMoreBytes refuses header most (by omega)
    · rintro ⟨header,least,most,whole,cut⟩ b b' front front'
      by_cases short : d.bytes.length < declares d.bytes
      · have refused := fun b => cutRefused (b := b) header least most (cut short)
        exact ⟨none,refused b front,refused b' front',fun _ => rfl⟩
      · obtain ⟨outcome,value⟩ := wholeSame fits header least (by omega) (whole (by omega))
        refine ⟨outcome,value b front,value b' front',fun cut => absurd cut ?_⟩
        rw [declaredFront front header]
        exact short
  · refine iff_of_true (fun answer answer' response response' => ?_) (fun h => absurd h start)
    exact ⟨none,decodeRefused start answer response,decodeRefused start answer' response',fun _ => rfl⟩

/- Twelve bytes of a card frame of fourteen, over the frame that the poll before left. -/
def leftover : Buffer := ⟨[0x53,0x7f,0x0e,0x00,0x04,0x50,0x00,0x00,0x00,0x00,0xaa,0xbb,0x4f,0x4e] ++ List.replicate 50 0,by decide⟩
def truncated : Delivered := ⟨[0x53,0x7f,0x0e,0x00,0x04,0x50,0x00,0x00,0x00,0x00,0xaa,0xbb],by decide⟩

set_option maxRecDepth 10000 in
theorem leftoverCompletes : truncated.bytes.length < declared (received truncated leftover) ∧
    decode (some truncated) ⟨0,leftover⟩ ⟨0,0,leftover⟩ = some (some (osdpRAW,[0x00,0x00,0x00,0x00,0xaa,0xbb])) ∧
    decode (some truncated) ⟨0,filled [] 0 (by decide)⟩ ⟨0,0,leftover⟩ = some none ∧ ¬ Determined truncated := by
  have completed : decode (some truncated) ⟨0,leftover⟩ ⟨0,0,leftover⟩ =
      some (some (osdpRAW,[0x00,0x00,0x00,0x00,0xaa,0xbb])) := by decide
  have short : truncated.bytes.length < declared (received truncated leftover) := by decide
  refine ⟨short,completed,by decide,fun determined => ?_⟩
  obtain ⟨outcome,value,_,refused⟩ := determined ⟨0,leftover⟩ ⟨0,leftover⟩ ⟨0,0,leftover⟩ ⟨0,0,leftover⟩
  rw [completed,refused short] at value
  cases value

end AccessControl.OsdpDecode
