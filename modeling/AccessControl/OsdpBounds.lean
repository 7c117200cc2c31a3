import AccessControl.OsdpPacket

/-! The indices that a received packet makes the parser use. The declared length and the
keypad's count come from the wire; the code takes both as they are. -/
namespace AccessControl.OsdpBounds
open BitMask CrcTable Traced OsdpPacket

/- Inside its array, and no difference below zero. -/
def Within : Use → Prop
  | .data i => i < packetLen
  | .payload i => i < packetLen
  | .minus len amount => amount ≤ len

def isPayload : Use → Bool
  | .payload _ => true
  | _ => false

/- Every use is within, and `payloadlen`, where it is set, counts the bytes copied. -/
def Bounded (run : Trace Use (Bool × Packet × Response)) (response : Response) : Prop :=
  Every Within run ∧ ∀ ok packet after, run.value = some (ok,packet,after) →
    (ok = true → count isPayload run = after.payloadlen.toNat) ∧
    (ok = false → count isPayload run = 0 ∧ (after = response ∨ after.payloadlen = 0))

/- The lengths that fit: the declared one, and with a right CRC those that the code copies by. -/
def Sized (b : Buffer) : Prop :=
  2 ≤ declared b ∧ declared b ≤ packetLen ∧
  (Checked b → (Carries (b.at 5) → 8 ≤ declared b) ∧ (b.at 5 = osdpKPD → (b.at 7).toNat ≤ 56))

theorem withinInside {u : Use} (h : Within u) : Inside u := by
  cases u
  · exact h
  · exact h
  · trivial

section
variable (place : Nat → Use) (b : Buffer) (i : Nat)

theorem loadStops (inside : Inside (place i) ↔ i < packetLen) : Stops Inside (load place b i) := by
  refine stopsUse ?_
  rw [inside,← b.size]
  simp

theorem storeStops (inside : Inside (place i) ↔ i < packetLen) (v : Byte) : Stops Inside (store place b i v) := by
  refine stopsUse ?_
  rw [inside]
  split <;> simp [*]

end

theorem minusStops (len : BitVec 32) (amount : Nat) : Stops Inside (minus len amount) :=
  stopsBind (stopsNote trivial) (fun _ => stopsPure _)

theorem crcStops (b : Buffer) (nLength : BitVec 16) : Stops Inside (fCrcBlk b nLength) :=
  stopsUp (fun ii _ => stopsBind (loadStops .data b ii Iff.rfl) (fun _ => stopsPure _)) _ 0 _

theorem memcpyStops (payload data : Buffer) (offset count : Nat) : Stops Inside (memcpy payload data offset count) :=
  stopsUp (fun i payload => stopsBind (loadStops .data data (offset + i) Iff.rfl)
    (fun v => storeStops .payload payload i Iff.rfl v)) count 0 payload

theorem replyStops (packet response) : Stops Inside (reply packet response) := by
  have raw : Stops Inside (rawReply packet response) :=
    stopsBind (minusStops _ 8) (fun _ => stopsBind (memcpyStops ..)
      (fun _ => stopsBind (minusStops _ 8) (fun _ => stopsPure _)))
  have keypad : Stops Inside (keypadReply packet response) :=
    stopsBind (loadStops .data packet.data 7 Iff.rfl) (fun _ => stopsBind (memcpyStops ..) (fun _ => stopsPure _))
  refine stopsBind (loadStops .data packet.data 5 Iff.rfl) (fun code => ?_)
  split
  · exact stopsPure _
  · split
    · exact raw
    · split
      · exact keypad
      · split
        · exact raw
        · exact stopsPure _

theorem crcOkStops (packet) : Stops Inside (crcOk packet) :=
  stopsBind (minusStops _ 2) (fun _ => stopsBind (crcStops ..) (fun _ => stopsBind (minusStops _ 1)
    (fun _ => stopsBind (loadStops .data _ _ Iff.rfl) (fun _ => stopsBind (minusStops _ 2)
      (fun _ => stopsBind (loadStops .data _ _ Iff.rfl) (fun _ => stopsPure _))))))

/- The parser has a meaning just when all its indices are inside. -/
theorem processStops (packet response) : Stops Inside (processPacket packet response) := by
  refine stopsBind (loadStops .data _ 3 Iff.rfl) (fun _ => stopsBind (loadStops .data _ 2 Iff.rfl) (fun _ => ?_))
  refine stopsBind (crcOkStops _) (fun ok => ?_)
  split
  · exact stopsBind (loadStops .data _ 5 Iff.rfl) (fun _ => replyStops ..)
  · exact stopsPure _

section
variable {P : Use → Prop} {packet : Packet} {response : Response}

theorem minusEvery (len : BitVec 32) (amount : Nat) : Every P (minus len amount) ↔ P (.minus len.toNat amount) := by
  simp [minus,everyBind]

theorem minusNone (len : BitVec 32) (amount : Nat) : count isPayload (minus len amount) = 0 :=
  countNone ((minusEvery len amount).mpr rfl)

theorem loadNone (b : Buffer) (i : Nat) : count isPayload (load .data b i) = 0 :=
  countNone ((everyUse _ _).mpr rfl)

/- The CRC of a packet that fits is computed inside it, and copies nothing. -/
theorem crcOkWithin (least : 2 ≤ declared packet.data) (most : declared packet.data ≤ packetLen) :
    Every (fun u => Within u ∧ isPayload u = false) (crcOk (processed packet)) := by
  have len := processedLen packet
  have one := lessNat packet 1 (by omega)
  have two := lessNat packet 2 (by omega)
  rw [if_pos least] at two
  rw [if_pos (by omega)] at one
  unfold packetLen at most
  have minuses : ∀ amount ≤ 2, Every (fun u => Within u ∧ isPayload u = false) (minus (processed packet).len amount) := by
    intro amount small
    refine (minusEvery _ _).mpr ⟨?_,rfl⟩
    rw [Within,len]
    omega
  have loads : ∀ i < 64, Every (fun u => Within u ∧ isPayload u = false) (load .data packet.data i) :=
    fun i inside => (everyUse _ _).mpr ⟨inside,rfl⟩
  unfold crcOk
  refine everyBind.mpr ⟨minuses 2 (le_refl 2),fun nLength taken => ?_⟩
  cases Option.some.inj ((minusValue _ _).symm.trans taken)
  refine everyBind.mpr ⟨?_,fun crc _ => everyBind.mpr ⟨minuses 1 (by omega),fun last taken => ?_⟩⟩
  · refine everyUp (fun ii nCrc _ high => everyBind.mpr ⟨loads ii ?_,fun _ _ => everyPure _⟩) _
    rw [BitVec.toNat_setWidth,two] at high
    omega
  · cases Option.some.inj ((minusValue _ _).symm.trans taken)
    refine everyBind.mpr ⟨loads _ (by omega),fun upper _ => everyBind.mpr ⟨minuses 2 (le_refl 2),fun last taken => ?_⟩⟩
    cases Option.some.inj ((minusValue _ _).symm.trans taken)
    exact everyBind.mpr ⟨loads _ (by omega),fun lower _ => everyPure _⟩

theorem memcpyWithin (payload data : Buffer) {offset copies : Nat} (room : offset + copies ≤ packetLen) :
    Every Within (memcpy payload data offset copies) ∧ count isPayload (memcpy payload data offset copies) = copies := by
  constructor
  · refine everyUp (fun i payload _ high => everyBind.mpr ⟨(everyUse _ _).mpr ?_,fun _ _ => (everyUse _ _).mpr ?_⟩) payload
    · show offset + i < packetLen
      omega
    · show i < packetLen
      omega
  · have first : ∀ i < copies, (load .data data (offset + i)).value = some (data.at (offset + i)) :=
      fun i small => loadSome _ _ (by omega)
    have turn : ∀ i payload, i < copies → (do let b ← load .data data (offset + i); store .payload payload i b : Trace Use Buffer).value =
        some (payload.set i (data.at (offset + i))) := by
      intro i payload small
      rw [valueBind,first i small,Option.bind_some,storeValue,if_pos (by omega)]
    have each : ∀ i payload, i < copies →
        count isPayload (do let b ← load .data data (offset + i); store .payload payload i b : Trace Use Buffer) = 1 := by
      intro i payload small
      rw [countBind (first i small),loadNone]
      rfl
    have loop := countUp turn each copies 0 payload (by omega)
    rw [Nat.mul_one] at loop
    exact loop

/- What is copied into the payload, with the condition under which all of it is inside. -/
theorem rawWithin (response) (least : 8 ≤ declared packet.data) (most : declared packet.data ≤ packetLen) :
    Every Within (rawReply (processed packet) response) ∧
    count isPayload (rawReply (processed packet) response) = declared packet.data - 8 := by
  have len := processedLen packet
  have eight := lessNat packet 8 (le_refl 8)
  rw [if_pos least] at eight
  have minuses : Every Within (minus (processed packet).len 8) := (minusEvery _ _).mpr (by rw [Within,len]; exact least)
  have room : 6 + ((processed packet).len - BitVec.ofNat 32 8).toNat ≤ packetLen := by omega
  have copy := memcpyWithin response.payload (processed packet).data room
  have done := (memcpyValue response.payload (processed packet).data (show 6 ≤ packetLen by decide)).trans (if_pos room)
  constructor
  · refine everyBind.mpr ⟨minuses,fun taken value => ?_⟩
    cases Option.some.inj ((minusValue _ _).symm.trans value)
    exact everyBind.mpr ⟨copy.1,fun _ _ => everyBind.mpr ⟨minuses,fun _ _ => everyPure _⟩⟩
  · rw [rawReply,countBind (minusValue _ _),countBind done,countBind (minusValue _ _),minusNone,copy.2,eight]
    simp

theorem keypadWithin (packet response) (room : (packet.data.at 7).toNat ≤ 56) :
    Every Within (keypadReply packet response) ∧ count isPayload (keypadReply packet response) = (packet.data.at 7).toNat := by
  have first : (load .data packet.data 7).value = some (packet.data.at 7) := loadSome _ _ (by decide)
  have inside : 8 + (packet.data.at 7).toNat ≤ packetLen := by unfold packetLen; omega
  have copy := memcpyWithin response.payload packet.data inside
  have done := (memcpyValue response.payload packet.data (show 8 ≤ packetLen by decide)).trans (if_pos inside)
  constructor
  · refine everyBind.mpr ⟨(everyUse _ _).mpr (show 7 < packetLen by decide),fun pinlen value => ?_⟩
    cases Option.some.inj (first.symm.trans value)
    exact everyBind.mpr ⟨copy.1,fun _ _ => everyPure _⟩
  · rw [keypadReply,countBind first,countBind done,loadNone,copy.2]
    simp

/- What is copied is what `payloadlen` says afterwards, and a refusal leaves the response alone. -/
def Copied (response : Response) (run : Trace Use (Bool × Packet × Response)) : Prop :=
  Every Within run ∧ ∀ ok p after, run.value = some (ok,p,after) → count isPayload run = after.payloadlen.toNat ∧ (ok = false → after = response)

theorem copiedTrue {run : Trace Use (Bool × Packet × Response)} {p after} (response) (within : Every Within run)
    (value : run.value = some (true,p,after)) (counted : count isPayload run = after.payloadlen.toNat) : Copied response run := by
  refine ⟨within,fun ok p after given => ?_⟩
  cases Option.some.inj (value.symm.trans given)
  exact ⟨counted,(nomatch ·)⟩

theorem plainCopied {response : Response} (ok : Bool) (fresh : response.payloadlen = 0) : Copied response (pure (ok,packet,response)) := by
  refine ⟨everyPure _,fun ok' p after same => ?_⟩
  cases same
  rw [fresh]
  exact ⟨rfl,fun _ => rfl⟩

theorem rawCopied (response) (least : 8 ≤ declared packet.data) (most : declared packet.data ≤ packetLen) :
    Copied response (rawReply (processed packet) response) := by
  have within := rawWithin response least most
  have value := (rawValue response most).trans (if_pos least)
  unfold packetLen at most
  have small : (BitVec.ofNat 8 (declared packet.data - 8)).toNat = declared packet.data - 8 := by
    rw [BitVec.toNat_ofNat]
    omega
  exact copiedTrue response within.1 value (within.2.trans small.symm)

theorem keypadCopied (packet response) (room : (packet.data.at 7).toNat ≤ 56) : Copied response (keypadReply packet response) := by
  have within := keypadWithin packet response room
  exact copiedTrue response within.1 ((keypadValue packet response).trans (if_pos room)) within.2

/- What a reply copies is what its `payloadlen` says. -/
theorem replyBounded (response) (most : declared packet.data ≤ packetLen) (fresh : response.payloadlen = 0)
    (raw : Carries (packet.data.at 5) → 8 ≤ declared packet.data)
    (keypad : packet.data.at 5 = osdpKPD → (packet.data.at 7).toNat ≤ 56) :
    Every Within (reply (processed packet) response) ∧
    ∀ ok p after, (reply (processed packet) response).value = some (ok,p,after) →
      count isPayload (reply (processed packet) response) = after.payloadlen.toNat ∧ (ok = false → after = response) := by
  have first : (load .data (processed packet).data 5).value = some (packet.data.at 5) := loadSome _ _ (by decide)
  have inside : Every Within (load .data (processed packet).data 5) := (everyUse _ _).mpr (show 5 < packetLen by decide)
  unfold reply
  rw [everyGiven first,and_iff_right inside,countBind first,loadNone,Nat.zero_add,valueBind,first,Option.bind_some]
  by_cases ack : packet.data.at 5 = osdpACK ∨ packet.data.at 5 = osdpNACK
  · simp only [if_pos ack]
    exact plainCopied true fresh
  · simp only [if_neg ack]
    split
    · rename_i isRaw
      exact rawCopied response (raw (.inl isRaw)) most
    · split
      · rename_i isKeypad
        exact keypadCopied (processed packet) response (keypad isKeypad)
      · split
        · rename_i isCom
          exact rawCopied response (raw (.inr isCom)) most
        · exact plainCopied false fresh

/- A parser that stays within bounds has an outcome, and with it lengths that fit. -/
theorem boundedSized (packet response) (bounded : Bounded (processPacket packet response) response) : Sized packet.data := by
  have defined := (processStops packet response).mpr (fun u inside => withinInside (bounded.1 u inside))
  have cases' := processCases packet response
  generalize (processPacket packet response).value = value at defined cases'
  cases cases' with
  | outside sizes => cases defined
  | wrongCrc sizes wrong => exact ⟨sizes.1,sizes.2,fun checked => absurd checked wrong⟩
  | raw sizes checked carries long =>
    refine ⟨sizes.1,sizes.2,fun _ => ⟨fun _ => long,fun isKeypad => ?_⟩⟩
    rw [isKeypad] at carries
    exact absurd carries (by decide)
  | rawShort sizes checked carries short => cases defined
  | keypad sizes checked bare isKeypad room =>
    exact ⟨sizes.1,sizes.2,fun _ => ⟨fun carries => absurd carries bare,fun _ => room⟩⟩
  | keypadLong sizes checked bare isKeypad long => cases defined
  | plain sizes checked bare other =>
    exact ⟨sizes.1,sizes.2,fun _ => ⟨fun carries => absurd carries bare,fun isKeypad => absurd isKeypad other⟩⟩

/- What follows the comparison of the CRC, for either outcome of it. -/
def judged (packet : Packet) (response : Response) (ok : Bool) : Trace Use (Bool × Packet × Response) :=
  if ok then do
    let code ← load .data packet.data 5
    reply packet {response with payloadlen := 0, response := code}
  else return (false,packet,response)

/- A packet that fits is judged within bounds, before anything is copied. -/
theorem processJudged (response) (least : 2 ≤ declared packet.data) (most : declared packet.data ≤ packetLen) :
    (Every Within (processPacket packet response) ↔
      Every Within (judged (processed packet) response (decide (Checked packet.data)))) ∧
    count isPayload (processPacket packet response) =
      count isPayload (judged (processed packet) response (decide (Checked packet.data))) := by
  have ok := (crcOkValue packet).trans (if_pos ⟨least,most⟩)
  have crc := crcOkWithin least most
  have loads : ∀ i < packetLen, Every Within (load .data packet.data i) := fun i inside => (everyUse _ _).mpr inside
  have three : (load .data packet.data 3).value = some (packet.data.at 3) := loadSome _ _ (by decide)
  have two : (load .data packet.data 2).value = some (packet.data.at 2) := loadSome _ _ (by decide)
  unfold processPacket
  constructor
  · rw [everyBind]
    simp only [loads 3 (by decide),three,true_and,Option.some.injEq,forall_eq']
    rw [everyBind]
    simp only [loads 2 (by decide),two,true_and,Option.some.injEq,forall_eq']
    change Every Within (crcOk (processed packet) >>= judged (processed packet) response) ↔ _
    rw [everyBind,ok]
    simp only [Option.some.injEq,forall_eq',and_iff_right_iff_imp]
    exact fun _ u inside => (crc u inside).1
  · rw [countBind three,countBind two,loadNone,loadNone,Nat.zero_add,Nat.zero_add]
    change count isPayload (crcOk (processed packet) >>= judged (processed packet) response) = _
    rw [countBind ok,countNone (fun u inside => (crc u inside).2),Nat.zero_add]

theorem sizedBounded (packet response) (sized : Sized packet.data) : Bounded (processPacket packet response) response := by
  obtain ⟨least,most,copies⟩ := sized
  obtain ⟨within,counted⟩ := processJudged response least most
  have inside : Every Within (load .data (processed packet).data 5) := (everyUse _ _).mpr (show 5 < packetLen by decide)
  have five : (load .data (processed packet).data 5).value = some (packet.data.at 5) := loadSome _ _ (by decide)
  unfold Bounded
  rw [within,counted,processValue,if_pos ⟨least,most⟩]
  by_cases checked : Checked packet.data
  · obtain ⟨all,each⟩ := replyBounded (coded packet response) most rfl (copies checked).1 (copies checked).2
    have whole : judged (processed packet) response (decide (Checked packet.data)) =
        load .data (processed packet).data 5 >>= fun code =>
          reply (processed packet) {response with payloadlen := 0, response := code} := if_pos (decide_eq_true checked)
    rw [whole,if_pos checked,everyBind,countBind five,loadNone,Nat.zero_add]
    refine ⟨⟨inside,fun code value => ?_⟩,fun ok p after value => ?_⟩
    · cases Option.some.inj (five.symm.trans value)
      exact all
    · obtain ⟨copied,same⟩ := each ok p after value
      refine ⟨fun _ => copied,fun refused => ?_⟩
      rw [same refused] at copied ⊢
      exact ⟨copied,.inr rfl⟩
  · have whole : judged (processed packet) response (decide (Checked packet.data)) = pure (false,processed packet,response) :=
      if_neg (by simpa using checked)
    rw [whole,if_neg checked]
    refine ⟨everyPure _,fun ok p after value => ?_⟩
    cases value
    exact ⟨(nomatch ·),fun _ => ⟨rfl,.inl rfl⟩⟩

theorem processBounded (packet response) : Bounded (processPacket packet response) response ↔ Sized packet.data :=
  ⟨boundedSized packet response,sizedBounded packet response⟩

end

/- For every byte string that `read` delivers and every content of the rest of the buffer:
the parser stays in bounds just when a frame it is given is sized. -/
theorem receiveBounded (d : Delivered) (answer : Packet) (response : Response) :
    Bounded (receivePacket (some d) answer response) response ↔
      (d.bytes.head? = some 0x53 → Sized (received d answer.data)) := by
  unfold receivePacket recvPacket
  by_cases empty : d.bytes = []
  · simp only [empty,if_true,Bool.false_eq_true,if_false,List.head?_nil,reduceCtorEq,false_implies,iff_true]
    refine ⟨everyPure _,fun ok p after value => ?_⟩
    cases value
    exact ⟨(nomatch ·),fun _ => ⟨rfl,.inl rfl⟩⟩
  · have front : (received d answer.data).bytes.head? = d.bytes.head? := by
      unfold received
      rw [List.head?_append_of_ne_nil _ empty]
    simp only [empty,if_false,front,beq_iff_eq]
    by_cases start : d.bytes.head? = some 0x53
    · rw [if_pos start]
      simp only [start,true_implies]
      exact processBounded _ response
    · rw [if_neg start]
      refine ⟨fun _ h => absurd h start,fun _ => ⟨everyPure _,fun ok p after value => ?_⟩⟩
      cases value
      exact ⟨(nomatch ·),fun _ => ⟨rfl,.inl rfl⟩⟩

/- A frame of one byte over the zeroes of a fresh buffer declares no length at all. -/
def lone : Delivered := ⟨[0x53],by decide⟩

theorem loneOutside : (receivePacket (some lone) ⟨0,clear⟩ ⟨0,0,clear⟩).value = none ∧
    Use.minus 0 2 ∈ (receivePacket (some lone) ⟨0,clear⟩ ⟨0,0,clear⟩).uses ∧
    Use.data 64 ∈ (receivePacket (some lone) ⟨0,clear⟩ ⟨0,0,clear⟩).uses ∧
    ¬ Bounded (receivePacket (some lone) ⟨0,clear⟩ ⟨0,0,clear⟩) ⟨0,0,clear⟩ := by
  have below : Use.minus 0 2 ∈ (receivePacket (some lone) ⟨0,clear⟩ ⟨0,0,clear⟩).uses := by decide
  refine ⟨by decide,below,by decide,fun bounded => ?_⟩
  exact absurd (bounded.1 _ below) (show ¬ 2 ≤ 0 by decide)

end AccessControl.OsdpBounds
