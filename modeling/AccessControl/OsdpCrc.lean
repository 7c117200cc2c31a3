import AccessControl.CrcShift
import AccessControl.OsdpFrame

/-! Noise on a built frame: two neighbouring bytes under the CRC, or the two bytes of the
CRC. The parser refuses what it leaves. -/
namespace AccessControl.OsdpCrc
open BitMask CrcTable CrcShift Traced OsdpPacket OsdpFrame

/- Two neighbours are altered, one of them at least, and no other byte of the frame. -/
structure Altered (len i : Nat) (a b : Buffer) : Prop where
  pair : (b.at i,b.at (i + 1)) ≠ (a.at i,a.at (i + 1))
  others : ∀ j, j < len → j ≠ i → j ≠ i + 1 → b.at j = a.at j

/- The length bytes stay as they are. -/
def UnderCrc (len : Nat) (a b : Buffer) : Prop :=
  ∃ i, i + 1 ≤ len - 3 ∧ Altered len i a b ∧ b.at 2 = a.at 2 ∧ b.at 3 = a.at 3

def OverCrc (len : Nat) (a b : Buffer) : Prop := Altered len (len - 2) a b

section
variable {a b : Buffer} {len i : Nat}

theorem takePair (b : Buffer) {m : Nat} (inside : i + 2 ≤ m) (fits : m ≤ packetLen) :
    b.bytes.take m = b.bytes.take i ++ b.at i :: b.at (i + 1) :: (b.bytes.take m).drop (i + 2) := by
  have size := b.size
  have first : i < (b.bytes.take m).length := by
    rw [List.length_take]
    omega
  have second : i + 1 < (b.bytes.take m).length := by
    rw [List.length_take]
    omega
  have here : (b.bytes.take m)[i] = b.at i := by
    rw [List.getElem_take,Buffer.at,List.getD_eq_getElem]
  have next : (b.bytes.take m)[i + 1] = b.at (i + 1) := by
    rw [List.getElem_take,Buffer.at,List.getD_eq_getElem]
  have before : (b.bytes.take m).take i = b.bytes.take i := by
    rw [List.take_take,Nat.min_eq_left (by omega)]
  have split := List.take_append_drop i (b.bytes.take m)
  rw [List.drop_eq_getElem_cons first,List.drop_eq_getElem_cons second,here,next,before] at split
  exact split.symm

/- Outside the pair the blocks under the CRC are the same. -/
theorem sliceSame {p q : Nat} (same : ∀ j, p ≤ j → j < q → b.at j = a.at j) (fits : q ≤ packetLen) :
    (b.bytes.take q).drop p = (a.bytes.take q).drop p := by
  have size := b.size
  have size' := a.size
  apply List.ext_getElem
  · rw [List.length_drop,List.length_drop,List.length_take,List.length_take]
    omega
  · intro j left right
    rw [List.length_drop,List.length_take] at left right
    have at' := same (p + j) (by omega) (by omega)
    rw [Buffer.at,Buffer.at,List.getD_eq_getElem _ _ (by omega),List.getD_eq_getElem _ _ (by omega)] at at'
    rw [List.getElem_drop,List.getElem_drop,List.getElem_take,List.getElem_take]
    exact at'

theorem alteredCrc (noise : Altered len i a b) (place : i + 2 ≤ len - 2) (fits : len ≤ packetLen) :
    crcOf (b.bytes.take (len - 2)) ≠ crcOf (a.bytes.take (len - 2)) := by
  have front := sliceSame (p := 0) (q := i) (fun j _ small => noise.others j (by omega) (by omega) (by omega)) (by omega)
  have rest := sliceSame (p := i + 2) (q := len - 2) (fun j low high => noise.others j (by omega) (by omega) (by omega)) (by omega)
  rw [List.drop_zero,List.drop_zero] at front
  rw [takePair b place (by omega),takePair a place (by omega),front,rest]
  exact burstDiffers _ _ noise.pair

/- Noise of either kind leaves a checksum that does not belong to the bytes before it. -/
theorem noiseUnchecked (checked : Checked a) (long : declared a = len) (more : 8 ≤ len) (fits : len ≤ packetLen)
    (same : declared b = len) (noise : UnderCrc len a b ∨ OverCrc len a b) : ¬ Checked b := by
  unfold Checked at checked ⊢
  rw [long] at checked
  rw [same]
  rcases noise with ⟨i,place,pair,_⟩ | pair
  · have last := pair.others (len - 1) (by omega) (by omega) (by omega)
    have next := pair.others (len - 2) (by omega) (by omega) (by omega)
    rw [last,next,← checked]
    exact alteredCrc pair (by omega) fits
  · have covered := sliceSame (p := 0) (q := len - 2)
      (fun j _ small => pair.others j (by omega) (by omega) (by omega)) (by omega)
    have after : len - 2 + 1 = len - 1 := by omega
    rw [List.drop_zero,List.drop_zero] at covered
    rw [covered,checked]
    intro equal
    obtain ⟨upper,lower⟩ := wordEq.mp equal
    rw [wordHigh] at upper
    rw [wordLow] at lower
    have differ := pair.pair
    rw [after] at differ
    exact differ (by rw [upper,lower])

/- Neither kind touches the length that the frame declares. -/
theorem noiseDeclared (more : 8 ≤ len) (noise : UnderCrc len a b ∨ OverCrc len a b) : declared b = declared a := by
  have kept : b.at 2 = a.at 2 ∧ b.at 3 = a.at 3 := by
    rcases noise with ⟨i,place,pair,lower,upper⟩ | pair
    · exact ⟨lower,upper⟩
    · exact ⟨pair.others 2 (by omega) (by omega) (by omega),pair.others 3 (by omega) (by omega) (by omega)⟩
  rw [declared,declared,kept.1,kept.2]

end

/- A frame that noise of either kind has reached is not accepted. -/
theorem noiseRefused (packet : Packet) (address command : Byte) {data : Bytes} (room : data.length ≤ 56) {sent : Packet}
    (built : (fillPacket packet address command data).value = some sent) {altered : Packet}
    (noise : UnderCrc sent.len.toNat sent.data altered.data ∨ OverCrc sent.len.toNat sent.data altered.data)
    (response : Response) : (processPacket altered response).value = some (false,processed altered,response) := by
  obtain ⟨sent',built',len,bytes⟩ := fillBuilds packet address command room
  obtain rfl : sent = sent' := Option.some.inj (built.symm.trans built')
  have front : frame address command data <+: sent.data.bytes := by
    rw [bytes]
    exact List.prefix_append ..
  have count : sent.len.toNat = data.length + 8 := by
    rw [len,BitVec.toNat_ofNat]
    omega
  have long := frameDeclared front room
  rw [count] at noise
  have most : data.length + 8 ≤ packetLen := by
    unfold packetLen
    omega
  have same := (noiseDeclared (by omega) noise).trans long
  have wrong := noiseUnchecked (frameChecked front room) long (by omega) most same noise
  have sizes : 2 ≤ declared altered.data ∧ declared altered.data ≤ packetLen := by omega
  rw [processValue,if_pos sizes,if_neg wrong]

/- An acknowledge whose command byte and the byte before it are turned over on the line. -/
def acknowledge : Packet := ⟨8,⟨[0x53,0x01,0x08,0x00,0x04,0x40,0xd8,0x24] ++ List.replicate 56 0,by decide⟩⟩
def disturbed : Packet := ⟨8,⟨[0x53,0x01,0x08,0x00,0xfb,0xbf,0xd8,0x24] ++ List.replicate 56 0,by decide⟩⟩

set_option maxRecDepth 10000 in
theorem noiseRefusedCommand : (processPacket disturbed ⟨0,0,clear⟩).value = some (false,processed disturbed,⟨0,0,clear⟩) := by
  have built : (fillPacket ⟨0,clear⟩ 0x01 osdpACK []).value = some acknowledge := rfl
  have pair : Altered 8 4 acknowledge.data disturbed.data := ⟨by decide,by decide⟩
  exact noiseRefused ⟨0,clear⟩ 0x01 osdpACK (by decide) built (.inl ⟨4,by decide,pair,rfl,rfl⟩) ⟨0,0,clear⟩

end AccessControl.OsdpCrc
