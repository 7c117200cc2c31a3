import AccessControl.KeyPacking

/-! Entries on the keypad that are longer than the buffer. The key that overflows it starts
the buffer afresh, and a later `#` hands over what came since as if it were the whole entry. -/
namespace AccessControl.EntryLimit
open BitMask DoorTable CrcTable Traced OsdpPacket OsdpFrame ReaderIdesco PinEntry KeyPacking

/- The keys since the last `#` or `*`. -/
def follow (since : Bytes) (key : Byte) : Bytes := if key = 0x7f ∨ key = 0x0d then [] else since ++ [key]

def isOk (call : Bytes × DataMode) : Bool := call.2 == .dataOk

/- What one key may make the driver hand over: the whole entry, once, at its `#` and if the buffer holds it; and a report
at the key for which there is no more room. -/
structure Proper (since : Bytes) (key : Byte) (calls : List (Bytes × DataMode)) : Prop where
  whole : ∀ pin, (pin,.dataOk) ∈ calls → key = 0x0d ∧ pin = since ∧ since.length ≤ maxPinLen
  once : calls.countP isOk ≤ 1
  reported : key ≠ 0x7f → key ≠ 0x0d → since.length = maxPinLen → ∃ pin, (pin,.dataOutOfBuf) ∈ calls

/- The calls of a whole sequence of keys, each made by one of them in turn. -/
def Accepted : Bytes → Bytes → List (Bytes × DataMode) → Prop
  | _, [], calls => calls = []
  | since, key :: keys, calls => ∃ now later, calls = now ++ later ∧ Proper since key now ∧ Accepted (follow since key) keys later

/- No `#` confirms more keys than the buffer holds. -/
def Short : Bytes → Bytes → Prop
  | _, [] => True
  | since, key :: keys => (key = 0x0d → since.length ≤ maxPinLen) ∧ Short (follow since key) keys

instance decideShort : (since keys : Bytes) → Decidable (Short since keys)
  | _, [] => inferInstanceAs (Decidable True)
  | since, key :: keys =>
    have : Decidable (Short (follow since key) keys) := decideShort (follow since key) keys
    inferInstanceAs (Decidable (_ ∧ _))

section
variable {since typed : Bytes} {key : Byte} {keys : Bytes} {calls : List (Bytes × DataMode)}

/- The buffer holds the entry, until that has become too long for it. -/
def Holds (since typed : Bytes) : Prop := since.length ≤ maxPinLen → typed = since

theorem entryCons (typed : Bytes) (key : Byte) (keys : Bytes) :
    (entry typed (key :: keys)).2 = (enter typed key).2 ++ (entry (enter typed key).1 keys).2 := rfl

theorem holdsFollow (holds : Holds since typed) : Holds (follow since key) (enter typed key).1 := by
  intro fits
  unfold follow at fits ⊢
  unfold enter
  by_cases star : key = 0x7f
  · rw [if_pos star,if_pos (Or.inl star)]
  · by_cases hash : key = 0x0d
    · rw [if_neg star,if_pos hash,if_pos (Or.inr hash)]
    · have plain : ¬ (key = 0x7f ∨ key = 0x0d) := fun either => either.elim star hash
      rw [if_neg plain,List.length_append,List.length_singleton] at fits
      have same : typed = since := holds (by omega)
      rw [if_neg star,if_neg hash,same,if_pos (by omega),if_neg plain]

/- While no too long entry is confirmed each key hands over what it may. -/
theorem properEnter (holds : Holds since typed) (fits : key = 0x0d → since.length ≤ maxPinLen) : Proper since key (enter typed key).2 := by
  unfold enter
  by_cases star : key = 0x7f
  · rw [if_pos star]
    exact ⟨fun _ mem => absurd mem List.not_mem_nil,Nat.zero_le _,fun other => absurd star other⟩
  · by_cases hash : key = 0x0d
    · rw [if_neg star,if_pos hash,holds (fits hash)]
      refine ⟨fun pin mem => ⟨hash,?_,fits hash⟩,le_refl 1,fun _ other => absurd hash other⟩
      exact congrArg Prod.fst (List.mem_singleton.mp mem)
    · rw [if_neg star,if_neg hash]
      split
      · rename_i room
        refine ⟨fun _ mem => absurd mem List.not_mem_nil,Nat.zero_le _,fun _ _ full => ?_⟩
        rw [holds full.le,full] at room
        exact absurd room (Nat.lt_irrefl _)
      · refine ⟨fun pin mem => ?_,Nat.zero_le _,fun _ _ _ => ⟨typed,List.mem_singleton_self _⟩⟩
        cases congrArg Prod.snd (List.mem_singleton.mp mem)

theorem acceptedShort (holds : Holds since typed) (short : Short since keys) : Accepted since keys (entry typed keys).2 := by
  induction keys generalizing since typed with
  | nil => rfl
  | cons key keys ih =>
    exact ⟨_,_,entryCons typed key keys,properEnter holds short.1,ih (holdsFollow holds) short.2⟩

/- The driver confirms as often as there is a `#`, and what is accepted has one confirmation at most for each that is short. -/
def hashes (keys : Bytes) : Nat := keys.countP (· == 0x0d)

def longs : Bytes → Bytes → Nat
  | _, [] => 0
  | since, key :: keys => (if key = 0x0d ∧ maxPinLen < since.length then 1 else 0) + longs (follow since key) keys

theorem confirmedOnce (typed keys : Bytes) : (entry typed keys).2.countP isOk = hashes keys := by
  induction keys generalizing typed with
  | nil => rfl
  | cons key keys ih =>
    rw [entryCons,List.countP_append,ih,hashes,hashes,List.countP_cons,Nat.add_comm]
    congr 1
    unfold enter
    by_cases star : key = 0x7f
    · rw [if_pos star,star]
      rfl
    · by_cases hash : key = 0x0d
      · rw [if_neg star,if_pos hash,hash]
        rfl
      · rw [if_neg star,if_neg hash,beq_false_of_ne hash]
        split <;> rfl

theorem properCount (proper : Proper since key calls) :
    calls.countP isOk + (if key = 0x0d ∧ maxPinLen < since.length then 1 else 0) ≤ if key = 0x0d then 1 else 0 := by
  have none' : ¬ (key = 0x0d ∧ since.length ≤ maxPinLen) → calls.countP isOk = 0 := by
    intro outside
    refine List.countP_eq_zero.mpr ?_
    rintro ⟨pin,mode⟩ mem ok
    have isOk' : mode = .dataOk := by simpa [isOk] using ok
    subst isOk'
    obtain ⟨hash,_,fits⟩ := proper.whole pin mem
    exact outside ⟨hash,fits⟩
  have once := proper.once
  by_cases hash : key = 0x0d
  · by_cases long : maxPinLen < since.length
    · rw [if_pos ⟨hash,long⟩,if_pos hash,none' fun fits => absurd fits.2 (by omega)]
    · rw [if_neg fun both => long both.2,if_pos hash]
      exact once
  · rw [if_neg fun both => hash both.1,if_neg hash,none' fun fits => hash fits.1]

theorem acceptedCount (accepted : Accepted since keys calls) : calls.countP isOk + longs since keys ≤ hashes keys := by
  induction keys generalizing since calls with
  | nil =>
    rw [Accepted] at accepted
    rw [accepted]
    exact le_refl 0
  | cons key keys ih =>
    obtain ⟨now,later,rfl,proper,rest⟩ := accepted
    have first := properCount proper
    have second := ih rest
    have one : hashes (key :: keys) = hashes keys + if key = 0x0d then 1 else 0 := by
      rw [hashes,List.countP_cons]
      simp only [beq_iff_eq]
      rfl
    rw [List.countP_append,longs,one]
    omega

theorem longsNone (none' : longs since keys = 0) : Short since keys := by
  induction keys generalizing since with
  | nil => trivial
  | cons key keys ih =>
    rw [longs,Nat.add_eq_zero_iff] at none'
    refine ⟨fun hash => ?_,ih none'.2⟩
    by_contra long
    rw [if_pos ⟨hash,by omega⟩] at none'
    exact absurd none'.1 (by decide)

theorem acceptedEntry (holds : Holds since typed) : Accepted since keys (entry typed keys).2 ↔ Short since keys := by
  refine ⟨fun accepted => longsNone ?_,acceptedShort holds⟩
  have count := acceptedCount accepted
  rw [confirmedOnce] at count
  omega

end

/- The calls as the controller sees them. -/
def delivered (actions : List Action) : List (Bytes × DataMode) := (callbacks actions).map fun call => (call.data,call.dataMode)

theorem clearedWhole (memory : RawReader) : (memory.pinBuf.set 0 0).length = maxPinLen + 1 := (List.length_set ..).trans memory.whole

/- The reader as `init_reader` leaves it keeps its invariant, and has nothing typed. -/
def initial (memory : RawReader) (serial : Int) (useRs485Te : Bool) (address : Byte) : Reader :=
  ⟨serial,useRs485Te,address,memory.pinBuf.set 0 0,0,memory.codeTimeout,clearedWhole memory,Nat.zero_le _⟩

theorem initRaw (memory : RawReader) (serial : Int) (useRs485Te : Bool) (address : Byte) :
    initReader memory serial useRs485Te address = raw (initial memory serial useRs485Te address) := rfl

/- From its start the driver hands over whole entries just when every confirmed one fits the buffer. -/
theorem wholeEntries (memory : RawReader) (serial : Int) (useRs485Te : Bool) (address : Byte) (database : Database) (exchanges : List Exchange) :
    ∃ after actions, (rawPolled database (initReader memory serial useRs485Te address) exchanges).value = some (after,actions) ∧
      (∀ call ∈ callbacks actions, call.dataType = .dataIsPin) ∧
      (Accepted [] (keysOf exchanges) (delivered actions) ↔ Short [] (keysOf exchanges)) := by
  obtain ⟨after,actions,value,_,_,called⟩ := rawEntered (initial memory serial useRs485Te address) database exchanges
  have nothing : PinEntry.typed (initial memory serial useRs485Te address) = [] := rfl
  rw [nothing] at called
  have calls : delivered actions = (entry [] (keysOf exchanges)).2 := by
    rw [delivered,called,handed,List.map_map]
    exact List.map_id _
  refine ⟨_,actions,value,?_,?_⟩
  · rw [called]
    intro call mem
    obtain ⟨pin,_,rfl⟩ := List.mem_map.mp mem
    rfl
  · rw [calls]
    exact acceptedEntry fun _ => rfl

/- Twenty-nine keys and `#`: the last of the keys is accepted as a PIN. -/
def overflowing : List Exchange := [keypadReply (List.replicate 29 0x31 ++ [0x0d]) (by decide)]

theorem tailAccepted : ¬ ∀ (memory : RawReader) (exchanges : List Exchange) (after : RawReader) (actions : List Action),
    (rawPolled noUsers (initReader memory 3 false 0x7f) exchanges).value = some (after,actions) →
    Accepted [] (keysOf exchanges) (delivered actions) := by
  intro always
  obtain ⟨after,actions,value,_,iff'⟩ := wholeEntries (raw freshReader) 3 false 0x7f noUsers overflowing
  exact absurd (iff'.mp (always _ _ after actions value)) (by decide)

end AccessControl.EntryLimit
