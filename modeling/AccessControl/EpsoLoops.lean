import AccessControl.EpsoRoundTrip

/-! The two loops that receive an answer. The first ends when the line is quiet, but has no
room left where more arrives than the buffer holds; the second has no bound of its own. -/
namespace AccessControl.EpsoLoops
open BitMask Traced Epso EpsoRoundTrip

/- A leading zero is looked for among the bytes received. -/
def WithinResponse : Use → Prop
  | .skip _ rest => 0 < rest
  | _ => True

/- The buffers the callers pass: 128 bytes, or none and a length of zero. -/
def Passed : Option Bytes → BitVec 16 → Prop
  | some buf, len => buf.length = bufSize ∧ len = BitVec.ofNat 16 bufSize
  | none, len => len = 0

structure Ends (written : Int) (addr func data : Byte) (buf : Option Bytes) (len : BitVec 16) (line : List Arrival) : Prop where
  read : ∃ fuel, (receive len fuel buf line).value.isSome
  skip : ∀ fuel, Every WithinResponse (epsoWriteRead fuel written addr func data buf len line)

section
variable {fuel start : Nat} {pos : Int} {front back chunk : Bytes} {chunks : List Bytes} {line : List Arrival} {len : BitVec 16}

/- Without the fuel for each chunk the loop has no value. -/
theorem restShort (front : Bytes) (room : chunks.flatten.length ≤ back.length) (whole : front.length + back.length = bufSize)
    (short : fuel ≤ chunks.length) :
    (readRest (BitVec.ofNat 16 bufSize) fuel ⟨some (front ++ back),front.length,chunks.map .bytes ++ line⟩).value = none := by
  induction fuel generalizing front back chunks with
  | zero => rfl
  | succ fuel ih =>
    cases chunks with
    | nil => exact absurd short (by simp)
    | cons chunk chunks =>
      rw [List.flatten_cons,List.length_append] at room
      rw [List.length_cons] at short
      have tail : chunks.flatten.length ≤ (back.drop chunk.length).length := by
        rw [List.length_drop]
        omega
      rw [List.map_cons,List.cons_append,restTurn front _ (show chunk.length ≤ back.length by omega) whole]
      exact ih (front ++ chunk) tail (by rw [List.length_append,List.length_drop]; omega) (by omega)

/- A turn whose chunk is longer than the room: the buffer is full, the rest stays on the line. -/
theorem fullTurn (front : Bytes) (line : List Arrival) (long : back.length < chunk.length) (whole : front.length + back.length = bufSize) :
    (readRest (BitVec.ofNat 16 bufSize) (fuel + 1) ⟨some (front ++ back),front.length,.bytes chunk :: line⟩).value =
      (readRest (BitVec.ofNat 16 bufSize) fuel ⟨some ((front ++ chunk.take back.length) ++ []),
        ((front ++ chunk.take back.length).length : Nat),.bytes (chunk.drop back.length) :: line⟩).value := by
  have size : (BitVec.ofNat 16 bufSize).toNat = bufSize := rfl
  have count : (((BitVec.ofNat 16 bufSize).toNat : Int) - front.length).toNat = back.length := by omega
  have taken : (chunk.take back.length).length = back.length := by rw [List.length_take]; omega
  have line' : readLine back.length (.bytes chunk :: line) = (some (chunk.take back.length),.bytes (chunk.drop back.length) :: line) :=
    if_neg (by omega)
  have got : (Epso.read (some (front ++ back)) front.length (((BitVec.ofNat 16 bufSize).toNat : Int) - front.length)
      (.bytes chunk :: line)).value = some (((chunk.take back.length).length : Int),some (front ++ chunk.take back.length ++ []),
        .bytes (chunk.drop back.length) :: line) := by
    rw [Epso.read,count,line']
    simp only [valueBind,store,valueUse,overlayFront front (le_of_eq taken),Option.bind_some,valuePure,taken,List.drop_length]
  have reached : ¬ ((front.length : Int) + (chunk.take back.length).length < 0) := by omega
  rw [readRest]
  simp only [selectBytes,show (0 : Int) < 1 by decide,if_true,valueBind,got,Option.bind_some,reached,if_false,List.length_append,
    Nat.cast_add]

/- With bytes pending and no room for them the port stays readable and nothing is read. -/
theorem restStuck (front : Bytes) (more : back.length < chunks.flatten.length) (whole : front.length + back.length = bufSize) :
    (readRest (BitVec.ofNat 16 bufSize) fuel ⟨some (front ++ back),front.length,chunks.map .bytes ++ line⟩).value = none := by
  induction fuel generalizing front back chunks with
  | zero => rfl
  | succ fuel ih =>
    cases chunks with
    | nil => exact absurd more (by simp)
    | cons chunk chunks =>
      rw [List.flatten_cons,List.length_append] at more
      rw [List.map_cons,List.cons_append]
      by_cases fits : chunk.length ≤ back.length
      · have tail : (back.drop chunk.length).length < chunks.flatten.length := by
          rw [List.length_drop]
          omega
        rw [restTurn front _ fits whole]
        exact ih (front ++ chunk) tail (by rw [List.length_append,List.length_drop]; omega)
      · have pending : ([] : Bytes).length < (chunk.drop back.length :: chunks).flatten.length := by
          rw [List.flatten_cons,List.length_append,List.length_drop,List.length_nil]
          omega
        rw [fullTurn front _ (not_le.mp fits) whole]
        exact ih (front ++ chunk.take back.length) pending (by rw [List.length_append,List.length_take,List.length_nil]; omega)

/- Into no buffer nothing is ever read. -/
theorem nullTurn (chunk : Bytes) (line : List Arrival) :
    (readRest 0 (fuel + 1) ⟨none,0,.bytes chunk :: line⟩).value =
      (readRest 0 fuel ⟨none,0,if chunk = [] then line else .bytes chunk :: line⟩).value := by
  have got : (Epso.read none 0 (((0 : BitVec 16).toNat : Int) - 0) (.bytes chunk :: line)).value =
      some ((0 : Int),none,if chunk = [] then line else .bytes chunk :: line) := by
    have count : (((0 : BitVec 16).toNat : Int) - 0).toNat = 0 := rfl
    by_cases empty : chunk = []
    · subst empty
      rfl
    · have some' := List.length_pos_iff.mpr empty
      have pending : readLine 0 (.bytes chunk :: line) = (some [],.bytes chunk :: line) := if_neg (by omega)
      rw [if_neg empty,Epso.read,count,pending]
      rfl
  rw [readRest]
  simp only [selectBytes,show (0 : Int) < 1 by decide,if_true,valueBind,got,Option.bind_some,show ¬ (0 : Int) + 0 < 0 by decide,if_false]
  rfl

theorem nullStuck (more : 0 < chunks.flatten.length) :
    (readRest 0 fuel ⟨none,0,chunks.map .bytes ++ line⟩).value = none := by
  induction fuel generalizing chunks with
  | zero => rfl
  | succ fuel ih =>
    cases chunks with
    | nil => exact absurd more (by simp)
    | cons chunk chunks =>
      rw [List.map_cons,List.cons_append,nullTurn]
      by_cases empty : chunk = []
      · subst empty
        rw [if_pos rfl]
        exact ih more
      · have again : 0 < (chunk :: chunks).flatten.length := more
        rw [if_neg empty]
        exact ih again

theorem nullRead (quiet : Quiet line) (empty : chunks.flatten.length = 0) (enough : chunks.length < fuel) :
    (readRest 0 fuel ⟨none,0,chunks.map .bytes ++ line⟩).value = some (0,⟨none,0,(select line).2⟩) := by
  induction chunks generalizing fuel with
  | nil =>
    obtain ⟨fuel,rfl⟩ : ∃ k, fuel = k + 1 := ⟨fuel - 1,by omega⟩
    exact quietRest quiet none 0 0
  | cons chunk chunks ih =>
    obtain ⟨fuel,rfl⟩ : ∃ k, fuel = k + 1 := ⟨fuel - 1,by omega⟩
    rw [List.flatten_cons,List.length_append] at empty
    rw [List.length_cons] at enough
    have none' : chunk = [] := List.length_eq_zero_iff.mp (by omega)
    rw [List.map_cons,List.cons_append,nullTurn,if_pos none']
    exact ih (by omega) (by omega)

theorem receiveQuiet (len : BitVec 16) (quiet : Quiet line) (buf : Option Bytes) :
    ∃ ret, ret < 0 ∧ ∀ fuel, (receive len fuel buf line).value = some (ret,⟨buf,0,(select line).2⟩) := by
  have ready : ¬ 0 < (select line).1 := by
    unfold Quiet at quiet
    omega
  unfold receive
  simp only [ready,if_false]
  split
  · exact ⟨-20,by decide,fun _ => rfl⟩
  · exact ⟨-23,by decide,fun _ => rfl⟩

section
variable {P : Use → Prop} (stores : ∀ index count, P (.store index count))

include stores in
/- Reading does nothing but store what it has read. -/
theorem readEvery (buf : Option Bytes) (index count : Int) (line : List Arrival) : Every P (Epso.read buf index count line) := by
  unfold Epso.read
  split
  · exact everyPure _
  · exact everyBind.mpr ⟨(everyUse _ _).mpr (stores _ _),fun _ _ => everyPure _⟩

include stores in
theorem restEvery (s : Receive) : Every P (readRest len fuel s) := by
  induction fuel generalizing s with
  | zero => exact fun _ inside => absurd inside List.not_mem_nil
  | succ fuel ih =>
    obtain ⟨buf,pos,line⟩ := s
    rw [readRest]
    generalize select line = ready
    obtain ⟨ret,line⟩ := ready
    dsimp only
    split
    · refine everyBind.mpr ⟨readEvery stores _ _ _ _,fun got _ => ?_⟩
      split
      · exact everyPure _
      · exact ih _
    · exact everyPure _

include stores in
theorem receiveEvery (buf : Option Bytes) (line : List Arrival) : Every P (receive len fuel buf line) := by
  unfold receive
  generalize select line = ready
  obtain ⟨ret,line⟩ := ready
  dsimp only
  split
  · refine everyBind.mpr ⟨readEvery stores _ _ _ _,fun got _ => ?_⟩
    split
    · exact everyPure _
    · exact restEvery stores _
  · split
    · exact everyPure _
    · exact everyPure _

end

/- Only the search for zeros looks at leading bytes. -/
theorem receiveWithin (buf : Option Bytes) (line : List Arrival) : Every WithinResponse (receive len fuel buf line) :=
  receiveEvery (fun _ _ => trivial) buf line

theorem copyWithin (i j : Byte) (buf : Option Bytes) : Every WithinResponse (copyDown len start pos fuel i j buf) := by
  induction fuel generalizing i j buf with
  | zero => exact fun _ inside => absurd inside List.not_mem_nil
  | succ fuel ih =>
    rw [copyDown]
    dsimp only
    split
    · split
      · exact everyPure _
      · refine everyBind.mpr ⟨(everyUse _ _).mpr trivial,fun _ _ => ?_⟩
        exact everyBind.mpr ⟨(everyUse _ _).mpr trivial,fun _ _ => ih _ _ _⟩
    · exact everyPure _

theorem checksumWithin (buf : Option Bytes) (count : Byte) : Every WithinResponse (epsoChecksum buf start count) := by
  refine everyBind.mpr ⟨everyUp (fun j sum _ _ => ?_) _,fun _ _ => everyPure _⟩
  exact everyBind.mpr ⟨(everyUse _ _).mpr trivial,fun _ _ => everyPure _⟩

theorem answerWithin (buf : Option Bytes) (pos : Int) :
    Every WithinResponse (answer len fuel buf pos) ↔ Every WithinResponse (skipZeros buf fuel 0 pos) := by
  unfold answer
  rw [everyBind]
  refine and_iff_left fun found _ => ?_
  obtain ⟨start,pos⟩ := found
  dsimp only
  split
  · exact everyPure _
  · refine everyBind.mpr ⟨checksumWithin _ _,fun _ _ => everyBind.mpr ⟨(everyUse _ _).mpr trivial,fun _ _ => ?_⟩⟩
    split
    · exact everyPure _
    · split
      · exact everyPure _
      · exact copyWithin _ _ _

/- The exchange stays within the response if the search does, in what was received. -/
theorem exchangeWithin (written : Int) (addr func data : Byte) (buf : Option Bytes) (line : List Arrival) :
    Every WithinResponse (epsoWriteRead fuel written addr func data buf len line) ↔
      ∀ ret s, (receive len fuel buf line).value = some (ret,s) → ¬ ret < 0 → Every WithinResponse (skipZeros s.buf fuel 0 s.pos) := by
  unfold epsoWriteRead
  rw [everyBind,everyBind]
  simp only [everyNote,receiveWithin,WithinResponse,true_and,valueNote,forall_true_left]
  constructor
  · intro each ret s received done
    have rest := each () (ret,s) received
    dsimp only at rest
    rw [if_neg done,everyBind] at rest
    exact (answerWithin _ _).mp rest.1
  · rintro each - ⟨ret,s⟩ received
    dsimp only
    split
    · exact everyPure _
    · rename_i done
      exact everyBind.mpr ⟨(answerWithin _ _).mpr (each ret s received done),fun _ _ => everyPure _⟩

/- A byte other than zero, among those still counted, stops the search there. -/
theorem searchStops {bytes : Bytes} {b : Byte} (nonzero : b ≠ 0) {d : Nat} (found : bytes[start + d]? = some b) (counted : (d : Int) < pos) :
    Every WithinResponse (skipZeros (some bytes) fuel start pos) := by
  induction fuel generalizing start pos d with
  | zero => exact fun _ inside => absurd inside List.not_mem_nil
  | succ fuel ih =>
    rw [skipZeros]
    refine everyBind.mpr ⟨(everyUse _ _).mpr (show 0 < pos by omega),fun c value => ?_⟩
    split
    · rename_i zero
      have other : d ≠ 0 := by
        rintro rfl
        rw [valueUse,byteOf,Option.bind_some,if_pos (by omega),Int.toNat_natCast,← Nat.add_zero start,found] at value
        exact nonzero ((Option.some.inj value).trans zero)
      have place : start + 1 + (d - 1) = start + d := by omega
      exact ih (d := d - 1) (by rw [place,found]) (by omega)
    · exact everyPure _

/- Where all that was received is zero the search goes on behind it. -/
theorem searchLeaves {bytes : Bytes} {k : Nat} (zeros : ∀ d, d < k → bytes[start + d]? = some 0) (enough : k < fuel) :
    ¬ Every WithinResponse (skipZeros (some bytes) fuel start k) := by
  induction k generalizing fuel start with
  | zero =>
    obtain ⟨fuel,rfl⟩ : ∃ m, fuel = m + 1 := ⟨fuel - 1,by omega⟩
    intro each
    rw [skipZeros,everyBind] at each
    have looked : WithinResponse (.skip start (0 : Nat)) := (everyUse _ _).mp each.1
    exact Int.lt_irrefl 0 looked
  | succ k ih =>
    obtain ⟨fuel,rfl⟩ : ∃ m, fuel = m + 1 := ⟨fuel - 1,by omega⟩
    intro each
    have here : byteOf (some bytes) start = some 0 := by
      rw [byteOf,Option.bind_some,if_pos (by omega),Int.toNat_natCast]
      exact zeros 0 (by omega)
    rw [skipZeros,everyBind] at each
    have rest := each.2 0 here
    have left : ((k + 1 : Nat) : Int) - 1 = k := by omega
    rw [if_pos rfl,left] at rest
    have next : ∀ d, d < k → bytes[start + 1 + d]? = some 0 := by
      intro d small
      rw [Nat.add_assoc,Nat.add_comm 1 d]
      exact zeros (d + 1) (by omega)
    exact ih next (by omega) rest

/- The buffer of 128 bytes: what the exchange has received when it looks for zeros. -/
theorem receivedInto (fuel : Nat) {bufOut : Bytes} (quiet : Quiet line) (size : bufOut.length = bufSize) (chunk : Bytes)
    (room : (chunk :: chunks).flatten.length ≤ bufSize) :
    (receive (BitVec.ofNat 16 bufSize) fuel (some bufOut) ((chunk :: chunks).map .bytes ++ line)).value =
      if chunks.length < fuel then some (0,⟨some ((chunk :: chunks).flatten ++ bufOut.drop (chunk :: chunks).flatten.length),
        (chunk :: chunks).flatten.length,(select line).2⟩) else none := by
  have turns : (chunk :: chunks).length = chunks.length + 1 := rfl
  have fits : (chunk :: chunks).flatten.length ≤ bufOut.length := by omega
  have whole : ([] : Bytes).length + bufOut.length = bufSize := by rw [List.length_nil,Nat.zero_add,size]
  rw [List.map_cons,List.cons_append,receiveRest]
  split
  · have got := restRead [] quiet fits whole (show (chunk :: chunks).length < fuel + 1 by omega)
    simpa using got
  · have got : (readRest (BitVec.ofNat 16 bufSize) (fuel + 1) ⟨some ([] ++ bufOut),([] : Bytes).length,
        (chunk :: chunks).map .bytes ++ line⟩).value = none := restShort [] fits whole (by omega)
    simpa using got

/- A search that stays within what was received has met a byte other than zero, and only then. -/
theorem searchFinds {bytes : Bytes} (back : Bytes) (enough : bytes.length < fuel)
    (each : Every WithinResponse (skipZeros (some (bytes ++ back)) fuel 0 bytes.length)) : ∃ b ∈ bytes, b ≠ 0 := by
  by_contra none
  rw [not_exists] at none
  have zeros : ∀ d, d < bytes.length → (bytes ++ back)[0 + d]? = some 0 := by
    intro d small
    have zero : bytes[d] = 0 := by
      by_contra other
      exact none bytes[d] ⟨List.getElem_mem small,other⟩
    rw [Nat.zero_add,List.getElem?_append_left small,List.getElem?_eq_getElem small,zero]
  exact searchLeaves zeros enough each

theorem searchWithin {bytes : Bytes} (back : Bytes) (found : ∃ b ∈ bytes, b ≠ 0) :
    Every WithinResponse (skipZeros (some (bytes ++ back)) fuel 0 bytes.length) := by
  obtain ⟨b,inside,nonzero⟩ := found
  obtain ⟨d,small,rfl⟩ := List.getElem_of_mem inside
  refine searchStops nonzero (d := d) ?_ (by omega)
  rw [Nat.zero_add,List.getElem?_append_left small,List.getElem?_eq_getElem small]

section
variable (written : Int) (addr func data : Byte)

theorem quietEnds (quiet : Quiet line) (buf : Option Bytes) (len : BitVec 16) : Ends written addr func data buf len line := by
  constructor
  · obtain ⟨ret,_,got⟩ := receiveQuiet len quiet buf
    exact ⟨0,by rw [got]; rfl⟩
  · refine fun fuel => (exchangeWithin ..).mpr fun ret s received done => ?_
    obtain ⟨ret',negative,got⟩ := receiveQuiet len quiet buf
    rw [got] at received
    cases Option.some.inj received
    exact absurd negative done

/- Without a buffer the loop hangs on the first byte; and where the port was readable for
nothing, the first byte of no buffer is looked at. -/
theorem nullNever (quiet : Quiet line) (chunk : Bytes) : ¬ Ends written addr func data none 0 ((chunk :: chunks).map .bytes ++ line) := by
  rintro ⟨⟨fuel,value⟩,skip⟩
  by_cases empty : (chunk :: chunks).flatten.length = 0
  · have got : (readRest 0 (chunks.length + 2) ⟨none,0,(chunk :: chunks).map .bytes ++ line⟩).value = some (0,⟨none,0,(select line).2⟩) :=
      nullRead quiet empty (by rw [List.length_cons]; omega)
    rw [List.map_cons,List.cons_append,← receiveRest] at got
    have looked := (exchangeWithin ..).mp (skip (chunks.length + 1)) _ _ got (by decide)
    rw [skipZeros,everyBind] at looked
    have first : WithinResponse (.skip 0 0) := (everyUse _ _).mp looked.1
    exact Int.lt_irrefl 0 first
  · have hangs : (readRest 0 (fuel + 1) ⟨none,0,(chunk :: chunks).map .bytes ++ line⟩).value = none := nullStuck (by omega)
    rw [List.map_cons,List.cons_append,receiveRest] at value
    rw [List.map_cons,List.cons_append] at hangs
    rw [hangs] at value
    cases value

theorem bufferEnds {bufOut : Bytes} (quiet : Quiet line) (size : bufOut.length = bufSize) (chunk : Bytes) :
    Ends written addr func data (some bufOut) (BitVec.ofNat 16 bufSize) ((chunk :: chunks).map .bytes ++ line) ↔
      (chunk :: chunks).flatten.length ≤ bufSize ∧ ∃ b ∈ (chunk :: chunks).flatten, b ≠ 0 := by
  by_cases room : (chunk :: chunks).flatten.length ≤ bufSize
  · have received := fun fuel : Nat => receivedInto fuel quiet size chunk room
    rw [and_iff_right room]
    constructor
    · intro ends
      have enough : chunks.length < chunks.length + bufSize + 1 := by omega
      have got := received (chunks.length + bufSize + 1)
      rw [if_pos enough] at got
      exact searchFinds _ (by omega) ((exchangeWithin ..).mp (ends.skip _) _ _ got (by decide))
    · intro found
      refine ⟨⟨chunks.length + 1,?_⟩,fun fuel => (exchangeWithin ..).mpr fun ret s got _ => ?_⟩
      · rw [received,if_pos (Nat.lt_succ_self _)]
        rfl
      · rw [received] at got
        split at got
        · cases Option.some.inj got
          exact searchWithin _ found
        · cases got
  · refine iff_of_false ?_ (fun h => room h.1)
    rintro ⟨⟨fuel,value⟩,_⟩
    have hangs : (readRest (BitVec.ofNat 16 bufSize) (fuel + 1) ⟨some ([] ++ bufOut),([] : Bytes).length,
        (chunk :: chunks).map .bytes ++ line⟩).value = none := restStuck [] (by omega) (by rw [List.length_nil,Nat.zero_add,size])
    rw [List.map_cons,List.cons_append,receiveRest] at value
    have value' : (readRest (BitVec.ofNat 16 bufSize) (fuel + 1) ⟨some ([] ++ bufOut),([] : Bytes).length,
        (chunk :: chunks).map .bytes ++ line⟩).value.isSome := value
    rw [hangs] at value'
    cases value'

end

/- The loops end inside the data just where nothing comes, or what comes fits the buffer and
is not zero all through. -/
theorem loopsEnd (written : Int) (addr func data : Byte) {buf : Option Bytes} {len : BitVec 16} (passed : Passed buf len)
    (chunks : List Bytes) {line : List Arrival} (quiet : Quiet line) :
    Ends written addr func data buf len (chunks.map .bytes ++ line) ↔
      chunks = [] ∨ chunks.flatten.length ≤ len.toNat ∧ ∃ b ∈ chunks.flatten, b ≠ 0 := by
  cases chunks with
  | nil => exact iff_of_true (quietEnds written addr func data quiet buf len) (.inl rfl)
  | cons chunk chunks =>
    simp only [List.cons_ne_nil,false_or]
    cases buf with
    | none =>
      obtain rfl : len = 0 := passed
      refine iff_of_false (nullNever written addr func data quiet chunk) ?_
      rintro ⟨none,b,inside,_⟩
      rw [List.length_eq_zero_iff.mp (Nat.le_zero.mp none)] at inside
      exact absurd inside List.not_mem_nil
    | some bufOut =>
      obtain ⟨size,rfl⟩ : _ ∧ _ := passed
      exact bufferEnds written addr func data quiet size chunk

end

def blankBuffer : Bytes := List.replicate bufSize 0

theorem blankPassed : Passed (some blankBuffer) (BitVec.ofNat 16 bufSize) := ⟨List.length_replicate,rfl⟩

/- A response of one zero, one that is longer than the buffer, and any response to a command
that passes no buffer. -/
theorem loopsRunOn : ¬ Ends 12 0x00 0xa5 0x33 (some blankBuffer) (BitVec.ofNat 16 bufSize) ([[0x00]].map .bytes ++ []) ∧
    ¬ Ends 12 0x00 0xa5 0x33 (some blankBuffer) (BitVec.ofNat 16 bufSize) ([List.replicate 129 0x53].map .bytes ++ []) ∧
    ¬ Ends 12 0x00 0xa5 0x33 none 0 ([[0x01]].map .bytes ++ []) := by
  have quiet : Quiet [] := by decide
  refine ⟨fun ends => ?_,fun ends => ?_,nullNever 12 0x00 0xa5 0x33 quiet [0x01]⟩
  · obtain ⟨_,b,inside,nonzero⟩ := (bufferEnds 12 0x00 0xa5 0x33 quiet List.length_replicate [0x00]).mp ends
    exact nonzero (List.mem_singleton.mp inside)
  · have room := ((bufferEnds 12 0x00 0xa5 0x33 quiet List.length_replicate (List.replicate 129 0x53)).mp ends).1
    rw [List.flatten_cons,List.flatten_nil,List.append_nil,List.length_replicate] at room
    exact absurd room (by decide)

theorem loopsEndOne : Ends 12 0x00 0xa5 0x33 (some blankBuffer) (BitVec.ofNat 16 bufSize) ([[0x00],[0x53]].map .bytes ++ []) :=
  (loopsEnd 12 0x00 0xa5 0x33 blankPassed [[0x00],[0x53]] (by decide)).mpr
    (.inr ⟨by decide,0x53,List.mem_cons_of_mem _ List.mem_cons_self,by decide⟩)

end AccessControl.EpsoLoops
