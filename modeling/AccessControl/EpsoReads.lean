import AccessControl.EpsoLoops

/-! The reads of an exchange with their failures. The value of each read is added to the count
before the count is looked at, so that a failure takes back the byte in front of it. -/
namespace AccessControl.EpsoReads
open BitMask Traced Epso EpsoRoundTrip EpsoLoops

/- What one `read` gave: its bytes, or -1. -/
abbrev Outcome := Option Bytes

def arrival : Outcome → Arrival
  | some chunk => .bytes chunk
  | none => .readError

/- No read gives more bytes than it asks for; what stands behind a failure that is noticed is not read. -/
def Fits (size : Nat) : Nat → List Outcome → Prop
  | _, [] => True
  | pos, some chunk :: reads => pos + chunk.length ≤ size ∧ Fits size (pos + chunk.length) reads
  | 0, none :: _ => True
  | pos + 1, none :: reads => Fits size pos reads

/- The bytes that are counted and the rest of the buffer; none where a failure is noticed. -/
def landed : List Outcome → Bytes → Bytes → Option (Bytes × Bytes)
  | [], front, back => some (front,back)
  | some chunk :: reads, front, back => landed reads (front ++ chunk) (back.drop chunk.length)
  | none :: reads, front, back => front.getLast?.bind fun b => landed reads front.dropLast (b :: back)

def concat (reads : List Outcome) : Bytes := (reads.map (·.getD [])).flatten

/- The zeros that may lead a response are not part of it. -/
def past (bytes : Bytes) : Bytes := bytes.dropWhile (· == 0)

/- Both checks of a response. -/
def Checks (frame : Bytes) : Prop := 3 ≤ frame.length ∧ frame.getLast? = some (checksum frame.dropLast)
instance (frame) : Decidable (Checks frame) := by unfold Checks; infer_instance

/- A failure is reported, and what is answered is checked in, and copied from, the bytes of all reads. -/
structure Faithful (written : Int) (addr func data : Byte) (buf : Option Bytes) (len : BitVec 16) (reads : List Outcome)
    (rest : List Arrival) : Prop where
  reported : none ∈ reads → ∃ result, Runs written addr func data buf len (reads.map arrival ++ rest) result ∧ result.1 < 0
  whole : ∀ result, Runs written addr func data buf len (reads.map arrival ++ rest) result → 0 ≤ result.1 →
    Checks (past (concat reads)) ∧ result.1 = returned (carried (past (concat reads))) ∧
      ∃ after, result.2.1 = some after ∧ after.take (carried (past (concat reads))).length = carried (past (concat reads))

/- A failure goes unnoticed where bytes are counted, and is harmless where the rest is refused. -/
def Refused (buf : Option Bytes) (reads : List Outcome) : Prop :=
  none ∈ reads → ∀ front back, landed reads [] (buf.getD []) = some (front,back) → (∃ b ∈ front ++ back, b ≠ 0) ∧ ¬ Checks (past front)

section
variable {fuel pos : Nat} {front back : Bytes} {reads : List Outcome} {line rest : List Arrival} {len : BitVec 16}

/- A failed read with bytes counted. -/
theorem lostTurn (b : Byte) (line : List Arrival) :
    (readRest len (fuel + 1) ⟨some (front ++ b :: back),(front.length + 1 : Nat),.readError :: line⟩).value =
      (readRest len fuel ⟨some (front ++ b :: back),front.length,line⟩).value := by
  have counted : ((front.length + 1 : Nat) : Int) + -1 = front.length := by omega
  have reached : ¬ ((front.length : Int) < 0) := by omega
  rw [readRest]
  simp only [Epso.select,show (0 : Int) < 1 by decide,if_true,Epso.read,readLine,valueBind,valuePure,Option.bind_some,counted,reached,if_false]

theorem noticedTurn (buf : Option Bytes) (line : List Arrival) :
    (readRest len (fuel + 1) ⟨buf,0,.readError :: line⟩).value = some (-22,⟨buf,-1,line⟩) := rfl

/- What receiving comes to. -/
def Received (rest : List Arrival) : Option (Bytes × Bytes) → Int × Receive → Prop
  | none, found => found.1 < 0
  | some (front,back), found => found = (0,⟨some (front ++ back),front.length,(Epso.select rest).2⟩) ∧ front.length + back.length = bufSize

/- The loop over any outcomes. -/
theorem restLanded (fits : Fits bufSize front.length reads) (quiet : Quiet rest) (whole : front.length + back.length = bufSize) :
    ∃ found, Received rest (landed reads front back) found ∧ ∀ fuel, reads.length < fuel →
      (readRest (BitVec.ofNat 16 bufSize) fuel ⟨some (front ++ back),front.length,reads.map arrival ++ rest⟩).value = some found := by
  induction reads generalizing front back with
  | nil =>
    refine ⟨_,⟨rfl,whole⟩,fun fuel enough => ?_⟩
    obtain ⟨fuel,rfl⟩ : ∃ k, fuel = k + 1 := ⟨fuel - 1,by omega⟩
    exact quietRest quiet _ _ _
  | cons outcome reads ih =>
    cases outcome with
    | some chunk =>
      obtain ⟨room,fits⟩ := fits
      rw [← List.length_append] at fits
      have sizes : (front ++ chunk).length + (back.drop chunk.length).length = bufSize := by
        rw [List.length_append,List.length_drop]
        omega
      obtain ⟨found,received,value⟩ := ih fits sizes
      refine ⟨found,received,fun fuel enough => ?_⟩
      obtain ⟨fuel,rfl⟩ : ∃ k, fuel = k + 1 := ⟨fuel - 1,by omega⟩
      rw [List.length_cons] at enough
      rw [List.map_cons,List.cons_append,arrival,restTurn front _ (show chunk.length ≤ back.length by omega) whole]
      exact value fuel (by omega)
    | none =>
      cases front using List.reverseRecOn with
      | nil =>
        refine ⟨(-22,⟨some back,-1,reads.map arrival ++ rest⟩),show (-22 : Int) < 0 by decide,fun fuel enough => ?_⟩
        obtain ⟨fuel,rfl⟩ : ∃ k, fuel = k + 1 := ⟨fuel - 1,by omega⟩
        exact noticedTurn _ _
      | append_singleton front b _ =>
        rw [List.length_append,List.length_singleton] at whole fits
        have sizes : front.length + (b :: back).length = bufSize := by
          rw [List.length_cons]
          omega
        obtain ⟨found,received,value⟩ := ih fits sizes
        refine ⟨found,?_,fun fuel enough => ?_⟩
        · rw [landed,List.getLast?_concat,Option.bind_some,List.dropLast_concat]
          exact received
        · obtain ⟨fuel,rfl⟩ : ∃ k, fuel = k + 1 := ⟨fuel - 1,by omega⟩
          rw [List.length_cons] at enough
          rw [List.map_cons,List.cons_append,arrival,List.append_assoc,List.singleton_append,List.length_append,List.length_singleton,lostTurn]
          exact value fuel (by omega)

/- The first read is a turn of the same loop, but for the number of its failure. -/
theorem receiveLanded {bufOut : Bytes} (outcome : Outcome) (fits : Fits bufSize 0 (outcome :: reads)) (quiet : Quiet rest)
    (size : bufOut.length = bufSize) : ∃ found, Received rest (landed (outcome :: reads) [] bufOut) found ∧
      ∀ fuel, reads.length < fuel →
        (receive (BitVec.ofNat 16 bufSize) fuel (some bufOut) ((outcome :: reads).map arrival ++ rest)).value = some found := by
  cases outcome with
  | none => exact ⟨(-21,⟨some bufOut,-1,reads.map arrival ++ rest⟩),show (-21 : Int) < 0 by decide,fun fuel _ => rfl⟩
  | some chunk =>
    have whole : ([] : Bytes).length + bufOut.length = bufSize := by rw [List.length_nil,Nat.zero_add,size]
    have fits : Fits bufSize ([] : Bytes).length (some chunk :: reads) := fits
    obtain ⟨found,received,value⟩ := restLanded fits quiet whole
    refine ⟨found,received,fun fuel enough => ?_⟩
    rw [List.map_cons,List.cons_append,arrival,receiveRest]
    exact value (fuel + 1) (by rw [List.length_cons]; omega)

end


/- The zeros in front, and what they lead to. -/
theorem pastSplit (bytes : Bytes) : ∃ z, bytes = List.replicate z 0 ++ past bytes ∧ (past bytes).head? ≠ some 0 := by
  induction bytes with
  | nil => exact ⟨0,rfl,by decide⟩
  | cons b bytes ih =>
    by_cases zero : b = 0
    · obtain ⟨z,split,head⟩ := ih
      have next : past (b :: bytes) = past bytes := by
        rw [past,List.dropWhile_cons_of_pos (by rw [zero]; rfl)]
        rfl
      refine ⟨z + 1,?_,next ▸ head⟩
      rw [next,List.replicate_succ,List.cons_append,← split,zero]
    · have here : past (b :: bytes) = b :: bytes := List.dropWhile_cons_of_neg (by simpa using zero)
      exact ⟨0,by rw [here]; rfl,by rw [here]; simpa using zero⟩

theorem pastSome {bytes : Bytes} (found : ∃ b ∈ bytes, b ≠ 0) : past bytes ≠ [] := by
  intro empty
  obtain ⟨z,split,_⟩ := pastSplit bytes
  obtain ⟨b,inside,nonzero⟩ := found
  rw [split,empty,List.append_nil] at inside
  exact nonzero (List.eq_of_mem_replicate inside)

/- A buffer of zeros has no end for the search. -/
theorem searchNone {bytes : Bytes} (zeros : ∀ b ∈ bytes, b = 0) (fuel start : Nat) (pos : Int) :
    (skipZeros (some bytes) fuel start pos).value = none := by
  induction fuel generalizing start pos with
  | zero => rfl
  | succ fuel ih =>
    have inside : (0 : Int) ≤ start := by omega
    rw [skipZeros,valueBind,valueUse,byteOf,Option.bind_some,if_pos inside,Int.toNat_natCast]
    cases here : bytes[start]? with
    | none => rfl
    | some b =>
      rw [Option.bind_some,if_pos (zeros b (List.mem_of_getElem? here))]
      exact ih (start + 1) (pos - 1)

section
variable {fuel : Nat} {front back : Bytes}

theorem answerShort {z : Nat} {first : Byte} {rest : Bytes} {pos : Int} (nonzero : first ≠ 0) (short : pos - z < 3) (enough : z < fuel) :
    (answer (BitVec.ofNat 16 bufSize) fuel (some (List.replicate z 0 ++ first :: rest)) pos).value =
      some (-24,some (List.replicate z 0 ++ first :: rest)) := by
  have skipped := zerosSkipped nonzero rest z 0 pos enough
  rw [List.replicate_zero,List.nil_append,Nat.zero_add] at skipped
  unfold answer
  simp only [valueBind,skipped,Option.bind_some,short,if_true,valuePure]

/- A frame by its last byte. -/
theorem checksLast {content : Bytes} {last : Byte} (two : 2 ≤ content.length) : Checks (content ++ [last]) ↔ last = checksum content := by
  have three : 3 ≤ (content ++ [last]).length := by
    rw [List.length_append,List.length_singleton]
    omega
  rw [Checks,and_iff_right three,List.getLast?_concat,List.dropLast_concat,Option.some.injEq]

theorem frameSplit {frame : Bytes} (three : 3 ≤ frame.length) (head : frame.head? ≠ some 0) :
    ∃ content last, frame = content ++ [last] ∧ 2 ≤ content.length ∧ content.head? ≠ some 0 := by
  have some' : frame ≠ [] := List.ne_nil_of_length_pos (by omega)
  have parts := List.dropLast_concat_getLast some'
  have two : 2 ≤ frame.dropLast.length := by
    rw [List.length_dropLast]
    omega
  refine ⟨frame.dropLast,frame.getLast some',parts.symm,two,fun zero => head ?_⟩
  rw [← parts,List.head?_append,zero]
  rfl

/- The buffer by the frame that is counted in it. -/
theorem readFrame (back : Bytes) (three : 3 ≤ (past front).length) : ∃ z content last, past front = content ++ [last] ∧ 2 ≤ content.length ∧
    content.head? ≠ some 0 ∧ front ++ back = List.replicate z 0 ++ content ++ last :: back ∧ front.length = z + (content.length + 1) := by
  obtain ⟨z,split,head⟩ := pastSplit front
  obtain ⟨content,last,parts,two,first⟩ := frameSplit three head
  rw [parts] at split
  refine ⟨z,content,last,parts,two,first,?_,?_⟩
  · rw [split]
    simp
  · rw [split,List.length_append,List.length_append,List.length_replicate,List.length_singleton]

theorem answerChecks (checks : Checks (past front)) (whole : front.length + back.length = bufSize) (enough : bufSize < fuel) :
    (answer (BitVec.ofNat 16 bufSize) fuel (some (front ++ back)) front.length).value = some (returned (carried (past front)),
      some (carried (past front) ++ (front ++ back).drop (carried (past front)).length)) := by
  obtain ⟨z,content,last,parts,two,first,held,count⟩ := readFrame back checks.1
  have size : (front ++ back).length = bufSize := by rw [List.length_append,whole]
  rw [held] at size
  rw [parts] at checks ⊢
  rw [count,held,answerRead two first size enough,if_pos ((checksLast two).mp checks)]

/- How many of the counted bytes are left behind the zeros of the whole buffer. -/
theorem countedPast {y : Nat} (split : front ++ back = List.replicate y 0 ++ past (front ++ back)) :
    (front.length : Int) - y ≤ (past front).length := by
  obtain ⟨z,frontSplit,_⟩ := pastSplit front
  have lengths := congrArg List.length split
  have frontLengths := congrArg List.length frontSplit
  have joined : past (front ++ back) = if (past front).isEmpty then past back else past front ++ back := List.dropWhile_append
  have backLength : (past back).length ≤ back.length := List.Sublist.length_le (List.dropWhile_sublist _)
  rw [List.length_append,List.length_append,List.length_replicate,joined] at lengths
  rw [List.length_append,List.length_replicate] at frontLengths
  split at lengths
  · omega
  · rw [List.length_append] at lengths
    omega

theorem answerRefused (found : ∃ b ∈ front ++ back, b ≠ 0) (refused : ¬ Checks (past front)) (whole : front.length + back.length = bufSize) :
    ∃ ret < 0, ∀ fuel, bufSize < fuel →
      (answer (BitVec.ofNat 16 bufSize) fuel (some (front ++ back)) front.length).value = some (ret,some (front ++ back)) := by
  have size : (front ++ back).length = bufSize := by rw [List.length_append,whole]
  by_cases three : 3 ≤ (past front).length
  · obtain ⟨z,content,last,parts,two,first,held,count⟩ := readFrame back three
    rw [parts] at refused
    refine ⟨-30,by decide,fun fuel enough => ?_⟩
    rw [held] at size
    rw [count,held,answerRead two first size enough,if_neg (fun same => refused ((checksLast two).mpr same))]
  · refine ⟨-24,by decide,fun fuel enough => ?_⟩
    obtain ⟨y,split,head⟩ := pastSplit (front ++ back)
    have counted := countedPast split
    obtain ⟨first,rest,frame⟩ := List.exists_cons_of_ne_nil (pastSome found)
    have nonzero : first ≠ 0 := fun zero => head (by rw [frame,zero]; rfl)
    have room := congrArg List.length split
    rw [size,List.length_append,List.length_replicate] at room
    rw [frame] at split
    rw [split]
    exact answerShort nonzero (by omega) (by omega)

theorem answerNone (zeros : ¬ ∃ b ∈ front ++ back, b ≠ 0) (fuel : Nat) (pos : Int) :
    (answer (BitVec.ofNat 16 bufSize) fuel (some (front ++ back)) pos).value = none := by
  have all : ∀ b ∈ front ++ back, b = 0 := fun b inside => by_contra fun other => zeros ⟨b,inside,other⟩
  rw [answer,valueBind,searchNone all]
  rfl

end

section
variable (written : Int) (addr func data : Byte) {buf after : Option Bytes} {len : BitVec 16} {line rest : List Arrival}
variable {k m : Nat} {found : Int × Receive} {s : Receive} {ret : Int} {result : Int × Option Bytes × List Arrival}
variable {reads : List Outcome} {front back : Bytes}

theorem runsEarly (received : ∀ fuel, k < fuel → (receive len fuel buf line).value = some found) (negative : found.1 < 0) :
    Runs written addr func data buf len line (found.1,found.2.buf,found.2.line) := by
  refine ⟨k + 1,fun fuel enough => ?_⟩
  unfold epsoWriteRead
  simp only [valueBind,valueNote,Option.bind_some,received fuel (by omega),negative,if_true,valuePure]

theorem runsAnswered (received : ∀ fuel, k < fuel → (receive len fuel buf line).value = some (0,s))
    (answered : ∀ fuel, m < fuel → (answer len fuel s.buf s.pos).value = some (ret,after)) :
    Runs written addr func data buf len line (ret,after,s.line) := by
  refine ⟨k + m + 1,fun fuel enough => ?_⟩
  unfold epsoWriteRead
  simp only [valueBind,valueNote,Option.bind_some,received fuel (by omega),show ¬ (0 : Int) < 0 by decide,if_false,
    answered fuel (by omega),valuePure]

theorem runsNever (received : ∀ fuel, k < fuel → (receive len fuel buf line).value = some (0,s))
    (answered : ∀ fuel, (answer len fuel s.buf s.pos).value = none) : ¬ Runs written addr func data buf len line result := by
  rintro ⟨enough,given⟩
  have value := given (enough + k + 1) (by omega)
  unfold epsoWriteRead at value
  simp only [valueBind,valueNote,Option.bind_some,received _ (show k < enough + k + 1 by omega),show ¬ (0 : Int) < 0 by decide,if_false,
    answered,Option.bind_none] at value
  cases value

/- Nothing arrives in no buffer. -/
theorem restNull (fits : Fits 0 0 reads) (quiet : Quiet rest) : ∃ found : Int × Receive,
    (if none ∈ reads then found.1 < 0 else found = (0,⟨none,0,(Epso.select rest).2⟩)) ∧ ∀ fuel, reads.length < fuel →
      (readRest 0 fuel ⟨none,0,reads.map arrival ++ rest⟩).value = some found := by
  induction reads with
  | nil =>
    refine ⟨_,rfl,fun fuel enough => ?_⟩
    obtain ⟨fuel,rfl⟩ : ∃ k, fuel = k + 1 := ⟨fuel - 1,by omega⟩
    exact quietRest quiet _ _ _
  | cons outcome reads ih =>
    cases outcome with
    | some chunk =>
      obtain ⟨room,fits⟩ := fits
      obtain rfl : chunk = [] := List.length_eq_zero_iff.mp (by omega)
      obtain ⟨found,received,value⟩ := ih fits
      refine ⟨found,by simpa using received,fun fuel enough => ?_⟩
      obtain ⟨fuel,rfl⟩ : ∃ k, fuel = k + 1 := ⟨fuel - 1,by omega⟩
      rw [List.length_cons] at enough
      rw [List.map_cons,List.cons_append,arrival,nullTurn]
      exact value fuel (by omega)
    | none =>
      refine ⟨(-22,⟨none,-1,reads.map arrival ++ rest⟩),?_,fun fuel enough => ?_⟩
      · rw [if_pos List.mem_cons_self]
        exact show (-22 : Int) < 0 by decide
      · obtain ⟨fuel,rfl⟩ : ∃ k, fuel = k + 1 := ⟨fuel - 1,by omega⟩
        exact noticedTurn _ _

theorem landedNull (fits : Fits 0 0 reads) (failed : none ∈ reads) : landed reads [] [] = none := by
  induction reads with
  | nil => exact absurd failed List.not_mem_nil
  | cons outcome reads ih =>
    cases outcome with
    | some chunk =>
      obtain ⟨room,fits⟩ := fits
      obtain rfl : chunk = [] := List.length_eq_zero_iff.mp (by omega)
      exact ih fits (by simpa using failed)
    | none => rfl

/- Without a failure the bytes land as they were read. -/
theorem landedConcat (whole : none ∉ reads) : landed reads front back = some (front ++ concat reads,back.drop (concat reads).length) := by
  induction reads generalizing front back with
  | nil => simp [landed,concat]
  | cons outcome reads ih =>
    cases outcome with
    | some chunk =>
      have rest : none ∉ reads := fun failed => whole (List.mem_cons_of_mem _ failed)
      have parts : concat (some chunk :: reads) = chunk ++ concat reads := rfl
      rw [landed,ih rest,parts,List.append_assoc,List.drop_drop,List.length_append]
    | none => exact absurd List.mem_cons_self whole

end

section
variable (written : Int) (addr func data : Byte) {buf : Option Bytes} {len : BitVec 16} {reads : List Outcome} {rest : List Arrival}

/- A negative result is what a failure has to give, and nothing more is promised of it. -/
theorem faithfulEarly {result : Int × Option Bytes × List Arrival} (runs : Runs written addr func data buf len (reads.map arrival ++ rest) result)
    (negative : result.1 < 0) : Faithful written addr func data buf len reads rest := by
  refine ⟨fun _ => ⟨result,runs,negative⟩,fun other given positive => ?_⟩
  cases runsOnce runs given
  exact absurd negative (not_lt.mpr positive)

theorem faithfulQuiet (quiet : Quiet rest) : Faithful written addr func data buf len [] rest := by
  obtain ⟨ret,negative,received⟩ := receiveQuiet len quiet buf
  exact faithfulEarly written addr func data (runsEarly written addr func data (fun fuel (_ : 0 < fuel) => received fuel) negative) negative

theorem faithfulNull (fits : Fits 0 0 reads) (quiet : Quiet rest) : Faithful written addr func data none 0 reads rest := by
  cases reads with
  | nil => exact faithfulQuiet written addr func data quiet
  | cons outcome reads =>
    cases outcome with
    | none =>
      have received : ∀ fuel, 0 < fuel → (receive 0 fuel none ((none :: reads).map arrival ++ rest)).value =
          some (-21,⟨none,-1,reads.map arrival ++ rest⟩) := fun _ _ => rfl
      have negative : (-21 : Int) < 0 := by decide
      exact faithfulEarly written addr func data (runsEarly written addr func data received negative) negative
    | some chunk =>
      obtain ⟨found,outcome,value⟩ := restNull fits quiet
      have received : ∀ fuel, reads.length < fuel → (receive 0 fuel none ((some chunk :: reads).map arrival ++ rest)).value = some found := by
        intro fuel enough
        rw [List.map_cons,List.cons_append,arrival,receiveRest]
        exact value (fuel + 1) (by rw [List.length_cons]; omega)
      split at outcome
      · exact faithfulEarly written addr func data (runsEarly written addr func data received outcome) outcome
      · rename_i whole
        subst outcome
        refine ⟨fun failed => absurd failed whole,fun result given _ => absurd given ?_⟩
        refine runsNever written addr func data received fun fuel => ?_
        cases fuel <;> rfl

theorem returnedPositive (payload : Bytes) : 0 ≤ returned payload := by
  unfold returned
  split
  · decide
  · exact Int.natCast_nonneg _

/- Something is held of the reads: then it is the checks that decide. -/
theorem heldFaithful {bufOut front back : Bytes} {k : Nat} {line : List Arrival} (landing : landed reads [] bufOut = some (front,back))
    (whole : front.length + back.length = bufSize) (received : ∀ fuel, k < fuel →
      (receive (BitVec.ofNat 16 bufSize) fuel (some bufOut) (reads.map arrival ++ rest)).value = some (0,⟨some (front ++ back),front.length,line⟩)) :
    Faithful written addr func data (some bufOut) (BitVec.ofNat 16 bufSize) reads rest ↔
      (none ∈ reads → ∀ front' back', some (front,back) = some (front',back') → (∃ b ∈ front' ++ back', b ≠ 0) ∧ ¬ Checks (past front')) := by
  by_cases found : ∃ b ∈ front ++ back, b ≠ 0
  · by_cases checks : Checks (past front)
    · have runs := runsAnswered written addr func data received (fun fuel enough => answerChecks checks whole enough)
      by_cases failed : none ∈ reads
      · refine iff_of_false (fun faithful => ?_) (fun refused => (refused failed front back rfl).2 checks)
        obtain ⟨result,given,negative⟩ := faithful.reported failed
        cases runsOnce runs given
        exact absurd negative (not_lt.mpr (returnedPositive _))
      · refine iff_of_true ⟨fun failed' => absurd failed' failed,fun result given _ => ?_⟩ (fun failed' => absurd failed' failed)
        cases runsOnce runs given
        rw [landedConcat failed,List.nil_append] at landing
        cases Option.some.inj landing
        exact ⟨checks,rfl,_,rfl,List.take_left⟩
    · obtain ⟨ret,negative,answered⟩ := answerRefused found checks whole
      refine iff_of_true (faithfulEarly written addr func data (runsAnswered written addr func data received answered) negative) ?_
      intro _ front' back' same
      cases same
      exact ⟨found,checks⟩
  · have never : ∀ result, ¬ Runs written addr func data (some bufOut) (BitVec.ofNat 16 bufSize) (reads.map arrival ++ rest) result :=
      fun result => runsNever written addr func data received (fun fuel => answerNone found fuel _)
    by_cases failed : none ∈ reads
    · refine iff_of_false (fun faithful => ?_) (fun refused => found (refused failed front back rfl).1)
      obtain ⟨result,given,_⟩ := faithful.reported failed
      exact never result given
    · exact iff_of_true ⟨fun failed' => absurd failed' failed,fun result given => absurd given (never result)⟩ (fun failed' => absurd failed' failed)

theorem bufferFaithful {bufOut : Bytes} (size : bufOut.length = bufSize) (fits : Fits bufSize 0 reads) (quiet : Quiet rest) :
    Faithful written addr func data (some bufOut) (BitVec.ofNat 16 bufSize) reads rest ↔ Refused (some bufOut) reads := by
  cases reads with
  | nil => exact iff_of_true (faithfulQuiet written addr func data quiet) (fun failed => absurd failed List.not_mem_nil)
  | cons outcome reads =>
    obtain ⟨found,received,value⟩ := receiveLanded outcome fits quiet size
    unfold Refused
    rw [Option.getD_some]
    cases landing : landed (outcome :: reads) [] bufOut with
    | none =>
      rw [landing] at received
      refine iff_of_true (faithfulEarly written addr func data (runsEarly written addr func data value received) received) ?_
      intro _ front back some'
      cases some'
    | some held =>
      obtain ⟨front,back⟩ := held
      rw [landing] at received
      obtain ⟨rfl,whole⟩ := received
      exact heldFaithful written addr func data landing whole value

end

/- A failed read is reported, and what is answered is all that was read, just where no failure
goes unnoticed, or the response that lacks a byte is refused. -/
theorem failureReported (written : Int) (addr func data : Byte) {buf : Option Bytes} {len : BitVec 16} (passed : Passed buf len)
    {reads : List Outcome} (fits : Fits len.toNat 0 reads) {rest : List Arrival} (quiet : Quiet rest) :
    Faithful written addr func data buf len reads rest ↔ Refused buf reads := by
  cases buf with
  | none =>
    obtain rfl : len = 0 := passed
    refine iff_of_true (faithfulNull written addr func data fits quiet) fun failed front back some' => ?_
    rw [Option.getD_none,landedNull fits failed] at some'
    cases some'
  | some bufOut =>
    obtain ⟨size,rfl⟩ : _ ∧ _ := passed
    exact bufferFaithful written addr func data size fits quiet

/- A space in the payload, which the checksum does not see, and a failure behind it. -/
def spaced : List Outcome := [some (header ++ [0x4b,0x31,0x20]),none,some [0x3a,ETX,checksum (body header [0x4b,0x31,0x3a])]]

theorem spacedLands : landed spaced [] blankBuffer = some (response header [0x4b,0x31,0x3a],List.replicate 116 0) := by decide

set_option maxRecDepth 10000 in
theorem spaceLost : (∃ after, Runs 12 0x00 0xa5 0x33 (some blankBuffer) (BitVec.ofNat 16 bufSize) (spaced.map arrival ++ []) (3,some after,[]) ∧
      after.take 3 = [0x4b,0x31,0x3a]) ∧ concat spaced ≠ response header [0x4b,0x31,0x3a] ∧
    ¬ Faithful 12 0x00 0xa5 0x33 (some blankBuffer) (BitVec.ofNat 16 bufSize) spaced [] := by
  have fits : Fits bufSize 0 spaced := ⟨by decide,by decide,trivial⟩
  have size : blankBuffer.length = bufSize := List.length_replicate
  have checks : Checks (past (response header [0x4b,0x31,0x3a])) := by decide
  obtain ⟨found,received,value⟩ := receiveLanded (some (header ++ [0x4b,0x31,0x20])) fits (show Quiet [] by decide) size
  rw [show landed (some (header ++ [0x4b,0x31,0x20]) :: _) [] blankBuffer = _ from spacedLands] at received
  obtain ⟨rfl,whole⟩ := received
  have runs := runsAnswered 12 0x00 0xa5 0x33 value (fun fuel enough => answerChecks checks whole enough)
  refine ⟨⟨_,runs,by decide⟩,by decide,fun faithful => ?_⟩
  have refused := (bufferFaithful 12 0x00 0xa5 0x33 size fits (by decide)).mp faithful
  exact (refused (by decide) _ _ spacedLands).2 checks

/- The same failure behind a digit: the sum counts the byte that is lost, and the rest is refused. -/
def digitLost : List Outcome := [some (header ++ [0x4b,0x31,0x32]),none,some [0x3a,ETX,checksum (body header [0x4b,0x31,0x32,0x3a])]]

theorem digitLostRefused : Faithful 12 0x00 0xa5 0x33 (some blankBuffer) (BitVec.ofNat 16 bufSize) digitLost [] ∧
    landed digitLost [] blankBuffer =
      some (header ++ [0x4b,0x31,0x3a,ETX,checksum (body header [0x4b,0x31,0x32,0x3a])],List.replicate 116 0) := by
  have lands : landed digitLost [] blankBuffer =
      some (header ++ [0x4b,0x31,0x3a,ETX,checksum (body header [0x4b,0x31,0x32,0x3a])],List.replicate 116 0) := by decide
  have fits : Fits (BitVec.ofNat 16 bufSize).toNat 0 digitLost := ⟨by decide,by decide,trivial⟩
  refine ⟨(failureReported 12 0x00 0xa5 0x33 blankPassed fits (show Quiet [] by decide)).mpr ?_,lands⟩
  intro _ front back same
  rw [Option.getD_some,lands] at same
  cases same
  exact ⟨⟨ETX,by decide,by decide⟩,by decide⟩

end AccessControl.EpsoReads
