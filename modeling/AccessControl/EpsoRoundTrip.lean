import AccessControl.Epso
import Mathlib.Data.List.GetD

/-! A response of the reader, in any chunks and behind any zeros, and what the exchange
returns of it. The counter that gives the length starts at -40 as an unsigned byte. -/
namespace AccessControl.EpsoRoundTrip
open BitMask Numeral Traced Epso

/- The same result from some amount of fuel on. -/
def Exchanges (written : Int) (addr func data : Byte) (bufOut : Bytes) (line : List Arrival)
    (result : Int × Option Bytes × List Arrival) : Prop :=
  ∃ enough, ∀ fuel, enough ≤ fuel →
    (epsoWriteRead fuel written addr func data (some bufOut) (BitVec.ofNat 16 bufSize) line).value = some result

/- The same of any buffer. -/
def Runs (written : Int) (addr func data : Byte) (buf : Option Bytes) (len : BitVec 16) (line : List Arrival)
    (result : Int × Option Bytes × List Arrival) : Prop :=
  ∃ enough, ∀ fuel, enough ≤ fuel → (epsoWriteRead fuel written addr func data buf len line).value = some result

theorem runsOnce {written : Int} {addr func data : Byte} {buf : Option Bytes} {len : BitVec 16} {line : List Arrival}
    {result result' : Int × Option Bytes × List Arrival} (first : Runs written addr func data buf len line result)
    (second : Runs written addr func data buf len line result') : result = result' := by
  obtain ⟨enough,given⟩ := first
  obtain ⟨enough',given'⟩ := second
  exact Option.some.inj ((given (max enough enough') (Nat.le_max_left ..)).symm.trans (given' _ (Nat.le_max_right ..)))

/- The line stays quiet for the `select` to come. -/
def Quiet (line : List Arrival) : Prop := (select line).1 ≤ 0
instance (line) : Decidable (Quiet line) := by unfold Quiet; infer_instance

def body (header payload : Bytes) : Bytes := header ++ payload ++ [ETX]
def response (header payload : Bytes) : Bytes := body header payload ++ [checksum (body header payload)]

section
variable {fuel start n : Nat} {pos : Int} {front back chunk bs : Bytes} {chunks : List Bytes} {line : List Arrival}

theorem overlayFront (front : Bytes) (room : chunk.length ≤ back.length) :
    overlay (some (front ++ back)) front.length chunk = some (some (front ++ chunk ++ back.drop chunk.length)) := by
  unfold overlay
  by_cases empty : chunk = []
  · subst empty
    simp
  · have inside : (0 : Int) ≤ front.length ∧ (front.length : Int) + chunk.length ≤ (front ++ back).length := by
      rw [List.length_append]
      omega
    rw [if_neg empty,Option.bind_some,if_pos inside,Int.toNat_natCast,List.take_left,← List.drop_drop,List.drop_left]

theorem readChunk (front : Bytes) (line : List Arrival) (room : chunk.length ≤ back.length) {count : Int}
    (asked : chunk.length ≤ count) : (read (some (front ++ back)) front.length count (.bytes chunk :: line)).value =
      some ((chunk.length : Int),some (front ++ chunk ++ back.drop chunk.length),line) := by
  have whole : readLine count.toNat (.bytes chunk :: line) = (some chunk,line) := if_pos (by omega)
  rw [Epso.read,whole]
  simp only [valueBind,store,valueUse,overlayFront front room,Option.bind_some,valuePure]

theorem quietRest (quiet : Quiet line) (buf : Option Bytes) (pos : Int) (bufLen : BitVec 16) :
    (readRest bufLen (fuel + 1) ⟨buf,pos,line⟩).value = some (0,⟨buf,pos,(select line).2⟩) := by
  have ready : ¬ 0 < (select line).1 := by
    unfold Quiet at quiet
    omega
  rw [readRest]
  simp only [ready,if_false,valuePure]

/- One turn of the loop, for a chunk that fits. -/
theorem restTurn (front : Bytes) (line : List Arrival) (room : chunk.length ≤ back.length) (whole : front.length + back.length = bufSize) :
    (readRest (BitVec.ofNat 16 bufSize) (fuel + 1) ⟨some (front ++ back),front.length,.bytes chunk :: line⟩).value =
      (readRest (BitVec.ofNat 16 bufSize) fuel
        ⟨some ((front ++ chunk) ++ back.drop chunk.length),((front ++ chunk).length : Nat),line⟩).value := by
  have size : (BitVec.ofNat 16 bufSize).toNat = bufSize := rfl
  have asked : (chunk.length : Int) ≤ ((BitVec.ofNat 16 bufSize).toNat : Int) - front.length := by omega
  have got := readChunk front line room asked
  have reached : ¬ ((front.length : Int) + chunk.length < 0) := by omega
  rw [readRest]
  simp only [selectBytes,show (0 : Int) < 1 by decide,if_true,valueBind,got,Option.bind_some,reached,if_false,List.length_append,
    Nat.cast_add]

/- The chunks land one behind the other. -/
theorem restRead (front : Bytes) (quiet : Quiet line) (room : chunks.flatten.length ≤ back.length)
    (whole : front.length + back.length = bufSize) (enough : chunks.length < fuel) :
    (readRest (BitVec.ofNat 16 bufSize) fuel ⟨some (front ++ back),front.length,chunks.map .bytes ++ line⟩).value =
      some (0,⟨some (front ++ chunks.flatten ++ back.drop chunks.flatten.length),(front.length : Int) + chunks.flatten.length,(select line).2⟩) := by
  induction chunks generalizing front back fuel with
  | nil =>
    obtain ⟨fuel,rfl⟩ : ∃ k, fuel = k + 1 := ⟨fuel - 1,by omega⟩
    simp [quietRest quiet]
  | cons chunk chunks ih =>
    obtain ⟨fuel,rfl⟩ : ∃ k, fuel = k + 1 := ⟨fuel - 1,by omega⟩
    rw [List.flatten_cons,List.length_append] at room
    rw [List.length_cons] at enough
    have tail : chunks.flatten.length ≤ (back.drop chunk.length).length := by
      rw [List.length_drop]
      omega
    have next := ih (front ++ chunk) tail (by rw [List.length_append,List.length_drop]; omega) (show chunks.length < fuel by omega)
    rw [List.map_cons,List.cons_append,restTurn front _ (show chunk.length ≤ back.length by omega) whole,next]
    simp [Int.add_assoc]

/- The first read is a turn of the same loop. -/
theorem receiveRest {len : BitVec 16} (buf : Option Bytes) (chunk : Bytes) (line : List Arrival) :
    (receive len fuel buf (.bytes chunk :: line)).value = (readRest len (fuel + 1) ⟨buf,0,.bytes chunk :: line⟩).value := by
  obtain ⟨got,rest,taken⟩ : ∃ got rest, readLine len.toNat (.bytes chunk :: line) = (some got,rest) := by
    unfold readLine
    dsimp only
    split
    · exact ⟨_,_,rfl⟩
    · exact ⟨_,_,rfl⟩
  have count : ((len.toNat : Int) - 0).toNat = len.toNat := by omega
  have reached : ¬ (got.length : Int) < 0 := by omega
  rw [receive,readRest]
  simp only [selectBytes,show (0 : Int) < 1 by decide,if_true,valueBind,Epso.read,count,Int.toNat_natCast,taken,store,valueUse]
  cases overlay buf 0 got with
  | none => rfl
  | some buf => simp only [Option.bind_some,valuePure,reached,if_false,Int.zero_add]

theorem received (quiet : Quiet line) (some' : chunks ≠ []) {bufOut : Bytes} (size : bufOut.length = bufSize)
    (room : chunks.flatten.length ≤ bufSize) (enough : chunks.length < fuel) :
    (receive (BitVec.ofNat 16 bufSize) fuel (some bufOut) (chunks.map .bytes ++ line)).value =
      some (0,⟨some (chunks.flatten ++ bufOut.drop chunks.flatten.length),chunks.flatten.length,(select line).2⟩) := by
  obtain ⟨chunk,rest,rfl⟩ := List.exists_cons_of_ne_nil some'
  have whole : ([] : Bytes).length + bufOut.length = bufSize := by rw [List.length_nil,Nat.zero_add,size]
  have fits : (chunk :: rest).flatten.length ≤ bufOut.length := by omega
  have got := restRead [] quiet fits whole (show (chunk :: rest).length < fuel + 1 by omega)
  rw [List.map_cons,List.cons_append,receiveRest]
  simpa using got

theorem byteFront {front : Bytes} {b : Byte} {rest : Bytes} {index : Int} (place : index = front.length) :
    byteOf (some (front ++ b :: rest)) index = some b := by
  subst place
  have inside : (0 : Int) ≤ front.length := by omega
  rw [byteOf,Option.bind_some,if_pos inside,Int.toNat_natCast,List.getElem?_append_right (le_refl _),Nat.sub_self]
  rfl

/- Zeros in front are stepped over, one turn each. -/
theorem zerosSkipped {first : Byte} (nonzero : first ≠ 0) (rest : Bytes) (z start : Nat) (pos : Int) (enough : z < fuel) :
    (skipZeros (some (List.replicate start 0 ++ List.replicate z 0 ++ first :: rest)) fuel start pos).value =
      some (start + z,pos - z) := by
  induction z generalizing fuel start pos with
  | zero =>
    obtain ⟨fuel,rfl⟩ : ∃ k, fuel = k + 1 := ⟨fuel - 1,by omega⟩
    have here : byteOf (some (List.replicate start 0 ++ [] ++ first :: rest)) start = some first := by
      rw [List.append_nil]
      exact byteFront (by rw [List.length_replicate])
    rw [List.replicate_zero,skipZeros]
    simp only [valueBind,valueUse,here,Option.bind_some,nonzero,if_false,valuePure]
    simp
  | succ z ih =>
    obtain ⟨fuel,rfl⟩ : ∃ k, fuel = k + 1 := ⟨fuel - 1,by omega⟩
    have here : byteOf (some (List.replicate start 0 ++ List.replicate (z + 1) 0 ++ first :: rest)) start = some 0 := by
      rw [List.replicate_succ,List.append_assoc,List.cons_append]
      exact byteFront (by rw [List.length_replicate])
    have shifted : List.replicate start (0 : Byte) ++ List.replicate (z + 1) 0 =
        List.replicate (start + 1) 0 ++ List.replicate z 0 := by
      rw [List.replicate_append_replicate,List.replicate_append_replicate]
      congr 1
      omega
    rw [skipZeros]
    simp only [valueBind,valueUse,here,Option.bind_some,if_true]
    rw [shifted,ih (start + 1) (pos - 1) (by omega)]
    congr 2
    · omega
    · omega

theorem summed (front rest : Bytes) {bytes : Bytes} {len : Byte} (length : len.toNat = bytes.length) :
    (epsoChecksum (some (front ++ bytes ++ rest)) front.length len).value = some (checksum bytes) := by
  have turn : ∀ (i : Nat) sum, (do let b ← load (some (front ++ bytes ++ rest)) (front.length + i); return sum ^^^ b : Trace Use Byte).value =
      if i < (bytes ++ rest).length then some (sum ^^^ (bytes ++ rest).getD i 0) else none := by
    intro i sum
    have inside : (0 : Int) ≤ front.length + i := by omega
    have place : ((front.length : Int) + i).toNat = front.length + i := by omega
    simp only [valueBind,load,valueUse,byteOf,Option.bind_some,if_pos inside,place]
    rw [List.append_assoc,List.getElem?_append_right (by omega),Nat.add_sub_cancel_left]
    by_cases small : i < (bytes ++ rest).length
    · rw [if_pos small,List.getElem?_eq_getElem small,List.getD_eq_getElem _ _ small]
      rfl
    · rw [if_neg small,List.getElem?_eq_none (by omega)]
      rfl
  have fits : 0 + len.toNat ≤ (bytes ++ rest).length := by
    rw [List.length_append]
    omega
  have loop := upInvariant (fun i sum => sum = (bytes.take i).foldl (fun sum b => sum ^^^ b) 0x0)
    (f := fun i sum => sum ^^^ (bytes ++ rest).getD i 0) (k := len.toNat) (i := 0) (s := 0x0) rfl ?_
  · rw [epsoChecksum,valueBind,valueUp (f := fun i sum => sum ^^^ (bytes ++ rest).getD i 0) turn _ 0 _ (Nat.zero_le _),
      if_pos fits,Option.bind_some,loop,Nat.zero_add,length,List.take_length]
    rfl
  · intro i sum _ small same
    have bound : i < bytes.length := by omega
    rw [same,← List.take_append_getElem bound,List.foldl_append,List.getD_append _ _ _ _ bound,List.getD_eq_getElem _ _ bound]
    rfl

/- The two counters of the copy, as long as they stay within their eight bits. -/
theorem counters {k : Nat} (small : k + 7 < 256) : (BitVec.ofNat 8 (k + 7)).toNat = k + 7 ∧ (BitVec.ofNat 8 k).toNat = k ∧
    BitVec.ofNat 8 (k + 7) - 7 = BitVec.ofNat 8 k ∧ BitVec.ofNat 8 (k + 7) + 1 = BitVec.ofNat 8 (k + 1 + 7) := by
  have index : (BitVec.ofNat 8 (k + 7)).toNat = k + 7 := by
    rw [BitVec.toNat_ofNat]
    omega
  refine ⟨index,?_,?_,?_⟩
  · rw [BitVec.toNat_ofNat]
    omega
  · apply BitVec.eq_of_toNat_eq
    rw [BitVec.toNat_sub,index,BitVec.toNat_ofNat]
    change (2 ^ 8 - 7 + (k + 7)) % 2 ^ 8 = _
    omega
  · apply BitVec.eq_of_toNat_eq
    rw [BitVec.toNat_add,index,BitVec.toNat_ofNat]
    change (k + 7 + 1) % 2 ^ 8 = _
    omega

/- One turn moves one byte down; what has been moved never covers what is still to come. -/
theorem copyTurn {buf payload : Bytes} (size : buf.length = bufSize) (held : (buf.drop (start + 7)).take payload.length = payload)
    (long : start + 7 + payload.length ≤ bufSize) {k : Nat} (more : k < payload.length) (j : Byte) :
    (copyDown (BitVec.ofNat 16 bufSize) start (payload.length + 9) (fuel + 1) (BitVec.ofNat 8 (k + 7)) j
      (some (payload.take k ++ buf.drop k))).value =
    (copyDown (BitVec.ofNat 16 bufSize) start (payload.length + 9) fuel (BitVec.ofNat 8 (k + 1 + 7)) (BitVec.ofNat 8 k)
      (some (payload.take (k + 1) ++ buf.drop (k + 1)))).value := by
  unfold bufSize at size long
  obtain ⟨index,place,counter,bumped⟩ := counters (show k + 7 < 256 by omega)
  have turns : (((k + 7 : Nat) : Int) < (payload.length : Int) + 9 - 2) := by omega
  have room : ¬ k = (BitVec.ofNat 16 bufSize).toNat := by
    change ¬ k = 128
    omega
  have taken : (payload.take k).length = k := by
    rw [List.length_take]
    omega
  have source : buf[start + 7 + k]? = some payload[k] := by
    have at' := congrArg (fun bytes => bytes[k]?) held
    rw [List.getElem?_take_of_lt (by omega),List.getElem?_drop,List.getElem?_eq_getElem more] at at'
    exact at'
  have value : byteOf (some (payload.take k ++ buf.drop k)) ((start : Int) + (k + 7 : Nat)) = some payload[k] := by
    have positive : (0 : Int) ≤ (start : Int) + (k + 7 : Nat) := by omega
    have offset : ((start : Int) + (k + 7 : Nat)).toNat = start + 7 + k := by omega
    have back : k + (start + 7 + k - k) = start + 7 + k := by omega
    rw [byteOf,Option.bind_some,if_pos positive,offset,List.getElem?_append_right (by omega),taken,List.getElem?_drop,back,source]
  have stored : overlay (some (payload.take k ++ buf.drop k)) (k : Nat) [payload[k]] =
      some (some (payload.take (k + 1) ++ buf.drop (k + 1))) := by
    have room : [payload[k]].length ≤ (buf.drop k).length := by
      rw [List.length_drop,List.length_singleton]
      omega
    have front := overlayFront (payload.take k) room
    rw [taken,List.take_append_getElem,List.length_singleton,List.drop_drop] at front
    exact front
  rw [copyDown,index,if_pos turns]
  simp only [counter,place,room,if_false,valueBind,load,store,valueUse,value,stored,Option.bind_some,bumped]

/- The payload is moved down over its own front; the last counter gives the length. -/
theorem movedDown {buf payload : Bytes} (size : buf.length = bufSize) (held : (buf.drop (start + 7)).take payload.length = payload)
    (long : start + 7 + payload.length ≤ bufSize) (k : Nat) (inside : k ≤ payload.length) (enough : payload.length - k < fuel) (j : Byte) :
    (copyDown (BitVec.ofNat 16 bufSize) start (payload.length + 9) fuel (BitVec.ofNat 8 (k + 7)) j
      (some (payload.take k ++ buf.drop k))).value =
      some ((if k = payload.length then (j.toNat : Int) + 1 else payload.length),some (payload ++ buf.drop payload.length)) := by
  have bound : payload.length + 7 ≤ 128 := by
    unfold bufSize at long
    omega
  induction fuel generalizing k j with
  | zero => omega
  | succ fuel ih =>
    obtain ⟨index,place,_⟩ := counters (show k + 7 < 256 by omega)
    by_cases done : k = payload.length
    · have stop : ¬ (((k + 7 : Nat) : Int) < (payload.length : Int) + 9 - 2) := by omega
      rw [copyDown,index,if_neg stop,if_pos done,done,List.take_length]
      rfl
    · have next := ih (k + 1) (by omega) (by omega) (BitVec.ofNat 8 k)
      have counted : (if k + 1 = payload.length then ((BitVec.ofNat 8 k).toNat : Int) + 1 else payload.length) = payload.length := by
        rw [place]
        split
        · omega
        · rfl
      rw [counted] at next
      rw [copyTurn size held long (show k < payload.length by omega),if_neg done,next]

/- What is returned for a payload: its length, but 217 for none. -/
def returned (payload : Bytes) : Int := if payload = [] then 217 else payload.length

/- The bytes behind the header and in front of the last two. -/
def carried (frame : Bytes) : Bytes := (frame.take (frame.length - 2)).drop 7

section
variable {z : Nat} {content tail : Bytes} {last : Byte}

theorem carriedBody (content : Bytes) (last : Byte) : carried (content ++ [last]) = (content.take (content.length - 1)).drop 7 := by
  have short : (content ++ [last]).length - 2 = content.length - 1 := by
    rw [List.length_append,List.length_singleton]
    omega
  rw [carried,short,List.take_append_of_le_length (Nat.sub_le _ _)]

/- The bytes behind the header are moved to the front; where there is no header yet nothing is. -/
theorem copied {held : Bytes} (whole : held = List.replicate z 0 ++ content ++ last :: tail) (size : held.length = bufSize)
    (enough : bufSize < fuel) : (copyDown (BitVec.ofNat 16 bufSize) z ((content.length + 1 : Nat) : Int) fuel 7 (BitVec.ofInt 8 (-40)) (some held)).value =
      some (returned (carried (content ++ [last])),some (carried (content ++ [last]) ++ held.drop (carried (content ++ [last])).length)) := by
  have long : z + content.length + 1 + tail.length = bufSize := by
    rw [← size,whole,List.length_append,List.length_append,List.length_replicate,List.length_cons]
    omega
  have length : (carried (content ++ [last])).length = content.length - 8 := by
    rw [carriedBody,List.length_drop,List.length_take]
    omega
  by_cases header : 8 ≤ content.length
  · have kept : (held.drop (z + 7)).take (carried (content ++ [last])).length = carried (content ++ [last]) := by
      have front : (List.replicate z (0 : Byte) ++ content.take 7).length = z + 7 := by
        rw [List.length_append,List.length_replicate,List.length_take]
        omega
      have parts : held = List.replicate z 0 ++ content.take 7 ++ (content.drop 7 ++ last :: tail) := by
        rw [whole,List.append_assoc,List.append_assoc,← List.append_assoc (content.take 7),List.take_append_drop]
      rw [length,parts,List.drop_left' front,carriedBody,List.drop_take,List.take_append_of_le_length (by rw [List.length_drop]; omega)]
      congr 1
    have moved := movedDown size kept (by omega) 0 (Nat.zero_le _) (show (carried (content ++ [last])).length - 0 < fuel by omega) (BitVec.ofInt 8 (-40))
    have count : (if 0 = (carried (content ++ [last])).length then ((BitVec.ofInt 8 (-40)).toNat : Int) + 1
        else (carried (content ++ [last])).length) = returned (carried (content ++ [last])) := by
      cases carried (content ++ [last]) <;> rfl
    have pos : ((carried (content ++ [last])).length : Int) + 9 = ((content.length + 1 : Nat) : Int) := by omega
    rw [List.take_zero,List.nil_append,List.drop_zero,count,pos] at moved
    exact moved
  · obtain ⟨fuel,rfl⟩ : ∃ k, fuel = k + 1 := ⟨fuel - 1,by omega⟩
    have empty : carried (content ++ [last]) = [] := List.length_eq_zero_iff.mp (by omega)
    have stop : ¬ (((7 : Byte).toNat : Int) < ((content.length + 1 : Nat) : Int) - 2) := by
      change ¬ (((7 : Nat) : Int) < _)
      omega
    rw [copyDown,if_neg stop,empty]
    rfl

/- A response of three bytes or more, behind any zeros. -/
theorem answerRead (two : 2 ≤ content.length) (nonzero : content.head? ≠ some 0)
    (size : (List.replicate z 0 ++ content ++ last :: tail).length = bufSize) (enough : bufSize < fuel) :
    (answer (BitVec.ofNat 16 bufSize) fuel (some (List.replicate z 0 ++ content ++ last :: tail)) ((z + (content.length + 1) : Nat) : Int)).value =
      some (if last = checksum content then (returned (carried (content ++ [last])),some (carried (content ++ [last]) ++
        (List.replicate z 0 ++ content ++ last :: tail).drop (carried (content ++ [last])).length))
      else (-30,some (List.replicate z 0 ++ content ++ last :: tail))) := by
  have long : z + content.length + 1 + tail.length = bufSize := by
    rw [List.length_append,List.length_append,List.length_replicate,List.length_cons] at size
    omega
  obtain ⟨first,others,rfl⟩ : ∃ first others, content = first :: others :=
    List.exists_cons_of_ne_nil (by rintro rfl; contradiction)
  have nonzero' : first ≠ 0 := fun zero => nonzero (by rw [zero]; rfl)
  generalize content' : first :: others = content at two long size ⊢
  have skipped : (skipZeros (some (List.replicate z 0 ++ content ++ last :: tail)) fuel 0 ((z + (content.length + 1) : Nat) : Int)).value =
      some (z,((content.length + 1 : Nat) : Int)) := by
    have parts : List.replicate z 0 ++ content ++ last :: tail =
        List.replicate 0 0 ++ List.replicate z 0 ++ first :: (others ++ last :: tail) := by
      rw [← content']
      simp
    rw [parts,zerosSkipped nonzero' _ z 0 _ (by omega),Nat.zero_add]
    congr 2
    omega
  have length : (BitVec.ofInt 8 (((content.length + 1 : Nat) : Int) - 1)).toNat = content.length := by
    rw [BitVec.toNat_ofInt]
    unfold bufSize at long
    omega
  have sum := summed (List.replicate z 0) (last :: tail) length
  rw [List.length_replicate] at sum
  have read : byteOf (some (List.replicate z 0 ++ content ++ last :: tail)) ((z : Int) + (((content.length + 1 : Nat) : Int) - 1)) = some last := by
    refine byteFront ?_
    rw [List.length_append,List.length_replicate]
    omega
  have three : ¬ ((content.length + 1 : Nat) : Int) < 3 := by omega
  unfold answer
  simp only [valueBind,skipped,Option.bind_some,three,if_false,sum,load,valueUse,read]
  by_cases same : last = checksum content
  · rw [if_neg (not_not_intro same),if_pos same]
    exact copied rfl size enough
  · rw [if_pos same,if_neg same]
    rfl

end

theorem answered {header payload tail : Bytes} {z : Nat} (seven : header.length = 7) (nonzero : header.head? ≠ some 0)
    (size : (List.replicate z 0 ++ response header payload ++ tail).length = bufSize) (enough : bufSize < fuel) :
    (answer (BitVec.ofNat 16 bufSize) fuel (some (List.replicate z 0 ++ response header payload ++ tail))
      ((z : Int) + (payload.length + 9 : Nat))).value = some (returned payload,some (payload ++
        (List.replicate z 0 ++ response header payload ++ tail).drop payload.length)) := by
  have bodyLength : (body header payload).length = payload.length + 8 := by
    simp only [body,List.length_append,List.length_singleton]
    omega
  have whole : List.replicate z 0 ++ response header payload ++ tail =
      List.replicate z 0 ++ body header payload ++ checksum (body header payload) :: tail := by
    simp only [response,List.append_assoc,List.singleton_append]
  have first : (body header payload).head? ≠ some 0 := by
    obtain ⟨first,others,rfl⟩ : ∃ first others, header = first :: others :=
      List.exists_cons_of_ne_nil (by intro empty; rw [empty] at seven; contradiction)
    exact nonzero
  have front : carried (body header payload ++ [checksum (body header payload)]) = payload := by
    have kept : (header ++ payload).length = (body header payload).length - 1 := by
      rw [bodyLength,List.length_append]
      omega
    rw [carriedBody,body,List.take_left' (by rw [kept,body]),List.drop_left' seven]
  have pos : (z : Int) + (payload.length + 9 : Nat) = ((z + ((body header payload).length + 1) : Nat) : Int) := by omega
  rw [whole] at size ⊢
  rw [pos,answerRead (by omega) first size enough,if_pos rfl,front]

end

section
variable {header payload : Bytes} {z : Nat} {chunks : List Bytes} {line : List Arrival} {bufOut : Bytes}

/- The whole exchange: whatever the chunks, the zeros and the buffer were. -/
theorem exchanged (written : Int) (addr func data : Byte) (seven : header.length = 7) (nonzero : header.head? ≠ some 0)
    (room : z + (response header payload).length ≤ bufSize) (split : chunks.flatten = List.replicate z 0 ++ response header payload)
    (quiet : Quiet line) (size : bufOut.length = bufSize) :
    ∃ rest, (payload ++ rest).length = bufSize ∧ Exchanges written addr func data bufOut (chunks.map .bytes ++ line)
      (returned payload,some (payload ++ rest),(select line).2) := by
  have long : (response header payload).length = payload.length + 9 := by
    simp only [response,body,List.length_append,List.length_singleton]
    omega
  have count : chunks.flatten.length = z + (payload.length + 9) := by
    rw [split,List.length_append,List.length_replicate,long]
  have some' : chunks ≠ [] := by
    intro empty
    rw [empty] at count
    change 0 = z + (payload.length + 9) at count
    omega
  have whole : (List.replicate z 0 ++ response header payload ++ bufOut.drop (z + (payload.length + 9))).length = bufSize := by
    simp only [List.length_append,List.length_replicate,List.length_drop,long]
    omega
  refine ⟨(List.replicate z 0 ++ response header payload ++ bufOut.drop (z + (payload.length + 9))).drop payload.length,
    ?_,chunks.length + bufSize + 1,fun fuel enough => ?_⟩
  · rw [List.length_append,List.length_drop]
    omega
  have got := received quiet some' size (by omega) (show chunks.length < fuel by omega)
  have given := answered seven nonzero whole (show bufSize < fuel by omega)
  have pos : ((z + (payload.length + 9) : Nat) : Int) = (z : Int) + (payload.length + 9 : Nat) := by omega
  rw [count,split,pos] at got
  unfold epsoWriteRead
  simp only [valueBind,valueNote,Option.bind_some,got,show ¬ (0 : Int) < 0 by decide,if_false,given,valuePure]

theorem exchangesOnce {written : Int} {addr func data : Byte} {line : List Arrival} {result result' : Int × Option Bytes × List Arrival}
    (first : Exchanges written addr func data bufOut line result) (second : Exchanges written addr func data bufOut line result') :
    result = result' := runsOnce first second

/- The payload comes back with its length just when it is not empty. -/
theorem payloadReturned (written : Int) (addr func data : Byte) (seven : header.length = 7) (nonzero : header.head? ≠ some 0)
    (room : z + (response header payload).length ≤ bufSize) (split : chunks.flatten = List.replicate z 0 ++ response header payload)
    (quiet : Quiet line) (size : bufOut.length = bufSize) :
    (∃ after, Exchanges written addr func data bufOut (chunks.map .bytes ++ line) (payload.length,some after,(select line).2) ∧
      after.take payload.length = payload) ↔ payload ≠ [] := by
  obtain ⟨rest,_,given⟩ := exchanged written addr func data seven nonzero room split quiet size
  constructor
  · rintro ⟨after,given',_⟩ empty
    have same := congrArg Prod.fst (exchangesOnce given given')
    rw [returned,if_pos empty,empty] at same
    simp at same
  · intro some'
    rw [returned,if_neg some'] at given
    exact ⟨_,given,List.take_left⟩

end

/- The header of the reader with address 0. -/
def header : Bytes := [SOH,0x53,0x30,0x30,0x41,0x35,STX]

theorem payloadReturnedKeys :
    (∃ after, Exchanges 12 0x00 0xa5 0x33 (List.replicate bufSize 0) ([[0x00],response header [0x4b,0x31,0x3a]].map .bytes ++ [])
      (([0x4b,0x31,0x3a] : Bytes).length,some after,(select []).2) ∧ after.take 3 = [0x4b,0x31,0x3a]) ↔ [0x4b,0x31,0x3a] ≠ ([] : Bytes) :=
  have split : [[0x00],response header [0x4b,0x31,0x3a]].flatten = List.replicate 1 0 ++ response header [0x4b,0x31,0x3a] := rfl
  payloadReturned 12 0x00 0xa5 0x33 (show header.length = 7 from rfl) (by decide) (by decide) split (by decide) List.length_replicate

theorem emptyReturned : (∃ after, Exchanges 12 0x00 0xa5 0x33 (List.replicate bufSize 0) [.bytes (response header [])] (217,some after,[])) ∧
    ¬ ∃ after, Exchanges 12 0x00 0xa5 0x33 (List.replicate bufSize 0) [.bytes (response header [])] (0,some after,[]) := by
  have split : [response header []].flatten = List.replicate 0 0 ++ response header [] := rfl
  obtain ⟨rest,_,given⟩ := exchanged 12 0x00 0xa5 0x33 (show header.length = 7 from rfl) (by decide) (by decide) split
    (show Quiet [] by decide) List.length_replicate
  refine ⟨⟨_,given⟩,?_⟩
  rintro ⟨after,given'⟩
  have same := congrArg Prod.fst (exchangesOnce given given')
  simp [returned] at same

end AccessControl.EpsoRoundTrip
