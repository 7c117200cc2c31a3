import AccessControl.PinAgreement

/-! What the card and the pin of a response are taken from. The value of the exchange is an index
before it is tested, and the place of the pin is taken without a look at the length. -/
namespace AccessControl.RogerBounds
open BitMask Numeral Traced Epso EpsoRoundTrip ReaderRoger PinAgreement

/- Written is the buffer, read the response, and nothing through the null pointer. -/
def Inside (len : Int) : Use → Prop
  | .load index => 0 ≤ index ∧ index < len
  | .store index count => 0 ≤ index ∧ index + count ≤ bufSize
  | .null => False
  | _ => True

def exchange (fuel : Nat) (written : Int) (addr : Byte) (buf : Bytes) (line : List Arrival) : Trace Use (Int × Option Bytes × List Arrival) :=
  epsoWriteRead fuel written addr 0xa5 0x33 (some buf) (BitVec.ofNat 16 bufSize) line

/- What `readCardPin` does with the result of the exchange. -/
def cardPin (w : Nat) (buf : Bytes) : Trace Use CardPin := do
  let (buf,bufp,found) ← cardOf buf
  let (_,found) ← pinOf w buf bufp found
  return found
def parsed (w : Nat) (len : Int) (out : Bytes) : Trace Use CardPin := do
  let buf ← storeByte out len 0
  if 4 < len then cardPin w buf else return ⟨0,none,none⟩

/- A poll of the reader, where the exchange returned `len`. -/
structure Bounded (w fuel : Nat) (written : Int) (addr : Byte) (buf : Bytes) (line : List Arrival) (len : Int) : Prop where
  uses : ∀ u ∈ (readCardPin w fuel written addr buf line).uses.drop (exchange fuel written addr buf line).uses.length, Inside len u
  failed : len < 0 → (readCardPin w fuel written addr buf line).value.map (fun found => found.1.isNewData) = some 0

/- The text of the pin begins behind the status byte, or behind the card and its separator. -/
def bufpOf (payload : Bytes) : Nat := if payload.head? = some 0x52 then 18 else 1
/- A colon before the NUL. -/
def Colon (tail : Bytes) : Prop := 0x3a ∈ tail.takeWhile (· != 0)
instance (tail) : Decidable (Colon tail) := decidable_of_iff _ List.contains_iff_mem
def Separated (payload : Bytes) : Prop := Colon (payload.drop (bufpOf payload))
instance (payload) : Decidable (Separated payload) := by unfold Separated; infer_instance

/- There is room for the NUL, and a colon that ends the pin. -/
def Fits (len : Int) (out : Bytes) : Prop := 0 ≤ len ∧ len < bufSize ∧ (4 < len → Separated (out.take len.toNat))

section
variable {w fuel k n : Nat} {len : Int} {buf front rest out : Bytes} {found : CardPin} {P : Use → Prop}

theorem textWithin (ended : byteOf (some buf) n = some 0) (place : k ≤ n) (each : ∀ i : Nat, k ≤ i → i ≤ n → P (.load i)) :
    Every P (textFrom buf fuel k) := by
  induction fuel generalizing k with
  | zero => exact fun _ inside => absurd inside List.not_mem_nil
  | succ fuel ih =>
    rw [textFrom]
    refine everyBind.mpr ⟨(everyUse _ _).mpr (each k (le_refl _) place),fun b value => ?_⟩
    split
    · exact everyPure _
    · rename_i nonzero
      have before : k ≠ n := by
        rintro rfl
        exact nonzero (Option.some.inj (value.symm.trans ended))
      have next := ih (k := k + 1) (by omega) (fun i low high => each i (by omega) high)
      exact everyBind.mpr ⟨next,fun _ _ => everyPure _⟩

theorem indexWithin {c : Byte} (ended : byteOf (some buf) n = some c) (place : k ≤ n)
    (each : ∀ i : Nat, k ≤ i → i ≤ n → P (.load i)) : Every P (indexFrom buf c fuel k) := by
  induction fuel generalizing k with
  | zero => exact fun _ inside => absurd inside List.not_mem_nil
  | succ fuel ih =>
    rw [indexFrom]
    refine everyBind.mpr ⟨(everyUse _ _).mpr (each k (le_refl _) place),fun b value => ?_⟩
    split
    · exact everyPure _
    · rename_i other
      have before : k ≠ n := by
        rintro rfl
        exact other (Option.some.inj (value.symm.trans ended))
      split
      · exact everyPure _
      · exact ih (by omega) (fun i low high => each i (by omega) high)

/- A text with a colon in it: the keys in front of the colon. -/
theorem colonSplits {tail : Bytes} (colon : Colon tail) :
    ∃ keys rest, tail = keys ++ 0x3a :: rest ∧ ∀ b ∈ keys, b ≠ 0x3a ∧ b ≠ 0 := by
  unfold Colon at colon
  induction tail with
  | nil => exact absurd colon List.not_mem_nil
  | cons b tail ih =>
    by_cases zero : b = 0
    · subst zero
      exact absurd colon List.not_mem_nil
    · rw [List.takeWhile_cons,if_pos (bne_iff_ne.mpr zero)] at colon
      by_cases here : b = 0x3a
      · subst here
        exact ⟨[],tail,rfl,fun _ none => absurd none List.not_mem_nil⟩
      · obtain ⟨keys,rest,rfl,free⟩ := ih ((List.mem_cons.mp colon).resolve_left (Ne.symm here))
        refine ⟨b :: keys,rest,rfl,fun c mem => ?_⟩
        rcases List.mem_cons.mp mem with rfl | inside
        · exact ⟨here,zero⟩
        · exact free c inside

/- Where the text begins with its colon no pin is taken. -/
theorem pinEmpty (w : Nat) (front rest : Bytes) (found : CardPin) :
    pinOf w (front ++ 0x3a :: rest) front.length found = ⟨[.load front.length],some (front ++ 0x3a :: rest,found)⟩ := by
  have first : (load (some (front ++ 0x3a :: rest)) front.length).value = some 0x3a := loadFront rfl
  rw [pinOf,bindSome first]
  rfl

/- Without a colon the search gives the null pointer, or leaves the buffer. -/
theorem pinMissing (w : Nat) (front : Bytes) {tail : Bytes} (found : CardPin) (missing : ¬ Colon tail) :
    (pinOf w (front ++ tail) front.length found).value = none ∧
      (0 ∈ tail → .null ∈ (pinOf w (front ++ tail) front.length found).uses) := by
  unfold Colon at missing
  have searched := indexSearched (show (0x3a : Byte) ≠ 0 by decide) front tail
    (show tail.length < (front ++ tail).length + 1 by rw [List.length_append]; omega)
  rw [if_neg missing] at searched
  cases tail with
  | nil =>
    have outside : (load (some (front ++ [])) front.length).value = none := by simp [load,byteOf]
    rw [pinOf,bindNone outside]
    exact ⟨rfl,fun none => absurd none List.not_mem_nil⟩
  | cons b tail =>
    have first : (load (some (front ++ b :: tail)) front.length).value = some b := loadFront rfl
    have other : b ≠ 0x3a := by
      rintro rfl
      exact missing List.mem_cons_self
    rw [pinOf,bindSome first,if_pos other]
    by_cases ended : 0 ∈ b :: tail
    · rw [if_pos ended] at searched
      rw [index,bindSome searched]
      exact ⟨rfl,fun _ => List.mem_append_right _ (List.mem_append_right _ List.mem_cons_self)⟩
    · rw [if_neg ended] at searched
      rw [index,bindNone searched]
      exact ⟨rfl,fun zero => absurd zero ended⟩

theorem pinWithin (w : Nat) (front rest : Bytes) (found : CardPin) {keys : Bytes} (free : ∀ b ∈ keys, b ≠ 0x3a ∧ b ≠ 0)
    (each : ∀ i : Nat, i ≤ front.length + keys.length → P (.load i))
    (stored : P (.store (front.length + keys.length : Nat) 1)) : Every P (pinOf w (front ++ keys ++ 0x3a :: rest) front.length found) := by
  have colon : byteOf (some (front ++ keys ++ 0x3a :: rest)) (front.length + keys.length : Nat) = some 0x3a :=
    byteFront (by rw [List.length_append])
  have zero : byteOf (some (front ++ keys ++ 0 :: rest)) (front.length + keys.length : Nat) = some 0 :=
    byteFront (by rw [List.length_append])
  have searched := indexSearched (show (0x3a : Byte) ≠ 0 by decide) front (keys ++ 0x3a :: rest)
    (show (keys ++ 0x3a :: rest).length < (front ++ keys ++ 0x3a :: rest).length + 1 by simp only [List.length_append]; omega)
  rw [if_pos (keysText free rest).1,(keysText free rest).2,← List.append_assoc] at searched
  have place : ((front.length + keys.length : Nat) : Int) = (front ++ keys).length := by rw [List.length_append]
  have written := storeFront (front ++ keys) rest 0x3a 0 place
  unfold pinOf
  refine everyBind.mpr ⟨(everyUse _ _).mpr (each _ (by omega)),fun b _ => ?_⟩
  split
  · refine everyBind.mpr ⟨indexWithin colon (by omega) (fun i _ high => each i high),fun pe value => ?_⟩
    cases Option.some.inj (searched.symm.trans value)
    refine everyBind.mpr ⟨(everyUse _ _).mpr stored,fun after value => ?_⟩
    cases Option.some.inj (written.symm.trans value)
    exact everyBind.mpr ⟨textWithin zero (by omega) (fun i _ high => each i high),fun _ _ => everyPure _⟩
  · exact everyPure _

/- The first byte of the pin is read, whether the response has it or not. -/
theorem pinBehind (w : Nat) (buf : Bytes) {bufp : Nat} (found : CardPin) (behind : n ≤ bufp) :
    ¬ Every (Inside n) (pinOf w buf bufp found) := by
  intro each
  have first : Inside n (.load bufp) := (everyUse _ _).mp (everyBind.mp each).1
  have read : (bufp : Int) < n := first.2
  omega

theorem colonEnds (tail rest : Bytes) : Colon (tail ++ 0 :: rest) ↔ Colon tail := by
  have text : (tail ++ 0 :: rest).takeWhile (· != 0) = tail.takeWhile (· != 0) := by
    induction tail with
    | nil => rfl
    | cons b tail ih => rw [List.cons_append,List.takeWhile_cons,List.takeWhile_cons,ih]
  rw [Colon,text,Colon]

theorem pinInside (w : Nat) {payload : Bytes} (rest : Bytes) (bufp : Nat) (found : CardPin) (room : payload.length < bufSize) :
    Every (Inside payload.length) (pinOf w (payload ++ 0 :: rest) bufp found) ↔ Colon (payload.drop bufp) := by
  by_cases behind : payload.length ≤ bufp
  · rw [List.drop_eq_nil_of_le behind]
    exact iff_of_false (pinBehind w _ found behind) List.not_mem_nil
  · have place : (payload.take bufp).length = bufp := by
      rw [List.length_take]
      omega
    have split := List.take_append_drop bufp payload
    generalize payload.take bufp = front at place split
    generalize payload.drop bufp = tail at split
    subst place split
    rw [List.length_append] at room ⊢
    by_cases colon : Colon tail
    · refine iff_of_true ?_ colon
      obtain ⟨keys,more,rfl,free⟩ := colonSplits colon
      rw [List.length_append,List.length_cons] at room ⊢
      have within := pinWithin (P := Inside (front.length + (keys.length + (more.length + 1)) : Nat)) w front (more ++ 0 :: rest)
        found free (fun i high => ⟨by omega,by omega⟩) ⟨by omega,by omega⟩
      simp only [List.append_assoc,List.cons_append] at within ⊢
      exact within
    · have missing : ¬ Colon (tail ++ 0 :: rest) := by rwa [colonEnds]
      refine iff_of_false (fun each => ?_) colon
      rw [List.append_assoc] at each
      exact each _ ((pinMissing w front found missing).2 (List.mem_append_right _ List.mem_cons_self))

/- A card of sixteen digits and the byte behind it. -/
theorem cardSplits {bytes : Bytes} (long : 18 ≤ bytes.length) (status : bytes.head? = some 0x52) :
    ∃ number separator rest, bytes = 0x52 :: number ++ separator :: rest ∧ number.length = 16 := by
  obtain ⟨more,rfl⟩ := List.head?_eq_some_iff.mp status
  rw [List.length_cons] at long
  have split := List.take_append_drop 16 more
  obtain ⟨separator,rest,behind⟩ := List.exists_cons_of_length_pos (show 0 < (more.drop 16).length by rw [List.length_drop]; omega)
  refine ⟨more.take 16,separator,rest,?_,by rw [List.length_take]; omega⟩
  rw [List.cons_append,← behind,split]

theorem cardWithin (number : Bytes) (separator : Byte) (rest : Bytes) (sixteen : number.length = 16)
    (each : ∀ i : Nat, i ≤ 17 → P (.load i)) (stored : P (.store (1 + 16) 1)) : Every P (cardOf (0x52 :: number ++ separator :: rest)) := by
  have place : (1 + 16 : Int) = (0x52 :: number : Bytes).length := by rw [List.length_cons,sixteen]; rfl
  have zero : byteOf (some (0x52 :: number ++ 0 :: rest)) (17 : Nat) = some 0 := byteFront (by rw [List.length_cons,sixteen])
  have written := storeFront (0x52 :: number) rest separator 0 place
  unfold cardOf
  refine everyBind.mpr ⟨(everyUse _ _).mpr (each 0 (by omega)),fun status _ => ?_⟩
  split
  · refine everyBind.mpr ⟨(everyUse _ _).mpr stored,fun buf value => ?_⟩
    cases Option.some.inj (written.symm.trans value)
    exact everyBind.mpr ⟨textWithin zero (by omega) (fun i _ high => each i high),fun _ _ => everyPure _⟩
  · exact everyPure _

theorem cardPlain {b : Byte} (other : b ≠ 0x52) (rest : Bytes) (first : P (.load 0)) : Every P (cardOf (b :: rest)) := by
  have status : (load (some (b :: rest)) 0).value = some b := rfl
  rw [cardOf,everyBind]
  refine ⟨(everyUse _ _).mpr first,fun c value => ?_⟩
  cases Option.some.inj (status.symm.trans value)
  rw [if_neg other]
  exact everyPure _

/- The letter R of a card, and the place where the pin begins behind it. -/
theorem cardFits (w : Nat) {payload : Bytes} (rest : Bytes) (status : payload.head? = some 0x52) (room : payload.length < bufSize)
    (whole : (payload ++ 0 :: rest).length = bufSize) :
    Every (Inside payload.length) (cardPin w (payload ++ 0 :: rest)) ↔ Colon (payload.drop 18) := by
  unfold cardPin
  by_cases short : payload.length < 18
  · have letter : (payload ++ 0 :: rest).head? = some 0x52 := by
      obtain ⟨more,rfl⟩ := List.head?_eq_some_iff.mp status
      rfl
    obtain ⟨number,separator,tail,split,sixteen⟩ := cardSplits (by rw [whole]; decide) letter
    rw [List.drop_eq_nil_of_le (by omega),split,everyGiven (cardFound number separator tail sixteen)]
    refine iff_of_false (fun each => ?_) List.not_mem_nil
    exact pinBehind w _ _ (show payload.length ≤ 18 by omega) (everyBind.mp each.2).1
  · obtain ⟨number,separator,tail,rfl,sixteen⟩ := cardSplits (by omega) status
    have ended : (0x52 :: number ++ 0 :: tail).length = (0x52 :: number ++ separator :: tail).length := by
      rw [List.length_append,List.length_append,List.length_cons,List.length_cons]
      rfl
    have behind : (0x52 :: number ++ 0 :: tail).drop 18 = (0x52 :: number ++ separator :: tail).drop 18 := by
      have place : 18 = (0x52 :: number).length + 1 := by rw [List.length_cons,sixteen]
      rw [place,List.drop_append,List.drop_append]
      simp
    have pinned := pinInside w rest 18 ⟨0x01,some (strtoul 64 16 (number.takeWhile (· != 0))),none⟩ (ended ▸ room)
    have within := cardWithin (P := Inside (0x52 :: number ++ separator :: tail).length) number separator (tail ++ 0 :: rest) sixteen
      (fun i high => ⟨by omega,by omega⟩) ⟨by decide,by decide⟩
    have shape (c : Byte) : 0x52 :: number ++ c :: tail ++ 0 :: rest = 0x52 :: number ++ c :: (tail ++ 0 :: rest) := List.append_assoc _ _ _
    rw [behind,ended,shape] at pinned
    rw [← pinned,shape,everyGiven (cardFound number separator (tail ++ 0 :: rest) sixteen),and_iff_right within,everyBind]
    exact and_iff_left fun _ _ => everyPure _

theorem plainFits (w : Nat) {payload : Bytes} (rest : Bytes) (some' : payload ≠ []) (status : payload.head? ≠ some 0x52)
    (room : payload.length < bufSize) :
    Every (Inside payload.length) (cardPin w (payload ++ 0 :: rest)) ↔ Colon (payload.drop 1) := by
  obtain ⟨b,more,rfl⟩ := List.exists_cons_of_ne_nil some'
  have other : b ≠ 0x52 := fun same => status (congrArg some same)
  have within : Every (Inside (b :: more).length) (cardOf (b :: (more ++ 0 :: rest))) :=
    cardPlain other _ ⟨by decide,by rw [List.length_cons]; omega⟩
  rw [cardPin,← pinInside w rest 1 ⟨0,none,none⟩ room,List.cons_append,everyGiven (cardAbsent other (more ++ 0 :: rest)),
    and_iff_right within,everyBind]
  exact and_iff_left fun _ _ => everyPure _

/- Behind the response there is room for a NUL. -/
theorem storedBehind (size : out.length = bufSize) (room : n < bufSize) :
    ∃ rest, (storeByte out n 0).value = some (out.take n ++ 0 :: rest) ∧ (out.take n).length = n ∧
      (out.take n ++ 0 :: rest).length = bufSize := by
  have place : (out.take n).length = n := by
    rw [List.length_take]
    omega
  have split := List.take_append_drop n out
  obtain ⟨b,rest,behind⟩ := List.exists_cons_of_length_pos (show 0 < (out.drop n).length by rw [List.length_drop]; omega)
  rw [behind] at split
  have stored := storeFront (out.take n) rest b 0 (show (n : Int) = _ by rw [place])
  have whole := congrArg List.length split
  rw [split] at stored
  rw [List.length_append,List.length_cons,size] at whole
  exact ⟨rest,stored,place,by rw [List.length_append,List.length_cons]; exact whole⟩

theorem parsedInside (w : Nat) (size : out.length = bufSize) : Every (Inside len) (parsed w len out) ↔ Fits len out := by
  unfold Fits
  by_cases range : 0 ≤ len ∧ len < bufSize
  · obtain ⟨n,rfl⟩ := Int.eq_ofNat_of_zero_le range.1
    obtain ⟨rest,stored,place,whole⟩ := storedBehind size (show n < bufSize by omega)
    have within : Every (Inside n) (storeByte out n 0) := (everyUse _ _).mpr ⟨by omega,by omega⟩
    rw [parsed,everyGiven stored,and_iff_right within,and_iff_right range.1,and_iff_right range.2,Int.toNat_natCast,Separated,bufpOf]
    by_cases long : (4 : Int) < n
    · have room : (out.take n).length < bufSize := by omega
      have fits := fun status => cardFits w rest status room whole
      have plain := plainFits w rest (List.ne_nil_of_length_pos (show 0 < (out.take n).length by omega))
      rw [place] at fits plain
      rw [if_pos long,imp_iff_right long]
      split
      · rename_i status
        exact fits status
      · rename_i status
        exact plain status (by omega)
    · rw [if_neg long]
      exact iff_of_true (everyPure _) (fun more => absurd more long)
  · refine iff_of_false (fun each => range ?_) (fun fits => range ⟨fits.1,fits.2.1⟩)
    obtain ⟨least,most⟩ : Inside len (.store len 1) := (everyUse _ _).mp (everyBind.mp each).1
    exact ⟨least,by omega⟩

theorem readParsed (w fuel : Nat) (written : Int) (addr : Byte) (buf : Bytes) (line : List Arrival) :
    readCardPin w fuel written addr buf line = (do
      let (len,out,line) ← exchange fuel written addr buf line
      let found ← parsed w len (out.getD buf)
      return (found,line)) := by
  unfold readCardPin parsed cardPin exchange
  congr 1
  funext ⟨len,out,line⟩
  dsimp only
  rw [bindAssoc]
  congr 1
  funext buf
  split
  · simp only [bindAssoc]
    rfl
  · rfl

/- The exchange writes inside the buffer that it was given, and hands the same one back. -/
def Kept (n : Nat) (buf : Option Bytes) : Prop := ∃ bytes, buf = some bytes ∧ bytes.length = n

theorem overlayKept {before after : Option Bytes} {index : Int} {chunk : Bytes} (kept : Kept n before)
    (stored : overlay before index chunk = some after) : Kept n after := by
  obtain ⟨bytes,rfl,size⟩ := kept
  unfold overlay at stored
  split at stored
  · cases stored
    exact ⟨bytes,rfl,size⟩
  · rw [Option.bind_some] at stored
    split at stored
    · rename_i room
      cases stored
      refine ⟨_,rfl,?_⟩
      simp only [List.length_append,List.length_take,List.length_drop]
      omega
    · cases stored

theorem readKept {before after : Option Bytes} {index count got : Int} {line line' : List Arrival} (kept : Kept n before)
    (value : (Epso.read before index count line).value = some (got,after,line')) : Kept n after := by
  unfold Epso.read at value
  split at value
  · cases value
    exact kept
  · rw [valueBind] at value
    obtain ⟨buf,stored,given⟩ := Option.bind_eq_some_iff.mp value
    cases given
    exact overlayKept kept stored

theorem restKept {bufLen : BitVec 16} {s t : Receive} {ret : Int} (kept : Kept n s.buf)
    (value : (readRest bufLen fuel s).value = some (ret,t)) : Kept n t.buf := by
  induction fuel generalizing s with
  | zero => cases value
  | succ fuel ih =>
    obtain ⟨buf,pos,line⟩ := s
    rw [readRest] at value
    dsimp only at value
    split at value
    · rw [valueBind] at value
      obtain ⟨⟨got,buf',line'⟩,taken,rest⟩ := Option.bind_eq_some_iff.mp value
      have kept' := readKept kept taken
      dsimp only at rest
      split at rest
      · cases rest
        exact kept'
      · exact ih kept' rest
    · cases value
      exact kept

theorem receiveKept {bufLen : BitVec 16} {before : Option Bytes} {line : List Arrival} {ret : Int} {t : Receive} (kept : Kept n before)
    (value : (receive bufLen fuel before line).value = some (ret,t)) : Kept n t.buf := by
  unfold receive at value
  dsimp only at value
  split at value
  · rw [valueBind] at value
    obtain ⟨⟨got,buf',line'⟩,taken,rest⟩ := Option.bind_eq_some_iff.mp value
    have kept' := readKept kept taken
    dsimp only at rest
    split at rest
    · cases rest
      exact kept'
    · exact restKept kept' rest
  · split at value
    · cases value
      exact kept
    · cases value
      exact kept

theorem copyKept {bufLen : BitVec 16} {start : Nat} {pos ret : Int} {i j : Byte} {before after : Option Bytes} (kept : Kept n before)
    (value : (copyDown bufLen start pos fuel i j before).value = some (ret,after)) : Kept n after := by
  induction fuel generalizing i j before with
  | zero => cases value
  | succ fuel ih =>
    rw [copyDown] at value
    dsimp only at value
    split at value
    · split at value
      · cases value
        exact kept
      · rw [valueBind] at value
        obtain ⟨b,_,rest⟩ := Option.bind_eq_some_iff.mp value
        rw [valueBind] at rest
        obtain ⟨buf,stored,rest⟩ := Option.bind_eq_some_iff.mp rest
        have written : overlay before (i - 7).toNat [b] = some buf := stored
        exact ih (overlayKept kept written) rest
    · cases value
      exact kept

theorem answerKept {bufLen : BitVec 16} {pos ret : Int} {before after : Option Bytes} (kept : Kept n before)
    (value : (answer bufLen fuel before pos).value = some (ret,after)) : Kept n after := by
  unfold answer at value
  rw [valueBind] at value
  obtain ⟨⟨start,pos⟩,_,rest⟩ := Option.bind_eq_some_iff.mp value
  dsimp only at rest
  split at rest
  · cases rest
    exact kept
  · simp only [valueBind] at rest
    obtain ⟨sum,_,rest⟩ := Option.bind_eq_some_iff.mp rest
    obtain ⟨last,_,rest⟩ := Option.bind_eq_some_iff.mp rest
    split at rest
    · cases rest
      exact kept
    · obtain ⟨bytes,rfl,size⟩ := kept
      exact copyKept ⟨bytes,rfl,size⟩ rest

theorem exchangeKept {written : Int} {addr : Byte} {line rest : List Arrival} {ret : Int} {after : Option Bytes}
    (size : buf.length = bufSize) (value : (exchange fuel written addr buf line).value = some (ret,after,rest)) :
    ∃ bytes, after = some bytes ∧ bytes.length = bufSize := by
  have kept : Kept bufSize (some buf) := ⟨buf,rfl,size⟩
  unfold exchange epsoWriteRead at value
  simp only [valueBind,valueNote,Option.bind_some] at value
  obtain ⟨⟨ret',s⟩,got,value⟩ := Option.bind_eq_some_iff.mp value
  have kept' := receiveKept kept got
  dsimp only at value
  split at value
  · cases value
    exact kept'
  · rw [valueBind] at value
    obtain ⟨⟨ret'',buf'⟩,answered,value⟩ := Option.bind_eq_some_iff.mp value
    cases value
    exact answerKept kept' answered

/- The parsing uses just what the poll uses behind the exchange. -/
theorem boundedParsed (w : Nat) {written : Int} {addr : Byte} {line rest : List Arrival} {out : Bytes}
    (value : (exchange fuel written addr buf line).value = some (len,some out,rest)) :
    Bounded w fuel written addr buf line len ↔ Every (Inside len) (parsed w len out) := by
  have whole := readParsed w fuel written addr buf line
  rw [bindSome value] at whole
  have behind : (readCardPin w fuel written addr buf line).uses.drop (exchange fuel written addr buf line).uses.length =
      (parsed w len out >>= fun found => (return (found,rest) : Trace Use (CardPin × List Arrival))).uses := by
    rw [whole]
    exact List.drop_left
  have every : Every (Inside len) (parsed w len out >>= fun found => (return (found,rest) : Trace Use (CardPin × List Arrival))) ↔
      Every (Inside len) (parsed w len out) := everyBind.trans (and_iff_left fun _ _ => everyPure _)
  rw [← every]
  constructor
  · intro bounded
    have uses := bounded.uses
    rwa [behind] at uses
  · intro inside
    refine ⟨by rw [behind]; exact inside,fun negative => ?_⟩
    have stored : Inside len (.store len 1) := (everyUse _ _).mp (everyBind.mp (every.mp inside)).1
    exact absurd stored.1 (by omega)

/- The parsing stays inside its buffer and the response just where the length is none of an error
and leaves room, and the pin has a colon behind it. -/
theorem parsingBounded (w fuel : Nat) (written : Int) (addr : Byte) (size : buf.length = bufSize) {line rest : List Arrival}
    {after : Option Bytes} (value : (exchange fuel written addr buf line).value = some (len,after,rest)) :
    ∃ out, after = some out ∧ out.length = bufSize ∧ (Bounded w fuel written addr buf line len ↔ Fits len out) := by
  obtain ⟨out,rfl,size'⟩ := exchangeKept size value
  exact ⟨out,rfl,size',(boundedParsed w value).trans (parsedInside w size')⟩

end

/- What is left in a blank buffer when a payload was moved to its front. -/
def answeredBuffer (payload : Bytes) : Bytes :=
  payload ++ (response header payload).drop payload.length ++ List.replicate (bufSize - (response header payload).length) 0

def cardOnly : Bytes := 0x52 :: List.replicate 16 0x37 ++ [0x0d,0x3a]

/- A poll nobody answers, five bytes without a colon, and a card cut off behind four digits. -/
theorem parsingStrays :
    ((exchange 20 12 0x00 rogerLocals.dataBuf []).value.map Prod.fst = some (-20) ∧ ¬ Bounded 32 20 12 0x00 rogerLocals.dataBuf [] (-20)) ∧
    ¬ Bounded 32 20 12 0x00 rogerLocals.dataBuf [.bytes (response header [0x4b,0x31,0x32,0x33,0x34])] 5 ∧
    ¬ Bounded 32 20 12 0x00 rogerLocals.dataBuf [.bytes (response header [0x52,0x31,0x32,0x33,0x34])] 5 := by
  have idle : (exchange 20 12 0x00 rogerLocals.dataBuf []).value = some (-20,some rogerLocals.dataBuf,[]) := rfl
  have open' : (exchange 20 12 0x00 rogerLocals.dataBuf [.bytes (response header [0x4b,0x31,0x32,0x33,0x34])]).value =
      some (5,some (answeredBuffer [0x4b,0x31,0x32,0x33,0x34]),[]) := by decide +kernel
  have short : (exchange 20 12 0x00 rogerLocals.dataBuf [.bytes (response header [0x52,0x31,0x32,0x33,0x34])]).value =
      some (5,some (answeredBuffer [0x52,0x31,0x32,0x33,0x34]),[]) := by decide +kernel
  refine ⟨⟨rfl,fun bounded => ?_⟩,fun bounded => ?_,fun bounded => ?_⟩
  · exact absurd ((parsedInside 32 rogerLocals.size).mp ((boundedParsed 32 idle).mp bounded)).1 (by decide)
  · have fits := (parsedInside 32 (show (answeredBuffer [0x4b,0x31,0x32,0x33,0x34]).length = bufSize by decide +kernel)).mp
      ((boundedParsed 32 open').mp bounded)
    exact absurd (fits.2.2 (by decide)) (by decide +kernel)
  · have fits := (parsedInside 32 (show (answeredBuffer [0x52,0x31,0x32,0x33,0x34]).length = bufSize by decide +kernel)).mp
      ((boundedParsed 32 short).mp bounded)
    exact absurd (fits.2.2 (by decide)) (by decide +kernel)

theorem parsingBoundedCard : ∃ out, some (answeredBuffer cardOnly) = some out ∧ out.length = bufSize ∧
    (Bounded 32 30 12 0x00 rogerLocals.dataBuf [.bytes (response header cardOnly)] 19 ↔ Fits 19 out) :=
  have value : (exchange 30 12 0x00 rogerLocals.dataBuf [.bytes (response header cardOnly)]).value =
      some (19,some (answeredBuffer cardOnly),[]) := by decide +kernel
  parsingBounded 32 30 12 0x00 rogerLocals.size value

end AccessControl.RogerBounds
