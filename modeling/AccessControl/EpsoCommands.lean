import AccessControl.Epso

/-! Requests to an EPSO reader, and what a reader that goes by the layout makes of them. The
index of the STX counts on an address of two digits. -/
namespace AccessControl.EpsoCommands
open BitMask Numeral Epso

/- The data as it is printed: raw for the function 0xFF. -/
def dataText (func data : Byte) : Bytes := if func = 0xff then [data] else decimal data.toNat

/- The request as the protocol has it. -/
def commandBody (addr func data : Byte) : Bytes :=
  [SOH,0x53] ++ decimal2 addr ++ hex2 func ++ [STX] ++ dataText func data ++ [ETX]
def command (addr func data : Byte) : Bytes := commandBody addr func data ++ [checksum (commandBody addr func data)]

/- A request taken apart by its layout. -/
def decode (bytes : Bytes) : Option (Byte × Byte × Byte) :=
  let body := bytes.dropLast
  let func := BitVec.ofNat 8 (number 16 ((body.drop 4).take 2))
  let value := (body.drop 7).dropLast
  if body.take 2 = [SOH,0x53] ∧ body[6]? = some STX ∧ body.getLast? = some ETX ∧ bytes.getLast? = some (checksum body) then
    some (BitVec.ofNat 8 (number 10 ((body.drop 2).take 2)),func,if func = 0xff then value.headD 0 else BitVec.ofNat 8 (number 10 value))
  else none

section
variable {addr func data addr' func' data' : Byte}

theorem addressSelf : ∀ b : Byte, number 10 (decimal2 b) = b.toNat := by decide
theorem addressWidth : ∀ b : Byte, (decimal2 b).length = if b.toNat < 100 then 2 else 3 := by decide

theorem addressDigits (b : Byte) : ∀ d ∈ decimal2 b, Digit d := by
  intro d inside
  rcases List.mem_append.mp inside with pad | numeral
  · rw [List.eq_of_mem_replicate pad]
    decide
  · exact decimalDigits _ d numeral

theorem addressInjective {a b : Byte} (same : decimal2 a = decimal2 b) : a = b := by
  have value := congrArg (number 10) same
  rw [addressSelf,addressSelf] at value
  exact BitVec.eq_of_toNat_eq value

theorem functionInjective {a b : Byte} (same : hex2 a = hex2 b) : a = b := by
  have value := congrArg (number 16) same
  rw [hexSelf,hexSelf] at value
  exact BitVec.eq_of_toNat_eq value

theorem textInjective (same : dataText func data = dataText func data') : data = data' := by
  unfold dataText at same
  split at same
  · exact (List.cons.inj same).1
  · have value := congrArg (number 10) same
    rw [numberDecimal,numberDecimal] at value
    exact BitVec.eq_of_toNat_eq value

/- What is in front of the data, once its control characters are set. -/
def front (addr func : Byte) : Bytes := ((ascii ['_','S'] ++ decimal2 addr ++ hex2 func ++ ascii ['_']).set 0 SOH).set 6 STX

/- The three indices that are patched: two in front of the data, one behind it. -/
theorem patched {before : Bytes} (long : 7 ≤ before.length) (text : Bytes) (last : Byte) :
    (((before ++ text ++ [last]).set 0 SOH).set 6 STX).set ((before ++ text ++ [last]).length - 1) ETX =
      (before.set 0 SOH).set 6 STX ++ text ++ [ETX] := by
  have place : (before ++ text ++ [last]).length - 1 = ((before.set 0 SOH).set 6 STX ++ text).length := by simp
  have front : ((before ++ text ++ [last]).set 0 SOH).set 6 STX = (before.set 0 SOH).set 6 STX ++ text ++ [last] := by
    rw [List.append_assoc,List.set_append_left _ _ (by omega),List.set_append_left _ _ (by rw [List.length_set]; omega),List.append_assoc]
  rw [front,place,List.set_append_right _ _ (le_refl _),Nat.sub_self,List.set_cons_zero]

theorem sentBody (written : Int) (addr func data : Byte) : (epsoWrite written addr func data).1 =
    front addr func ++ dataText func data ++ [ETX] ++ [checksum (front addr func ++ dataText func data ++ [ETX])] := by
  have width := addressWidth addr
  have long : 7 ≤ (ascii ['_','S'] ++ decimal2 addr ++ hex2 func ++ ascii ['_']).length := by
    simp only [List.length_append,ascii,List.map_cons,List.map_nil,List.length_cons,List.length_nil,hex2]
    split at width <;> omega
  have text : epsoText addr func data =
      ascii ['_','S'] ++ decimal2 addr ++ hex2 func ++ ascii ['_'] ++ dataText func data ++ [0x5f] := rfl
  have body := patched long (dataText func data) 0x5f
  unfold epsoWrite
  dsimp only
  rw [text,body]
  rfl

theorem frontTwo (short : addr.toNat < 100) (func : Byte) :
    ∃ a b, decimal2 addr = [a,b] ∧ front addr func = [SOH,0x53,a,b] ++ hex2 func ++ [STX] := by
  have width := addressWidth addr
  rw [if_pos short] at width
  obtain ⟨a,b,digits⟩ := List.length_eq_two.mp width
  refine ⟨a,b,digits,?_⟩
  rw [front,digits]
  rfl

/- With a third digit the STX covers the second one of the function. -/
theorem frontThree (long : ¬ addr.toNat < 100) (func : Byte) :
    ∃ a b c, decimal2 addr = [a,b,c] ∧ front addr func = [SOH,0x53,a,b,c,digitByte (func.toNat / 16),STX,0x5f] := by
  have width := addressWidth addr
  rw [if_neg long] at width
  obtain ⟨a,b,c,digits⟩ := List.length_eq_three.mp width
  refine ⟨a,b,c,digits,?_⟩
  rw [front,digits]
  rfl

theorem sameBody (written written' : Int) : (epsoWrite written addr func data).1 = (epsoWrite written' addr' func' data').1 ↔
    front addr func ++ dataText func data = front addr' func' ++ dataText func' data' := by
  rw [sentBody,sentBody]
  constructor
  · intro same
    have bodies := congrArg List.dropLast same
    rw [List.dropLast_concat,List.dropLast_concat] at bodies
    have commands := congrArg List.dropLast bodies
    rwa [List.dropLast_concat,List.dropLast_concat] at commands
  · intro same
    rw [same]

theorem shortSame (short : addr.toNat < 100) (short' : addr'.toNat < 100)
    (same : front addr func ++ dataText func data = front addr' func' ++ dataText func' data') : (addr,func,data) = (addr',func',data') := by
  obtain ⟨a,b,digits,head⟩ := frontTwo short func
  obtain ⟨a',b',digits',head'⟩ := frontTwo short' func'
  rw [head,head'] at same
  obtain ⟨fronts,texts⟩ := List.append_inj same rfl
  obtain ⟨names,_⟩ := List.append_inj fronts rfl
  obtain ⟨numbers,codes⟩ := List.append_inj names rfl
  simp only [List.cons.injEq] at numbers
  have addresses : addr = addr' := addressInjective (by rw [digits,digits',numbers.2.2.1,numbers.2.2.2.1])
  have functions := functionInjective codes
  subst functions
  rw [addresses,textInjective texts]

/- A short address and a long one never meet: what stands behind the address gives them away. -/
theorem widthsApart (short : addr.toNat < 100) (long : ¬ addr'.toNat < 100) :
    front addr func ++ dataText func data ≠ front addr' func' ++ dataText func' data' := by
  intro same
  obtain ⟨a,b,_,head⟩ := frontTwo short func
  obtain ⟨a',b',c,digits,head'⟩ := frontThree long func'
  have code : hex2 func = [digitByte (func.toNat / 16),digitByte (func.toNat % 16)] := rfl
  rw [head,head',code] at same
  simp only [List.cons_append,List.nil_append,List.cons.injEq] at same
  obtain ⟨_,_,_,_,third,_,_,text⟩ := same
  by_cases raw : func = 0xff
  · have digit : Digit c := addressDigits addr' c (by rw [digits]; simp)
    rw [← third,raw] at digit
    exact absurd digit (by decide)
  · rw [dataText,if_neg raw] at text
    have first : Digit 0x5f := decimalDigits data.toNat 0x5f (by rw [text]; exact List.mem_cons_self)
    exact absurd first (by decide)

theorem longSame (long : ¬ addr.toNat < 100) (long' : ¬ addr'.toNat < 100) :
    front addr func ++ dataText func data = front addr' func' ++ dataText func' data' ↔
      addr = addr' ∧ func.toNat / 16 = func'.toNat / 16 ∧ dataText func data = dataText func' data' := by
  have nibble : ∀ b : Byte, number 16 [digitByte (b.toNat / 16)] = b.toNat / 16 := by decide
  obtain ⟨a,b,c,digits,head⟩ := frontThree long func
  obtain ⟨a',b',c',digits',head'⟩ := frontThree long' func'
  rw [head,head']
  constructor
  · intro same
    obtain ⟨fronts,texts⟩ := List.append_inj same rfl
    simp only [List.cons.injEq] at fronts
    obtain ⟨_,_,first,second,third,upper,_⟩ := fronts
    have values := congrArg (fun d => number 16 [d]) upper
    rw [nibble,nibble] at values
    exact ⟨addressInjective (by rw [digits,digits',first,second,third]),values,texts⟩
  · rintro ⟨rfl,upper,texts⟩
    have same := digits.symm.trans digits'
    simp only [List.cons.injEq] at same
    rw [same.1,same.2.1,same.2.2.1,upper,texts]

/- Behind a long address another function of the same sixteen sends the same bytes, unless
only raw data could have been sent. -/
theorem longTwin (long : ¬ addr.toNat < 100) (other : ¬ (func = 0xff ∧ ¬ Digit data)) :
    ∃ func' data', (func,data) ≠ (func',data') ∧ front addr func ++ dataText func data = front addr func' ++ dataText func' data' := by
  by_cases raw : func = 0xff
  · have digit : Digit data := by
      by_contra plain
      exact other ⟨raw,plain⟩
    have range := digit
    unfold Digit at range
    have value : (BitVec.ofNat 8 (data.toNat - 48)).toNat = data.toNat - 48 := by
      rw [BitVec.toNat_ofNat]
      omega
    have text : dataText 0xf0 (BitVec.ofNat 8 (data.toNat - 48)) = [data] := by
      rw [dataText,if_neg (by decide),value,decimalStep,if_pos (by omega),byteDigit digit]
    refine ⟨0xf0,BitVec.ofNat 8 (data.toNat - 48),?_,?_⟩
    · intro same
      rw [raw] at same
      exact absurd (Prod.mk.inj same).1 (by decide)
    · rw [longSame long long,text,dataText,if_pos raw,raw]
      exact ⟨rfl,rfl,rfl⟩
  · have twins : ∀ f : Byte, f ≠ 0xff → ∃ g : Byte, f ≠ g ∧ g ≠ 0xff ∧ f.toNat / 16 = g.toNat / 16 := by
      intro f plain
      by_cases zero : f.toNat % 16 = 0
      · exact ⟨f ||| 1,by revert f; decide,by revert f; decide,by revert f; decide⟩
      · exact ⟨f &&& 0xf0,by revert f; decide,by revert f; decide,by revert f; decide⟩
    obtain ⟨func',differ,plain,upper⟩ := twins func raw
    refine ⟨func',data,fun same => differ (Prod.mk.inj same).1,?_⟩
    rw [longSame long long,dataText,dataText,if_neg raw,if_neg plain]
    exact ⟨rfl,upper,rfl⟩

/- A reader that goes by the layout takes a request with a short address apart. -/
theorem decodeShort (short : addr.toNat < 100) (written : Int) (func data : Byte) :
    decode (epsoWrite written addr func data).1 = some (addr,func,data) := by
  obtain ⟨a,b,digits,head⟩ := frontTwo short func
  have body : front addr func ++ dataText func data ++ [ETX] =
      [SOH,0x53] ++ [a,b] ++ hex2 func ++ [STX] ++ (dataText func data ++ [ETX]) := by
    rw [head]
    simp
  have address := addressSelf addr
  rw [digits] at address
  have first : BitVec.ofNat 8 (number 10 [a,b]) = addr := by rw [address,BitVec.ofNat_toNat,BitVec.setWidth_eq]
  have second : BitVec.ofNat 8 (number 16 (hex2 func)) = func := by rw [hexSelf,BitVec.ofNat_toNat,BitVec.setWidth_eq]
  have third : (if func = 0xff then (dataText func data).headD 0 else BitVec.ofNat 8 (number 10 (dataText func data))) = data := by
    by_cases raw : func = 0xff
    · rw [if_pos raw,dataText,if_pos raw]
      rfl
    · rw [if_neg raw,dataText,if_neg raw,numberDecimal,BitVec.ofNat_toNat,BitVec.setWidth_eq]
  have ends : ([SOH,0x53] ++ [a,b] ++ hex2 func ++ [STX] ++ (dataText func data ++ [ETX])).getLast? = some ETX := by
    rw [← List.append_assoc]
    exact List.getLast?_concat
  have code : (([SOH,0x53] ++ [a,b] ++ hex2 func ++ [STX] ++ (dataText func data ++ [ETX])).drop 4).take 2 = hex2 func := rfl
  have value : (([SOH,0x53] ++ [a,b] ++ hex2 func ++ [STX] ++ (dataText func data ++ [ETX])).drop 7).dropLast = dataText func data := List.dropLast_concat
  rw [sentBody,body]
  unfold decode
  dsimp only
  rw [List.dropLast_concat,List.getLast?_concat,if_pos ⟨rfl,rfl,ends,rfl⟩,code,value,second,third]
  exact congrArg some (congrArg (·,func,data) first)

/- What is sent with a long address is no request of the layout. -/
theorem longMisplaced (long : ¬ addr.toNat < 100) (written : Int) (func data : Byte) :
    (epsoWrite written addr func data).1 ≠ command addr func data := by
  have letters : ∀ b : Byte, digitByte (b.toNat % 16) ≠ STX := by decide
  obtain ⟨a,b,c,digits,head⟩ := frontThree long func
  intro same
  rw [sentBody,head,command,commandBody,digits] at same
  have seventh := congrArg (fun bytes => bytes[6]?) same
  exact letters func (Option.some.inj seventh).symm

end

/- The request of the layout, which gives back what was sent and belongs to no other command. -/
structure Recovered (written : Int) (addr func data : Byte) : Prop where
  layout : (epsoWrite written addr func data).1 = command addr func data
  decoded : decode (epsoWrite written addr func data).1 = some (addr,func,data)
  unique : ∀ written' addr' func' data', (epsoWrite written addr func data).1 = (epsoWrite written' addr' func' data').1 →
    (addr,func,data) = (addr',func',data')

/- Requests go by the layout just for the addresses of two digits; behind a longer one raw data
that is no digit is all that still identifies its command. -/
theorem commandsDecode (written : Int) (addr func data : Byte) :
    (Recovered written addr func data ↔ addr.toNat < 100) ∧
    ((∀ written' addr' func' data', (epsoWrite written addr func data).1 = (epsoWrite written' addr' func' data').1 →
      (addr,func,data) = (addr',func',data')) ↔ addr.toNat < 100 ∨ func = 0xff ∧ ¬ Digit data) := by
  have short : addr.toNat < 100 → ∀ written' addr' func' data',
      (epsoWrite written addr func data).1 = (epsoWrite written' addr' func' data').1 → (addr,func,data) = (addr',func',data') := by
    intro short written' addr' func' data' same
    rw [sameBody] at same
    by_cases short' : addr'.toNat < 100
    · exact shortSame short short' same
    · exact absurd same (widthsApart short short')
  constructor
  · constructor
    · intro recovered
      by_contra long
      exact longMisplaced long written func data recovered.layout
    · intro small
      obtain ⟨a,b,digits,head⟩ := frontTwo small func
      refine ⟨?_,decodeShort small written func data,short small⟩
      rw [sentBody,head,command,commandBody,digits]
      rfl
  · constructor
    · intro unique
      by_contra other
      rw [not_or] at other
      obtain ⟨func',data',differ,same⟩ := longTwin other.1 other.2
      exact differ (Prod.mk.inj (unique written addr func' data' ((sameBody written written).mpr same))).2
    · rintro (small | ⟨rfl,plain⟩)
      · exact short small
      · intro written' addr' func' data' same
        rw [sameBody] at same
        by_cases small : addr.toNat < 100
        · exact short small written' addr' func' data' ((sameBody written written').mpr same)
        · have long' : ¬ addr'.toNat < 100 := fun small' => widthsApart small' small same.symm
          obtain ⟨rfl,upper,texts⟩ := (longSame small long').mp same
          have raw : func' = 0xff := by
            by_contra other
            rw [dataText,dataText,if_pos rfl,if_neg other] at texts
            exact plain (decimalDigits data'.toNat data (by rw [← texts]; exact List.mem_cons_self))
          subst raw
          rw [textInjective texts]

/- To the reader with address 100, switching the sound on and off are the same bytes. -/
theorem soundsAlike : (epsoWrite 12 100 0xb1 62).1 = (epsoWrite 12 100 0xb0 62).1 ∧ (epsoWrite 12 100 0xb1 62).1 ≠ command 100 0xb1 62 ∧
    decode (epsoWrite 12 100 0xb1 62).1 ≠ some (100,0xb1,62) := by decide

end AccessControl.EpsoCommands
