import AccessControl.ConfigFile
import AccessControl.Numeral

/-! What the configuration file leaves: each slot of the table is written once, from its own
line, and a file that spells a table is read back as that table. -/
namespace AccessControl.ConfigTable
open BitMask DoorTable DoorController RemoteControl Separated ConfigFile

section
variable {unsignedChar : Bool} {initReader : InitReader}

/- A line that starts a door and the readers it asks for. -/
def Ready (initReader : InitReader) (place : Nat) (line : Bytes) (door : DoorLine) : Prop :=
  parseDoor line = some door ∧ readerReady initReader place .A door.readerA = true ∧ readerReady initReader place .B door.readerB = true

/- The lines in front of place `count` each wrote their slot. -/
def Filled (initReader : InitReader) (lines : List Bytes) (table : List DoorLine) : Prop :=
  lines.length = table.length ∧ ∀ place line door, lines[place]? = some line → table[place]? = some door → Ready initReader place line door

/- The outcome for the door lines of a file, by the first of them that goes wrong. -/
def Accounts (initReader : InitReader) (lines : List Bytes) : Loaded → Prop
  | .doors table => lines ≠ [] ∧ Filled initReader lines table
  | .noDoors => lines = []
  | .parseError count => ∃ before line after table, lines = before ++ line :: after ∧ Filled initReader before table ∧
      count = before.length + 1 ∧ parseDoor line = none
  | .noReader => ∃ before line after table door, lines = before ++ line :: after ∧ Filled initReader before table ∧
      parseDoor line = some door ∧ ¬ Ready initReader before.length line door
  | .outside => False

theorem filledMore {lines : List Bytes} {table : List DoorLine} {line : Bytes} {door : DoorLine} (filled : Filled initReader lines table)
    (ready : Ready initReader table.length line door) : Filled initReader (lines ++ [line]) (table ++ [door]) := by
  obtain ⟨size,each⟩ := filled
  refine ⟨by rw [List.length_append,List.length_append,size]; rfl,?_⟩
  intro place l d atLine atDoor
  by_cases inside : place < table.length
  · rw [List.getElem?_append_left (by omega)] at atLine
    rw [List.getElem?_append_left inside] at atDoor
    exact each place l d atLine atDoor
  · rw [List.getElem?_append_right (by omega),size] at atLine
    rw [List.getElem?_append_right (by omega)] at atDoor
    have last : place - table.length = 0 := by
      have bound := (List.getElem?_eq_some_iff.mp atDoor).1
      rw [List.length_singleton] at bound
      omega
    rw [last] at atLine atDoor
    cases atLine
    cases atDoor
    have here : place = table.length := by omega
    rw [here]
    exact ready

/- The two reads see the same lines, so the pointer never gets behind the table. -/
theorem fillAccounts (rest : List Bytes) {before : List Bytes} {table : List DoorLine} {lineCount doorsCount : Nat}
    (filled : Filled initReader before table) (counted : lineCount = table.length + 1)
    (room : doorsCount = table.length + (rest.filter (isDoor unsignedChar)).length)
    (some' : before ++ rest.filter (isDoor unsignedChar) ≠ []) :
    Accounts initReader (before ++ rest.filter (isDoor unsignedChar)) (fill unsignedChar initReader doorsCount rest lineCount table) := by
  induction rest generalizing before table lineCount with
  | nil =>
    rw [List.filter_nil,List.append_nil] at some' ⊢
    exact ⟨some',filled⟩
  | cons line rest ih =>
    rw [fill]
    by_cases door : isDoor unsignedChar line = true
    · rw [List.filter_cons_of_pos door] at room some' ⊢
      rw [List.length_cons] at room
      rw [if_pos door,if_pos (by omega)]
      cases parsed : parseDoor line with
      | none => exact ⟨before,line,_,table,rfl,filled,by rw [counted,filled.1],parsed⟩
      | some found =>
        by_cases ready : (readerReady initReader table.length .A found.readerA && readerReady initReader table.length .B found.readerB) = true
        · simp only [ready,if_true]
          have sides := Bool.and_eq_true_iff.mp ready
          have next : Filled initReader (before ++ [line]) (table ++ [found]) := filledMore filled ⟨parsed,sides.1,sides.2⟩
          have regroup : before ++ line :: rest.filter (isDoor unsignedChar) = before ++ [line] ++ rest.filter (isDoor unsignedChar) := by
            rw [List.append_assoc,List.singleton_append]
          rw [regroup] at some' ⊢
          refine ih next ?_ ?_ some'
          · rw [List.length_append,List.length_singleton,counted]
          · rw [List.length_append,List.length_singleton]
            omega
        · simp only [ready]
          refine ⟨before,line,_,table,found,rfl,filled,parsed,?_⟩
          rw [filled.1]
          exact fun ⟨_,a,b⟩ => ready (by rw [a,b]; rfl)
    · rw [List.filter_cons_of_neg door] at room some' ⊢
      rw [if_neg door]
      exact ih filled counted room some'

theorem loadFills (unsignedChar : Bool) (initReader : InitReader) (file : Bytes) :
    Accounts initReader (doorLines unsignedChar file) (load unsignedChar initReader file) := by
  rw [load]
  by_cases none : (doorLines unsignedChar file).length < 1
  · simp only [none,if_true]
    exact List.eq_nil_of_length_eq_zero (by omega)
  · simp only [none,if_false]
    have some' : [] ++ doorLines unsignedChar file ≠ [] := by
      intro empty
      rw [List.nil_append] at empty
      rw [empty] at none
      exact none (by decide)
    have start : Filled initReader [] [] := ⟨rfl,fun _ _ _ atLine => by cases atLine⟩
    exact fillAccounts (fgetsAll file) start rfl (by rw [List.length_nil,Nat.zero_add]; rfl) some'

end

section
variable {c : Byte} {digits : Bytes}

theorem digitSame (digit : Numeral.Digit c) : digitValue c = c.toNat - 48 := by
  unfold Numeral.Digit at digit
  rw [digitValue,if_pos digit]

theorem readDigitsNumber (each : ∀ c ∈ digits, Numeral.Digit c) : readDigits 10 digits = Numeral.number 10 digits := by
  have small : ∀ c ∈ digits, decide (digitValue c < 10) = true := by
    intro c member
    have digit := each c member
    rw [digitSame digit]
    unfold Numeral.Digit at digit
    simp only [decide_eq_true_eq]
    omega
  rw [readDigits,List.takeWhile_eq_self_iff.mpr small,Numeral.number]
  refine List.foldl_ext _ _ 0 ?_
  intro acc c member
  rw [Numeral.digitTen (each c member),digitSame (each c member),Option.getD_some,Nat.mul_comm]

theorem digitSpace (digit : Numeral.Digit c) : isSpace c = false := by
  unfold Numeral.Digit at digit
  rw [isSpace,Bool.or_eq_false_iff]
  refine ⟨?_,?_⟩
  · rw [beq_eq_false_iff_ne]
    rintro rfl
    exact absurd digit.1 (by decide)
  · rw [Bool.and_eq_false_iff,decide_eq_false_iff_not,decide_eq_false_iff_not]
    omega

/- `strtoll` with base 0 takes a numeral without a leading zero as decimal. -/
theorem strtollDecimal {n : Nat} (fits : n < 2^63) : strtoll (Numeral.decimal n) = n := by
  have each := Numeral.decimalDigits n
  have value := Numeral.numberDecimal n
  rcases Numeral.decimalCanonical n with zero | leading
  · rw [zero] at value ⊢
    rw [← value]
    decide
  · obtain ⟨c,rest,spelled⟩ := List.exists_cons_of_ne_nil (Numeral.decimalNonempty n)
    rw [spelled] at each value leading ⊢
    have first := each c List.mem_cons_self
    have notZero : c ≠ 0x30 := fun same => leading (by rw [same]; rfl)
    have notMinus : (some c = some (0x2d : Byte)) ↔ False := by
      rw [iff_false]
      rintro same
      rw [Option.some.inj same] at first
      exact absurd first.1 (by decide)
    have notPlus : (some c = some (0x2b : Byte)) ↔ False := by
      rw [iff_false]
      rintro same
      rw [Option.some.inj same] at first
      exact absurd first.1 (by decide)
    have kept : (c :: rest).dropWhile isSpace = c :: rest := List.dropWhile_cons_of_neg (by rw [digitSpace first]; decide)
    have number := readDigitsNumber each
    rw [value] at number
    simp only [strtoll,kept,List.head?_cons,notMinus,notPlus,or_self,if_false]
    split
    · rename_i same
      exact absurd (List.cons.inj same).1 notZero
    · rename_i same
      exact absurd (List.cons.inj same).1 notZero
    · rw [number]
      omega

theorem toByteDecimal (b : Byte) : toByte (Numeral.decimal b.toNat) = b := by
  rw [toByte,strtollDecimal (by omega),BitVec.ofInt_natCast,BitVec.ofNat_toNat,BitVec.setWidth_eq]

theorem toIntDecimal (m : Mask) : toInt (Numeral.decimal m.toNat) = m := by
  rw [toInt,strtollDecimal (by omega),BitVec.ofInt_natCast,BitVec.ofNat_toNat,BitVec.setWidth_eq]

end

structure Solid (word : Bytes) : Prop where
  some : word ≠ []
  solid : ∀ b ∈ word, isDelim b = false
  plain : ∀ b ∈ word, b ≠ 0

/- A door whose texts can stand in the file; a partner may not look like the dash for none. -/
structure Writable (unsignedChar : Bool) (door : DoorLine) : Prop where
  doorName : Solid door.doorName
  starts : isDoor unsignedChar door.doorName = true
  serialA : Solid door.readerA.serialDev
  serialB : Solid door.readerB.serialDev
  partner : ∀ partner ∈ door.airLockPartnerString, Solid partner ∧ partner.headD 0 ≠ 0x2d

def readerWords (reader : ReaderLine) : List Bytes :=
  [Numeral.decimal reader.accessMode.toNat,reader.serialDev,Numeral.decimal reader.useRs485.toNat,Numeral.decimal reader.readerAddres.toNat]

def doorWords (door : DoorLine) : List Bytes :=
  door.doorName :: (readerWords door.readerA ++ readerWords door.readerB ++
    [Numeral.decimal door.maskOffset.toNat,Numeral.decimal door.maskFull.toNat,door.airLockPartnerString.getD [0x2d]])

/- Each word with the blanks behind it. -/
def spaced (words gaps : List Bytes) : Bytes := (List.zipWith (· ++ ·) words gaps).flatten

structure Gap (gap : Bytes) : Prop where
  some : gap ≠ []
  blank : ∀ b ∈ gap, isDelim b = true

/- A line of the file: a remark, or a door with whatever stands behind its words. -/
inductive Spells (unsignedChar : Bool) : Bytes → Option DoorLine → Prop where
  | remark {line : Bytes} (skipped : isDoor unsignedChar line = false) : Spells unsignedChar line none
  | door {door : DoorLine} {gaps : List Bytes} {rest : Bytes} (writable : Writable unsignedChar door) (count : gaps.length = 12)
      (each : ∀ gap ∈ gaps, Gap gap) : Spells unsignedChar (spaced (doorWords door) gaps ++ rest) (some door)

structure Entry (unsignedChar : Bool) where
  line : Bytes
  door : Option DoorLine
  ends : ∃ body, line = body ++ [0x0a] ∧ 0x0a ∉ body
  fits : line.length < lineSize
  spells : Spells unsignedChar line door

section
variable {unsignedChar : Bool} {initReader : InitReader}

theorem wordsSpaced {list gaps : List Bytes} (count : list.length = gaps.length) (solid : ∀ word ∈ list, Solid word)
    (blank : ∀ gap ∈ gaps, Gap gap) (rest : Bytes) :
    ∃ more, Separated.words isDelim (spaced list gaps ++ rest) = list ++ more := by
  induction list generalizing gaps with
  | nil => exact ⟨_,rfl⟩
  | cons word list ih =>
    cases gaps with
    | nil => cases count
    | cons gap gaps =>
      have here := solid word List.mem_cons_self
      have behind := blank gap List.mem_cons_self
      obtain ⟨d,gap,rfl⟩ := List.exists_cons_of_ne_nil behind.some
      obtain ⟨more,later⟩ := ih (Nat.succ.inj count) (fun w h => solid w (List.mem_cons_of_mem _ h)) (fun g h => blank g (List.mem_cons_of_mem _ h))
      refine ⟨more,?_⟩
      have shape : spaced (word :: list) ((d :: gap) :: gaps) ++ rest = word ++ d :: (gap ++ (spaced list gaps ++ rest)) := by
        simp only [spaced,List.zipWith_cons_cons,List.flatten_cons,List.append_assoc,List.cons_append]
      rw [shape,wordsWord here.some here.solid (behind.blank d List.mem_cons_self),
        wordsGap (fun b h => behind.blank b (List.mem_cons_of_mem d h)),later,List.cons_append]

theorem digitSolid : ∀ b : Byte, Numeral.Digit b → isDelim b = false ∧ b ≠ 0 := by decide

theorem decimalSolid (n : Nat) : Solid (Numeral.decimal n) where
  some := Numeral.decimalNonempty n
  solid b member := (digitSolid b (Numeral.decimalDigits n b member)).1
  plain b member := (digitSolid b (Numeral.decimalDigits n b member)).2

theorem partnerWord {door : DoorLine} (writable : Writable unsignedChar door) :
    Solid (door.airLockPartnerString.getD [0x2d]) ∧ partnerString (door.airLockPartnerString.getD [0x2d]) = door.airLockPartnerString := by
  have partner := writable.partner
  cases string : door.airLockPartnerString with
  | none => exact ⟨⟨by simp,by decide,by decide⟩,rfl⟩
  | some word =>
    obtain ⟨solid,first⟩ := partner word string
    obtain ⟨b,rest,rfl⟩ := List.exists_cons_of_ne_nil solid.some
    exact ⟨solid,by rw [Option.getD_some,partnerString,if_pos ⟨solid.plain b List.mem_cons_self,first⟩]⟩

theorem doorWordsSolid {door : DoorLine} (writable : Writable unsignedChar door) : ∀ word ∈ doorWords door, Solid word := by
  intro word member
  simp only [doorWords,readerWords,List.mem_cons,List.mem_append,List.not_mem_nil,or_false] at member
  rcases member with rfl | ((rfl | rfl | rfl | rfl) | (rfl | rfl | rfl | rfl)) | (rfl | rfl | rfl)
  all_goals first
    | exact writable.doorName
    | exact writable.serialA
    | exact writable.serialB
    | exact (partnerWord writable).1
    | exact decimalSolid _

theorem doorOfWords {door : DoorLine} (writable : Writable unsignedChar door) (more : List Bytes) : doorOf (doorWords door ++ more) = some door := by
  have partner := (partnerWord writable).2
  simp only [doorWords,readerWords,List.cons_append,List.nil_append,doorOf,toByteDecimal,toIntDecimal,partner]

theorem spacedPlain {list gaps : List Bytes} (solid : ∀ word ∈ list, Solid word) (blank : ∀ gap ∈ gaps, Gap gap) :
    ∀ b ∈ spaced list gaps, (b != 0) = true := by
  induction list generalizing gaps with
  | nil => exact fun b member => absurd member List.not_mem_nil
  | cons word list ih =>
    cases gaps with
    | nil => exact fun b member => absurd member List.not_mem_nil
    | cons gap gaps =>
      intro b member
      rw [spaced,List.zipWith_cons_cons,List.flatten_cons,List.mem_append,List.mem_append] at member
      rw [bne_iff_ne]
      rcases member with (inside | inside) | later
      · exact (solid word List.mem_cons_self).plain b inside
      · rintro rfl
        exact absurd ((blank gap List.mem_cons_self).blank 0 inside) (by decide)
      · exact bne_iff_ne.mp (ih (fun w h => solid w (List.mem_cons_of_mem _ h)) (fun g h => blank g (List.mem_cons_of_mem _ h)) b later)

theorem parseSpelled {door : DoorLine} {gaps : List Bytes} (writable : Writable unsignedChar door) (count : gaps.length = 12)
    (each : ∀ gap ∈ gaps, Gap gap) (rest : Bytes) : parseDoor (spaced (doorWords door) gaps ++ rest) = some door := by
  have solid := doorWordsSolid writable
  have twelve : (doorWords door).length = gaps.length := count.symm
  obtain ⟨more,found⟩ := wordsSpaced twelve solid each (rest.takeWhile (· != 0))
  rw [parseDoorWords,List.takeWhile_append_of_pos (spacedPlain solid each),found,doorOfWords writable]

theorem spelledStarts {door : DoorLine} {gaps : List Bytes} (writable : Writable unsignedChar door) (count : gaps.length = 12)
    (rest : Bytes) : isDoor unsignedChar (spaced (doorWords door) gaps ++ rest) = true := by
  obtain ⟨gap,gaps,rfl⟩ := List.exists_cons_of_ne_nil (show gaps ≠ [] by rintro rfl; cases count)
  obtain ⟨b,name,spelled⟩ := List.exists_cons_of_ne_nil writable.doorName.some
  have starts := writable.starts
  rw [spelled] at starts
  rw [doorWords,spelled]
  exact starts

theorem fgetsEntry (entry : Entry unsignedChar) (rest : Bytes) : fgets (entry.line ++ rest) = (entry.line,rest) := by
  obtain ⟨body,shape,plain⟩ := entry.ends
  have fits := entry.fits
  rw [shape,List.length_append,List.length_singleton] at fits
  have cut : (entry.line ++ rest).take (lineSize - 1) = body ++ 0x0a :: rest.take (lineSize - 1 - (body.length + 1)) := by
    rw [shape,List.append_assoc,List.singleton_append,List.take_append,List.take_of_length_le (by omega)]
    have left : lineSize - 1 - body.length = lineSize - 1 - (body.length + 1) + 1 := by omega
    rw [left,List.take_succ_cons]
  have place : (body ++ 0x0a :: rest.take (lineSize - 1 - (body.length + 1))).findIdx? (· == 0x0a) = some body.length := by
    rw [List.findIdx?_append,List.findIdx?_eq_none_iff.mpr,List.findIdx?_cons]
    · simp
    · intro b member
      rw [beq_eq_false_iff_ne]
      rintro rfl
      exact plain member
  have piece : (body ++ 0x0a :: rest.take (lineSize - 1 - (body.length + 1))).take (body.length + 1) = entry.line := by
    rw [List.take_append,List.take_of_length_le (by omega),Nat.add_sub_cancel_left,shape]
    rfl
  simp only [fgets,cut,place,piece,List.drop_left]

theorem fgetsEntries (entries : List (Entry unsignedChar)) : fgetsAll (entries.flatMap Entry.line) = entries.map Entry.line := by
  have enough : ∀ fuel, (entries.flatMap Entry.line).length ≤ fuel → fgetsFuel fuel (entries.flatMap Entry.line) = entries.map Entry.line := by
    induction entries with
    | nil => intro fuel _; cases fuel <;> rfl
    | cons entry entries ih =>
      intro fuel room
      obtain ⟨body,shape,_⟩ := entry.ends
      have some' : entry.line ≠ [] := by rw [shape]; simp
      rw [List.flatMap_cons] at room ⊢
      have positive := List.length_pos_iff.mpr some'
      rw [List.length_append] at room
      obtain ⟨fuel,rfl⟩ := Nat.exists_eq_succ_of_ne_zero (show fuel ≠ 0 by omega)
      rw [fgetsFuel,if_neg (by simp [some']),fgetsEntry,List.map_cons]
      exact congrArg (entry.line :: ·) (ih fuel (by omega))
  exact enough _ (Nat.le_refl _)

theorem entryRemark {entry : Entry unsignedChar} (kind : entry.door = none) : ¬ isDoor unsignedChar entry.line = true := by
  have spells := entry.spells
  rw [kind] at spells
  generalize entry.line = line at spells
  cases spells with
  | remark skipped => rw [skipped]; decide

theorem entryDoor {entry : Entry unsignedChar} {door : DoorLine} (kind : entry.door = some door) :
    isDoor unsignedChar entry.line = true ∧ parseDoor entry.line = some door := by
  have spells := entry.spells
  rw [kind] at spells
  generalize entry.line = line at spells
  cases spells with
  | door writable count each => exact ⟨spelledStarts writable count _,parseSpelled writable count each _⟩

/- The readers that the doors of a table ask for all open. -/
def Opens (initReader : InitReader) (first : Nat) (table : List DoorLine) : Prop :=
  ∀ place door, table[place]? = some door →
    readerReady initReader (first + place) .A door.readerA = true ∧ readerReady initReader (first + place) .B door.readerB = true

theorem entriesFill {entries : List (Entry unsignedChar)} {table : List DoorLine} (lineCount : Nat) {doorsCount : Nat}
    (opens : Opens initReader table.length (entries.filterMap Entry.door)) (room : doorsCount = table.length + (entries.filterMap Entry.door).length) :
    fill unsignedChar initReader doorsCount (entries.map Entry.line) lineCount table = .doors (table ++ entries.filterMap Entry.door) := by
  induction entries generalizing table lineCount with
  | nil => rw [List.map_nil,fill,List.filterMap_nil,List.append_nil]
  | cons entry entries ih =>
    rw [List.map_cons,fill]
    cases kind : entry.door with
    | none =>
      rw [List.filterMap_cons_none kind] at opens room ⊢
      rw [if_neg (entryRemark kind)]
      exact ih lineCount opens room
    | some door =>
      have starts := entryDoor kind
      rw [List.filterMap_cons_some kind] at opens room ⊢
      rw [List.length_cons] at room
      have ready := opens 0 door rfl
      rw [Nat.add_zero] at ready
      rw [if_pos starts.1,if_pos (by omega),starts.2]
      simp only [ready.1,ready.2,Bool.and_self,if_true]
      have later : Opens initReader (table ++ [door]).length (entries.filterMap Entry.door) := by
        intro place found atPlace
        have next := opens (place + 1) found atPlace
        have same : table.length + (place + 1) = (table ++ [door]).length + place := by
          rw [List.length_append,List.length_singleton]
          omega
        rwa [same] at next
      rw [ih (lineCount + 1) later (by rw [List.length_append,List.length_singleton]; omega),List.append_assoc,List.singleton_append]

theorem entriesCount (entries : List (Entry unsignedChar)) :
    ((entries.map Entry.line).filter (isDoor unsignedChar)).length = (entries.filterMap Entry.door).length := by
  induction entries with
  | nil => rfl
  | cons entry entries ih =>
    rw [List.map_cons]
    cases kind : entry.door with
    | none => rw [List.filter_cons_of_neg (entryRemark kind),List.filterMap_cons_none kind,ih]
    | some door =>
      rw [List.filter_cons_of_pos (entryDoor kind).1,List.filterMap_cons_some kind,List.length_cons,List.length_cons,ih]

/- A file of remarks and doors is read back as its doors, however its words are spaced. -/
theorem loadsTable (entries : List (Entry unsignedChar)) (some' : entries.filterMap Entry.door ≠ [])
    (opens : Opens initReader 0 (entries.filterMap Entry.door)) :
    load unsignedChar initReader (entries.flatMap Entry.line) = .doors (entries.filterMap Entry.door) := by
  have count := entriesCount entries
  have positive := List.length_pos_iff.mpr some'
  rw [load,doorLines,fgetsEntries,count]
  simp only [show ¬ (entries.filterMap Entry.door).length < 1 by omega,if_false]
  exact entriesFill 1 opens (Nat.zero_add _).symm

end

/- The door of the file that comes with the program, under a remark. -/
def sampleDoor : DoorLine :=
  ⟨[0x64,0x6f,0x6f,0x72,0x41],⟨modeCardOrPin,[0x2f,0x64,0x65,0x76,0x2f,0x74,0x74,0x79,0x53,0x32],1,0x7f⟩,⟨0,[0x2d],0,0⟩,0,1,none⟩

def sampleGaps : List Bytes := List.replicate 11 [0x20] ++ [[0x0a]]

def sampleRemark : Entry false where
  line := [0x23,0x20,0x64,0x6f,0x6f,0x72,0x0a]
  door := none
  ends := ⟨[0x23,0x20,0x64,0x6f,0x6f,0x72],rfl,by decide⟩
  fits := by decide
  spells := .remark (by decide)

theorem sampleWritable : Writable false sampleDoor where
  doorName := ⟨by decide,by decide,by decide⟩
  starts := by decide
  serialA := ⟨by decide,by decide,by decide⟩
  serialB := ⟨by decide,by decide,by decide⟩
  partner := nofun

def sampleEntry : Entry false where
  line := spaced (doorWords sampleDoor) sampleGaps ++ []
  door := some sampleDoor
  ends := ⟨(spaced (doorWords sampleDoor) sampleGaps).dropLast,by decide,by decide⟩
  fits := by decide
  spells := .door sampleWritable rfl fun gap member => ⟨by revert gap; decide,by revert gap; decide⟩

theorem sampleLoads : load false (fun _ _ _ => true) ([sampleRemark,sampleEntry].flatMap Entry.line) = .doors [sampleDoor] :=
  loadsTable [sampleRemark,sampleEntry] (by decide) fun _ _ _ => ⟨Bool.or_true _,Bool.or_true _⟩

end AccessControl.ConfigTable
