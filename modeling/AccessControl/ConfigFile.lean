import AccessControl.RemoteControl
import AccessControl.Separated

/-! The configuration file as `main` reads it: once to count its doors and once to fill the
table that was made for that many. `char` has a sign on some machines and none on others. -/
namespace AccessControl.ConfigFile
open BitMask DoorTable DoorController RemoteControl Separated

def lineSize : Nat := 256

/- `fgets`: up to the end of the line, and no more than the buffer holds beside its NUL. -/
def fgets (file : Bytes) : Bytes × Bytes :=
  let line := file.take (lineSize - 1)
  let piece := match line.findIdx? (· == 0x0a) with
    | some place => line.take (place + 1)
    | none => line
  (piece,file.drop piece.length)

def fgetsFuel : Nat → Bytes → List Bytes
  | 0, _ => []
  | fuel + 1, file => if file = [] then [] else (fgets file).1 :: fgetsFuel fuel (fgets file).2

/- All that the calls of `fgets` return from the start of the file to its end. -/
def fgetsAll (file : Bytes) : List Bytes := fgetsFuel file.length file

def charValue (unsignedChar : Bool) (c : Byte) : Int := if unsignedChar then c.toNat else c.toInt

/- `line[0] >= '0'`; a line that was read has a first byte. -/
def isDoor (unsignedChar : Bool) (line : Bytes) : Bool := decide (0x30 ≤ charValue unsignedChar (line.headD 0))

structure ReaderLine where
  accessMode : Byte
  serialDev : Bytes
  useRs485 : Byte
  readerAddres : Byte
  deriving DecidableEq, Repr

structure DoorLine where
  doorName : Bytes
  readerA : ReaderLine
  readerB : ReaderLine
  maskOffset : Byte
  maskFull : Mask
  airLockPartnerString : Option Bytes
  deriving DecidableEq, Repr

def toByte (word : Bytes) : Byte := BitVec.ofInt 8 (strtoll word)

def partnerString (word : Bytes) : Option Bytes := if word.headD 0 ≠ 0 ∧ word.headD 0 ≠ 0x2d then some word else none

section
variable {m : Type → Type} [Monad m] (configParse : m Bytes)

def readReader : m ReaderLine := do
  let accessMode ← configParse
  let serialDev ← configParse
  let useRs485 ← configParse
  let readerAddres ← configParse
  return ⟨toByte accessMode,serialDev,toByte useRs485,toByte readerAddres⟩

/- The calls of `configParse` for one door, each of which may end the program. -/
def readDoor : m DoorLine := do
  let doorName ← configParse
  let readerA ← readReader configParse
  let readerB ← readReader configParse
  let maskOffset ← configParse
  let maskFull ← configParse
  let partner ← configParse
  return ⟨doorName,readerA,readerB,toByte maskOffset,toInt maskFull,partnerString partner⟩

end

/- The separators of `configParse` and its place in the line. -/
def configParse : StateT Bytes Option Bytes := fun b => match strtok b with
  | (none,_) => none
  | (some word,rest) => some (word,rest)

def parseDoor (line : Bytes) : Option DoorLine := (readDoor configParse (line.takeWhile (· != 0))).map Prod.fst

/- `init_reader` for a door of the file; it opens a port, which may fail. -/
abbrev InitReader := Nat → Side → ReaderLine → Bool

def readerReady (initReader : InitReader) (door : Nat) (side : Side) (line : ReaderLine) : Bool :=
  line.accessMode == 0 || initReader door side line

inductive Loaded where
  | doors (table : List DoorLine)
  | noDoors
  | parseError (line : Nat)
  | noReader
  -- a door written behind the end of the table
  | outside
  deriving DecidableEq, Repr

/- The doors of the file, as many as there are, and what is left of the loop of `main` that fills them in. -/
def fill (unsignedChar : Bool) (initReader : InitReader) (doorsCount : Nat) : List Bytes → Nat → List DoorLine → Loaded
  | [], _, table => .doors table
  | line :: rest, lineCount, table =>
    if isDoor unsignedChar line then
      if table.length < doorsCount then
        match parseDoor line with
        | none => .parseError lineCount
        | some door =>
          if readerReady initReader table.length .A door.readerA && readerReady initReader table.length .B door.readerB then
            fill unsignedChar initReader doorsCount rest (lineCount + 1) (table ++ [door])
          else .noReader
      else .outside
    else fill unsignedChar initReader doorsCount rest lineCount table

def doorLines (unsignedChar : Bool) (file : Bytes) : List Bytes := (fgetsAll file).filter (isDoor unsignedChar)

def load (unsignedChar : Bool) (initReader : InitReader) (file : Bytes) : Loaded :=
  let doorsCount := (doorLines unsignedChar file).length
  if doorsCount < 1 then .noDoors else fill unsignedChar initReader doorsCount (fgetsAll file) 1 []

/- The table before the partners are looked up, and with them. -/
def unpaired (table : List DoorLine) : Config table.length := fun i =>
  let door := table.get i
  ⟨door.doorName,
    fun side => match side with
      | .A => ⟨door.readerA.accessMode != 0,door.readerA.accessMode⟩
      | .B => ⟨door.readerB.accessMode != 0,door.readerB.accessMode⟩,
    door.maskOffset,door.maskFull,none⟩

def config (table : List DoorLine) : Config table.length := fun i =>
  {unpaired table i with airLockPartnerLocal := (table.get i).airLockPartnerString.bind (getDoorByName (unpaired table))}

theorem strtokNext (text : Bytes) : strtok text = next isDelim text := by
  rw [strtok,next]
  cases text.dropWhile isDelim <;> rfl

theorem configParseTake : configParse = Separated.take isDelim := by
  funext text
  rw [configParse,Separated.take,strtokNext]
  rcases next isDelim text with ⟨_ | _,_⟩ <;> rfl

theorem configParseFollows : Follows isDelim configParse pop := by
  rw [configParseTake]
  exact takeFollows

section

theorem readReaderFollows {x : StateT Bytes Option Bytes} {y : StateT (List Bytes) Option Bytes} (parse : Follows isDelim x y) :
    Follows isDelim (readReader x) (readReader y) :=
  bindFollows parse fun _ => bindFollows parse fun _ => bindFollows parse fun _ => bindFollows parse fun _ => pureFollows _

theorem readDoorFollows {x : StateT Bytes Option Bytes} {y : StateT (List Bytes) Option Bytes} (parse : Follows isDelim x y) :
    Follows isDelim (readDoor x) (readDoor y) :=
  bindFollows parse fun _ => bindFollows (readReaderFollows parse) fun _ => bindFollows (readReaderFollows parse) fun _ =>
    bindFollows parse fun _ => bindFollows parse fun _ => bindFollows parse fun _ => pureFollows _

end

/- What a list of words makes of a door: twelve of them in this order, and no matter what follows. -/
def doorOf : List Bytes → Option DoorLine
  | name :: modeA :: serialA :: rsA :: addrA :: modeB :: serialB :: rsB :: addrB :: offset :: full :: partner :: _ =>
    some ⟨name,⟨toByte modeA,serialA,toByte rsA,toByte addrA⟩,⟨toByte modeB,serialB,toByte rsB,toByte addrB⟩,
      toByte offset,toInt full,partnerString partner⟩
  | _ => none

theorem popDoor (words : List Bytes) : (readDoor pop words).map Prod.fst = doorOf words := by
  rcases words with _ | ⟨_,_ | ⟨_,_ | ⟨_,_ | ⟨_,_ | ⟨_,_ | ⟨_,_ | ⟨_,_ | ⟨_,_ | ⟨_,_ | ⟨_,_ | ⟨_,_ | ⟨_,_⟩⟩⟩⟩⟩⟩⟩⟩⟩⟩⟩⟩ <;> rfl

theorem parseDoorWords (line : Bytes) : parseDoor line = doorOf (Separated.words isDelim (line.takeWhile (· != 0))) := by
  have follows := readDoorFollows configParseFollows (line.takeWhile (· != 0))
  rw [parseDoor,← popDoor,← follows,Option.map_map]
  rfl

end AccessControl.ConfigFile
