import AccessControl.ConfigTable
import AccessControl.AdminHold
import AccessControl.InputTurns
import AccessControl.OpenTime

/-! The program from its arguments to its loop: what the options ask for, what can end it before
the first pass, and what holds of every pass where nobody can send it commands. -/
namespace AccessControl.Startup
open BitMask DoorTable Gpio DoorController RemoteControl ConfigFile Run LockSteps LockActs Relock

/- What `getopt_long` returns: an option with its argument, or anything else. -/
inductive Opt where
  | d (optarg : Bytes)
  | D (optarg : Bytes)
  | c (optarg : Bytes)
  | n (optarg : Bytes)
  | m (optarg : Bytes)
  | s (optarg : Bytes)
  | a (optarg : Bytes)
  | r
  | p (optarg : Bytes)
  | e (optarg : Bytes)
  | l (optarg : Bytes)
  | L (optarg : Bytes)
  | other
  deriving DecidableEq, Repr

structure Settings where
  databasePath : Option Bytes
  configFile : Option Bytes
  doorName : Option Bytes
  accessMode : Byte
  serialDev : Option Bytes
  readerAddres : Byte
  useRs485 : Bool
  port : Int
  stateDbPath : Option Bytes
  eventHost : Option Bytes
  logHost : Option Bytes
  logPort : Option Bytes
  deriving DecidableEq, Repr

/- `defaultAddress` is the driver's. -/
def unset (defaultAddress : Byte) : Settings := ⟨none,none,none,0,none,defaultAddress,false,0,none,none,none,none⟩

def takeOption (settings : Settings) : Opt → Settings
  | .d optarg => {settings with databasePath := some optarg}
  | .D optarg => {settings with stateDbPath := some optarg}
  | .c optarg => {settings with configFile := some optarg}
  | .n optarg => {settings with doorName := some optarg}
  | .m optarg => {settings with accessMode := toByte optarg}
  | .s optarg => {settings with serialDev := some optarg}
  | .a optarg => {settings with readerAddres := toByte optarg}
  | .r => {settings with useRs485 := true}
  | .p optarg => {settings with port := (toInt optarg).toInt}
  | .e optarg => {settings with eventHost := some optarg}
  | .l optarg => {settings with logHost := some optarg}
  | .L optarg => {settings with logPort := some optarg}
  | .other => settings

def argParse (defaultAddress : Byte) (options : List Opt) : Settings := options.foldl takeOption (unset defaultAddress)

/- What the calls to the system find. -/
structure World where
  unsignedChar : Bool
  defaultAddress : Byte
  fopen : Bytes → Option Bytes
  initReader : InitReader
  sqliteOpen : Bytes → Bool
  openNetwork : Int → Bool
  createTable : Bytes → Bool
  stateRows : Bytes → List StateRow

/- A controller at its loop; with the remote control, the rows that it restored. -/
structure Serving where
  doorsCount : Nat
  doors : Config doorsCount
  rctrl : Option (List StateRow)

inductive Outcome where
  | exit (code : Nat)
  -- a write behind the door table
  | outside
  | serving (program : Serving)

def validMode (mode : Byte) : Bool :=
  mode == modeCard || mode == modePin || mode == modeCardOrPin || mode == modeCardAndPin || mode == modeCardAndPinAlways || mode == modeTwoCards

/- The doors, or the code of an exit before the database is opened. -/
inductive Doors where
  | exit (code : Nat)
  | outside
  | table (doorsCount : Nat) (doors : Config doorsCount)

def fileDoors (world : World) (configFile : Bytes) : Doors :=
  match world.fopen configFile with
  | none => .exit 1
  | some file =>
    match load world.unsignedChar world.initReader file with
    | .doors table => .table table.length (config table)
    | .noDoors => .exit 1
    | .parseError _ => .exit 1
    | .noReader => .exit 2
    | .outside => .outside

/- The door that is filled in here is never counted: without a configuration file `doorsCount`
keeps its zero, and none of the loops over the doors reaches it. -/
def argDoors (world : World) (settings : Settings) (serialDev : Bytes) : Doors :=
  if validMode settings.accessMode then
    let line : ReaderLine := ⟨settings.accessMode,serialDev,if settings.useRs485 then 1 else 0,settings.readerAddres⟩
    if world.initReader 0 .A line then .table 0 Fin.elim0 else .exit 2
  else .exit 1

/- `none` for a negative result. -/
def initRemote (world : World) (port : Int) (stateDbPath : Bytes) : Option (List StateRow) :=
  if world.openNetwork port && world.sqliteOpen stateDbPath && world.createTable stateDbPath then some (world.stateRows stateDbPath) else none

def Attended (settings : Settings) : Prop := 0 < settings.port ∧ settings.port ≤ 65535 ∧ settings.stateDbPath.isSome = true
instance (settings) : Decidable (Attended settings) := by unfold Attended; infer_instance

def serve (world : World) (settings : Settings) (databasePath : Bytes) : Doors → Outcome
  | .exit code => .exit code
  | .outside => .outside
  | .table doorsCount doors =>
    if world.sqliteOpen databasePath then
      match settings.stateDbPath with
      | some stateDbPath =>
        if 0 < settings.port ∧ settings.port ≤ 65535 then
          match initRemote world settings.port stateDbPath with
          | some rows => .serving ⟨doorsCount,doors,some rows⟩
          | none => .exit 1
        else .serving ⟨doorsCount,doors,none⟩
      | none => .serving ⟨doorsCount,doors,none⟩
    else .exit 3

/- `main` up to its loop. -/
def main (world : World) (options : List Opt) : Outcome :=
  let settings := argParse world.defaultAddress options
  match settings.databasePath with
  | none => .exit 1
  | some databasePath =>
    match settings.configFile with
    | some configFile => serve world settings databasePath (fileDoors world configFile)
    | none =>
      match settings.doorName, settings.serialDev with
      | some _, some serialDev => serve world settings databasePath (argDoors world settings serialDev)
      | _, _ => .exit 1

/- What one turn of the loop meets. -/
structure Round (n : Nat) where
  pass : Pass n
  datagram : Bytes
  db : Sqlite

def turn (program : Serving) (s : State program.doorsCount) (round : Round program.doorsCount) : State program.doorsCount :=
  let s := mainLoop program.doors round.pass s
  if program.rctrl.isSome then checkNetwork program.doors round.datagram round.db s else s

def begin (program : Serving) : State program.doorsCount :=
  match program.rctrl with
  | some rows => start program.doors rows
  | none => initial []

def loop (program : Serving) (rounds : List (Round program.doorsCount)) : State program.doorsCount :=
  rounds.foldl (turn program) (begin program)

section
variable {n : Nat} (cfg : Config n) {d : Fin n} {k : Nat}

def passes (passes : List (Pass n)) : State n := passes.foldl (fun s pass => mainLoop cfg pass s) (initial [])

theorem tickAdm (i : Fin n) (s : State n) (j : Fin n) : ((lockTimer cfg i s).doors j).admDisableMask = (s.doors j).admDisableMask := by
  have counted := AdminHold.tickedAdm i s j
  rcases lockTimerCases cfg i s with ⟨_,same⟩ | ⟨_,_,same⟩ | ⟨_,_,same⟩ <;> rw [same]
  · exact counted
  · exact (lockAdm cfg i _ (ticked i s) j).trans counted

/- A pass leaves the administrator's masks alone. -/
theorem passHolds (pass : Pass n) (s : State n) (i : Fin n) :
    ((mainLoop cfg pass s).doors i).admDisableMask = (s.doors i).admDisableMask := by
  have closes : Closes (fun s t : State n => (t.doors i).admDisableMask = (s.doors i).admDisableMask) :=
    ⟨fun _ => rfl,fun first second => second.trans first,fun h => congrArg LockState.admDisableMask (h.lock i)⟩
  have turns := doorTurnsWithin cfg closes (fun j s => tickAdm cfg j s i) (fun j mask s => unlockAdm cfg j mask s i) pass s
  have inputs := checkInputsWithin cfg closes (fun j s => unlockAdm cfg j 1 s i) (fun j input s => by rw [senseDoors])
    (fun j input s => congrArg LockState.admDisableMask ((hushedAlarm cfg j input s).lock i)) pass.reading pass.inputVal (doorTurns cfg pass s)
  exact inputs.trans turns

theorem passesHold (list : List (Pass n)) (i : Fin n) : ((passes cfg list).doors i).admDisableMask = 0 :=
  foldlInvariant (fun s : State n => (s.doors i).admDisableMask = 0) (fun s pass _ zero => (passHolds cfg pass s i).trans zero) rfl

/- An output that was driven once stays driven. -/
theorem drivenLater {a b : List (Effect n)} (grown : Grows (fun _ => True) a b) (once : driven a k ≠ none) : driven b k ≠ none := by
  obtain ⟨added,rfl,all⟩ := grown
  clear all
  induction added with
  | nil => exact once
  | cons e added ih =>
    cases e with
    | setDoorState operation mask =>
      rw [List.cons_append,driven]
      split
      · exact Option.some_ne_none _
      · exact ih
    | _ => exact ih

/- The countdown of every door stands at one when the first pass begins. -/
theorem firstTurns (pass : Pass n) (inside : (outputs cfg d).getLsbD k = true) :
    driven (doorTurns cfg pass (initial [])).log k ≠ none := by
  refine OpenTime.doorTurnsApart cfg d (fun s => (s.doors d).doorLockTimer = 1 ∧ (s.doors d).admDisableMask = 0)
    (fun s => driven s.log k ≠ none) ?_ ?_ ?_ pass ⟨rfl,rfl⟩
  · rintro s ⟨one,free⟩
    have ticks : lockTimer cfg d s = (lockDoor cfg d (cfg d).maskFull (ticked d s)).1 := by
      rcases lockTimerCases cfg d s with ⟨zero,_⟩ | ⟨_,more,_⟩ | ⟨_,_,same⟩
      · omega
      · omega
      · exact same
    have kept : ((ticked d s).doors d).admDisableMask = 0 := by
      rw [← free]
      simp [ticked]
    obtain ⟨low,high,full⟩ := (outputsBit ..).mp inside
    have bit : (lockMask cfg d (cfg d).maskFull ((ticked d s).doors d)).getLsbD k = true := by
      rw [lockMaskBit,kept]
      exact ⟨low,high,full,full,by simp⟩
    rw [ticks,lockDriven,if_pos bit]
    exact Option.some_ne_none _
  · rintro a s t (rfl | ⟨mask,rfl⟩) taken once
    · rwa [taken.driven]
    · cases taken
      exact drivenLater (openGrows cfg d mask s) once
  · rintro i ne a s t ((rfl | ⟨mask,rfl⟩) | rfl) taken
    · have lock := taken.lock d
      refine ⟨fun fresh => ⟨?_,?_⟩,fun once => by rwa [taken.driven]⟩
      · exact (congrArg LockState.doorLockTimer lock).trans fresh.1
      · exact (congrArg LockState.admDisableMask lock).trans fresh.2
    · cases taken
      refine ⟨fun fresh => ⟨?_,(unlockAdm cfg i mask s d).trans fresh.2⟩,drivenLater (openGrows cfg i mask s)⟩
      rw [unlockTimer,if_neg (Ne.symm ne),ite_self,fresh.1]
    · cases taken
      exact ⟨fun fresh => ⟨(OpenTime.tickOther cfg ne s).2.trans fresh.1,(tickAdm cfg i s d).trans fresh.2⟩,
        drivenLater (loggedTick cfg i s)⟩

/- The first pass drives every output of a door, and none is forgotten later. -/
theorem passesDriven (pass : Pass n) (later : List (Pass n)) (inside : (outputs cfg d).getLsbD k = true) :
    driven (passes cfg (pass :: later)).log k ≠ none := by
  have inputs : Grows (fun _ => True) (doorTurns cfg pass (initial [])).log (mainLoop cfg pass (initial [])).log :=
    (InputTurns.stepLogPart cfg (i := d) (.checkInputs pass.reading pass.inputVal) (doorTurns cfg pass (initial []))).1
  have first : driven (mainLoop cfg pass (initial [])).log k ≠ none := drivenLater inputs (firstTurns cfg pass inside)
  have each : ∀ s, ∀ pass ∈ later, driven s.log k ≠ none → driven (mainLoop cfg pass s).log k ≠ none := fun s pass _ once =>
    drivenLater (InputTurns.stepLogPart cfg (i := d) (.mainLoop pass) s).1 once
  exact foldlInvariant (fun s : State n => driven s.log k ≠ none) each first

theorem passesLock (list : List (Pass n)) (apart : ∀ i, i ≠ d → outputs cfg i &&& outputs cfg d = 0) (inside : (outputs cfg d).getLsbD k = true)
    (unlocked : driven (passes cfg list).log k = some .doUnlock) : Running d (passes cfg list) := by
  have run : SystemRun cfg (RelockGuard cfg d) (start cfg []) (passes cfg list) :=
    foldlRuns (fun s pass _ => runOne (a := .mainLoop pass) trivial rfl) _
  refine ((runSecure cfg apart run).2 k inside unlocked).resolve_left fun held => ?_
  rw [passesHold,adminBit] at held
  simp at held

end

theorem loopUnattended {program : Serving} (alone : program.rctrl = none) (rounds : List (Round program.doorsCount)) :
    loop program rounds = passes program.doors (rounds.map Round.pass) := by
  have each : turn program = fun s round => mainLoop program.doors round.pass s := by
    funext s round
    rw [turn,alone]
    rfl
  rw [loop,passes,List.foldl_map,each,begin,alone]

/- The program ends with the code of what is wrong, or it serves: doors where a configuration file
names them, and none where the options describe the only one. -/
def Started (world : World) (settings : Settings) : Outcome → Prop
  | .exit code => code = 1 ∨ code = 2 ∨ code = 3
  | .outside => False
  | .serving program => (0 < program.doorsCount ↔ settings.configFile.isSome = true) ∧
      (∃ path, settings.databasePath = some path ∧ world.sqliteOpen path = true) ∧ (program.rctrl.isSome = true ↔ Attended settings)

def Tabled (settings : Settings) : Doors → Prop
  | .exit code => code = 1 ∨ code = 2
  | .outside => False
  | .table doorsCount _ => 0 < doorsCount ↔ settings.configFile.isSome = true

theorem fileTabled (world : World) {settings : Settings} {configFile : Bytes} (named : settings.configFile = some configFile) :
    Tabled settings (fileDoors world configFile) := by
  rw [fileDoors]
  cases world.fopen configFile with
  | none => exact .inl rfl
  | some file =>
    have accounts := ConfigTable.loadFills world.unsignedChar world.initReader file
    dsimp only
    generalize load world.unsignedChar world.initReader file = loaded at accounts
    cases loaded with
    | doors table =>
      have some' := List.length_pos_iff.mpr accounts.1
      rw [accounts.2.1] at some'
      exact iff_of_true some' (by rw [named]; rfl)
    | noDoors => exact .inl rfl
    | parseError line => exact .inl rfl
    | noReader => exact .inr rfl
    | outside => exact accounts

theorem argTabled (world : World) {settings : Settings} (serialDev : Bytes) (unnamed : settings.configFile = none) :
    Tabled settings (argDoors world settings serialDev) := by
  rw [argDoors]
  by_cases valid : validMode settings.accessMode = true
  · rw [if_pos valid]
    dsimp only
    generalize world.initReader 0 .A _ = opened
    cases opened
    · exact .inr rfl
    · exact iff_of_false (Nat.lt_irrefl 0) (by rw [unnamed]; exact nofun)
  · rw [if_neg valid]
    exact .inl rfl

theorem serveStarted (world : World) {settings : Settings} {path : Bytes} (named : settings.databasePath = some path) {doors : Doors}
    (tabled : Tabled settings doors) : Started world settings (serve world settings path doors) := by
  cases doors with
  | exit code => exact tabled.imp_right .inl
  | outside => exact tabled
  | table doorsCount doors =>
    have alone : ∀ opened : world.sqliteOpen path = true, ¬ Attended settings →
        Started world settings (.serving ⟨doorsCount,doors,none⟩) := fun opened unattended =>
      ⟨tabled,⟨path,named,opened⟩,⟨nofun,fun attended => absurd attended unattended⟩⟩
    rw [serve]
    split
    · rename_i opened
      cases state : settings.stateDbPath with
      | none => exact alone opened fun attended => absurd attended.2.2 (by rw [state]; exact nofun)
      | some stateDbPath =>
        dsimp only
        split
        · rename_i port
          cases initRemote world settings.port stateDbPath with
          | none => exact .inl rfl
          | some rows => exact ⟨tabled,⟨path,named,opened⟩,fun _ => ⟨port.1,port.2,by rw [state]; rfl⟩,fun _ => rfl⟩
        · rename_i port
          exact alone opened fun attended => port ⟨attended.1,attended.2.1⟩
    · exact .inr (.inr rfl)

theorem mainStarted (world : World) (options : List Opt) : Started world (argParse world.defaultAddress options) (main world options) := by
  rw [main]
  generalize argParse world.defaultAddress options = settings
  split
  · exact .inl rfl
  · rename_i path named
    split
    · rename_i configured
      exact serveStarted world named (fileTabled world configured)
    · rename_i unnamed
      split
      · exact serveStarted world named (argTabled world _ unnamed)
      · exact .inl rfl

/- Whatever the arguments are, the program ends with a code or serves a door table: with doors
exactly where it has a configuration file. It takes commands exactly with a port and a state database;
where it does not, every output of a door is driven from the first pass on, and none stays unlocked
without a countdown. -/
theorem startsLocked (world : World) (options : List Opt) :
    Started world (argParse world.defaultAddress options) (main world options) ∧
    ∀ program, main world options = .serving program → ¬ Attended (argParse world.defaultAddress options) →
      ∀ round later d, let s := loop program (round :: later)
        (s.doors d).admDisableMask = 0 ∧ ∀ k, (outputs program.doors d).getLsbD k = true → driven s.log k ≠ none ∧
          ((∀ i, i ≠ d → outputs program.doors i &&& outputs program.doors d = 0) → driven s.log k = some .doUnlock → Running d s) := by
  have started := mainStarted world options
  refine ⟨started,?_⟩
  intro program serving unattended round later d
  rw [serving] at started
  have alone : program.rctrl = none := by
    rw [← Option.not_isSome_iff_eq_none]
    exact fun attended => unattended (started.2.2.mp attended)
  rw [loopUnattended alone,List.map_cons]
  refine ⟨passesHold program.doors _ d,fun k inside => ⟨passesDriven program.doors _ _ inside,?_⟩⟩
  exact fun apart unlocked => passesLock program.doors _ apart inside unlocked

end AccessControl.Startup
