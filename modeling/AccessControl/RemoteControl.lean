import AccessControl.DoorController

/-! Remote control over UDP: the datagram's words, the commands and the table
'state' that survives a restart. A statement of SQLite either completes or leaves
the table alone; the outcome of each one is an input. -/
namespace AccessControl.RemoteControl
open BitMask DoorTable Gpio DoorController

def bufSize : Nat := 128

def isDelim (c : Byte) : Bool := c == 0x20 || c == 0x09 || c == 0x0a
def isSpace (c : Byte) : Bool := c == 0x20 || (0x09 ≤ c.toNat && c.toNat ≤ 0x0d)

/- One call of `strtok_r`: the token, if there is one left, and where it stopped. -/
def strtok (text : Bytes) : Option Bytes × Bytes :=
  match text.dropWhile isDelim with
  | [] => (none,[])
  | c :: rest => (some ((c :: rest).takeWhile (fun c => !isDelim c)),
      ((c :: rest).dropWhile (fun c => !isDelim c)).drop 1)

def digitValue (c : Byte) : Nat :=
  if 48 ≤ c.toNat ∧ c.toNat ≤ 57 then c.toNat - 48
  else if 97 ≤ c.toNat ∧ c.toNat ≤ 122 then c.toNat - 87
  else if 65 ≤ c.toNat ∧ c.toNat ≤ 90 then c.toNat - 55
  else 255

def readDigits (base : Nat) (text : Bytes) : Nat :=
  (text.takeWhile (fun c => digitValue c < base)).foldl (fun acc c => acc * base + digitValue c) 0

/- `strtoll` with base 0. -/
def strtoll (text : Bytes) : Int :=
  let text := text.dropWhile isSpace
  let negative := text.head? = some 0x2d
  let text := if negative ∨ text.head? = some 0x2b then text.drop 1 else text
  let magnitude : Nat :=
    match text with
    | 0x30 :: x :: d :: rest =>
      if (x = 0x78 ∨ x = 0x58) ∧ digitValue d < 16 then readDigits 16 (d :: rest) else readDigits 8 (x :: d :: rest)
    | 0x30 :: rest => readDigits 8 rest
    | _ => readDigits 10 text
  if negative then max (-2^63) (-magnitude) else min (2^63 - 1) magnitude

def decimal (z : Int) : Bytes := (if z < 0 then [0x2d] else []) ++ ascii (Nat.toDigits 10 z.natAbs)
def hex (k : Nat) : Bytes := ascii (Nat.toDigits 16 k)

def wGet : Bytes := ascii ['g','e','t']
def wSet : Bytes := ascii ['s','e','t']
def wUnset : Bytes := ascii ['u','n','s','e','t']
def wDo : Bytes := ascii ['d','o']
def wInfo : Bytes := ascii ['i','n','f','o']
def wDbinfo : Bytes := ascii ['d','b','i','n','f','o']
def wUnlock : Bytes := ascii ['u','n','l','o','c','k']
def wLock : Bytes := ascii ['l','o','c','k']
def wBlock : Bytes := ascii ['b','l','o','c','k']
def wUnblock : Bytes := ascii ['u','n','b','l','o','c','k']
def rOk : Bytes := ascii ['O','K','\n']
def rErr : Bytes := ascii ['E','R','R','\n']

inductive DbSetUnset where | dbSet | dbUnset
  deriving DecidableEq, Repr

/- Whether each SQLite statement of a command completes, in the order they run. -/
structure Sqlite where
  first : Bool
  second : Bool
  deriving DecidableEq, Repr

def StateRow.keyed (door mode : Bytes) (row : StateRow) : Bool := row.door == door && row.mode == mode

variable {n : Nat}

def dbSetUnset (door state : Bytes) (arg : Mask) (action : DbSetUnset) (done : Bool) (s : State n) :
    State n × Nat :=
  let others := s.stateTable.filter (fun row => !StateRow.keyed door state row)
  if done then
    match action with
    | .dbSet => ({s with stateTable := others ++ [⟨door,state,arg⟩]},0)
    | .dbUnset => ({s with stateTable := others},0)
  else (s,2)

def sendto (reply : Bytes) (s : State n) : State n := s.emit (.sendto reply)

def groupConcat : List Bytes → Option Bytes
  | [] => none
  | mode :: modes => some (modes.foldl (fun text m => text ++ ascii [','] ++ m) mode)

/- A formatted reply that does not fit its buffer falls through to ERR. -/
def replyText (text : Bytes) (s : State n) : State n := if text.length < bufSize then sendto text s else sendto rErr s

def getCommand (db : Sqlite) (i : Fin n) (door arg1 : Bytes) (s : State n) : State n :=
  if arg1 = wInfo then
    let text := ascii ['I','N','F','O',' '] ++ door ++ ascii [':',' ','0','x'] ++ hex (s.doors i).lastInput.toNat ++
      ascii [' '] ++ decimal (s.doors i).alarmTimers ++ ascii [' '] ++ decimal (s.doors i).doorLockTimer ++
      ascii ['\n']
    replyText text s
  else if arg1 = wDbinfo then
    let modes := (s.stateTable.filter (fun row => row.door == door)).map StateRow.mode
    let info := if db.first then groupConcat modes else none
    let text := ascii ['D','B',' ','I','N','F','O',' '] ++ door ++ ascii [':',' '] ++
      info.getD (ascii ['(','n','u','l','l',')']) ++ ascii ['\n']
    replyText text s
  else sendto rErr s

/- Both masks are cleared first, so that the output follows the command. -/
def setUnlock (cfg : Config n) (i : Fin n) (arg2 : Mask) (s : State n) : State n :=
  let s := s.update i (fun d => {d with admDisableMask := 0, airLockMask := 0})
  let s := (unlockDoor cfg i arg2 s).1
  s.update i (fun d => {d with admDisableMask := arg2})

def setLock (cfg : Config n) (i : Fin n) (arg2 : Mask) (s : State n) : State n :=
  let s := s.update i (fun d => {d with admDisableMask := 0, airLockMask := 0})
  let s := (lockDoor cfg i arg2 s).1
  s.update i (fun d => {d with admDisableMask := arg2})

def setRow (door clear mode : Bytes) (arg2 : Mask) (db : Sqlite) (s : State n) : State n × Nat :=
  let (s,first) := dbSetUnset door clear arg2 .dbUnset db.first s
  let (s,second) := dbSetUnset door mode arg2 .dbSet db.second s
  (s,first + second)

def setCommand (cfg : Config n) (db : Sqlite) (i : Fin n) (door arg1 : Bytes) (arg2 : Mask) (s : State n) :
    State n :=
  if arg1 = wUnlock then
    let (s,ret) := setRow door wLock wUnlock arg2 db (setUnlock cfg i arg2 s)
    let s := signalDoorStatus cfg i s
    if ret = 0 then sendto rOk s else sendto rErr s
  else if arg1 = wLock then
    let (s,ret) := setRow door wUnlock wLock arg2 db (setLock cfg i arg2 s)
    let s := signalDoorStatus cfg i s
    if ret = 0 then sendto rOk s else sendto rErr s
  else sendto rErr s

def unset (i : Fin n) (s : State n) : State n := s.update i (fun d => {d with admDisableMask := 0})

def unsetCommand (cfg : Config n) (db : Sqlite) (i : Fin n) (door arg1 : Bytes) (arg2 : Mask) (s : State n) :
    State n :=
  let (s,ret) := dbSetUnset door arg1 arg2 .dbUnset db.first s
  if ret = 0 then
    let s := if arg1 = wUnlock ∨ arg1 = wLock then signalDoorStatus cfg i (unset i s) else s
    sendto rOk s
  else sendto rErr s

def block (i : Fin n) (arg2 : Mask) (s : State n) : State n :=
  s.update i (fun d => {d with airLockMask := d.airLockMask ||| arg2})
def unblock (i : Fin n) (arg2 : Mask) (s : State n) : State n :=
  s.update i (fun d => {d with airLockMask := d.airLockMask &&& ~~~arg2})

def doCommand (cfg : Config n) (i : Fin n) (arg1 : Bytes) (arg2 : Mask) (s : State n) : State n :=
  if arg1 = wUnlock then
    let (s,ret) := unlockDoor cfg i arg2 s
    if ret ≠ 0 then signalDoorStatus cfg i (sendto rOk s) else sendto rErr s
  else if arg1 = wLock then
    let (s,ret) := lockDoor cfg i arg2 s
    if ret ≠ 0 then signalDoorStatus cfg i (sendto rOk s) else sendto rErr s
  else if arg1 = wBlock then sendto rOk (block i arg2 s)
  else if arg1 = wUnblock then sendto rOk (unblock i arg2 s)
  else sendto rErr s

/- A command whose door is known; `argX` is the fourth word as `strtoll` reads it. -/
def command (cfg : Config n) (db : Sqlite) (i : Fin n) (cmd door arg1 : Bytes) (argX : Option Mask)
    (s : State n) : State n :=
  let arg2 := argX.getD 0
  if cmd = wGet then getCommand db i door arg1 s
  else if cmd = wSet ∧ argX.isSome then setCommand cfg db i door arg1 arg2 s
  else if cmd = wUnset then unsetCommand cfg db i door arg1 arg2 s
  else if cmd = wDo ∧ argX.isSome then doCommand cfg i arg1 arg2 s
  else sendto rErr s

structure Words where
  cmd : Option Bytes
  door : Option Bytes
  arg1 : Option Bytes
  argX : Option Bytes
  deriving DecidableEq, Repr

/- What `recvfrom` leaves in the buffer, up to its first NUL, cut at the separators. -/
def words (datagram : Bytes) : Words :=
  let text := (datagram.take bufSize).takeWhile (fun c => c != 0)
  let (cmd,text) := strtok text
  let (door,text) := strtok text
  let (arg1,text) := strtok text
  let (argX,_) := strtok text
  ⟨cmd,door,arg1,argX⟩

def toInt (argX : Bytes) : Mask := BitVec.ofInt 32 (strtoll argX)

def checkNetwork (cfg : Config n) (datagram : Bytes) (db : Sqlite) (s : State n) : State n :=
  if datagram = [] then s
  else
    let w := words datagram
    let s := s.emit (.sendEvent (.remoteCtrl w.cmd w.arg1 w.argX) w.door)
    match w.cmd, w.door, w.arg1 with
    | some cmd, some door, some arg1 =>
      match getDoorByName cfg door with
      | some i => command cfg db i cmd door arg1 (w.argX.map toInt) s
      | none => sendto rErr s
    | _, _, _ => sendto rErr s

def freshReader : DoorReader := ⟨0,0,0,0,List.replicate maxCardLen 0,List.replicate maxCardLen 0,
  List.replicate (maxPinLen + 1) 0⟩

/- The doors as `main` leaves them before it opens the remote control. -/
def initial (table : List StateRow) : State n where
  doors _ := ⟨⟨diStateIsDiff ||| 0x0f,1,0,0⟩,fun _ => freshReader,0⟩
  log := []
  stateTable := table

/- One row of the replay in `init_remote_control`. -/
def restoreRow (cfg : Config n) (s : State n) (row : StateRow) : State n :=
  match getDoorByName cfg row.door with
  | none => s
  | some i =>
    let s :=
      if row.mode = wUnlock then (unlockDoor cfg i row.arg s).1.update i (fun d => {d with admDisableMask := row.arg})
      else if row.mode = wLock then (lockDoor cfg i row.arg s).1.update i (fun d => {d with admDisableMask := row.arg})
      else s
    signalDoorStatus cfg i s

/- `rows` is the table in the order SQLite returns it. -/
def initRemoteControl (cfg : Config n) (rows : List StateRow) (s : State n) : State n :=
  rows.foldl (restoreRow cfg) s

def start (cfg : Config n) (rows : List StateRow) : State n := initRemoteControl cfg rows (initial rows)

inductive Step (n : Nat) where
  | mainLoop (pass : Pass n)
  | checkNetwork (datagram : Bytes) (db : Sqlite)
  | processUserInfo (reader : ReaderId n) (callback : Callback)
  | checkInputs (reading : Reading) (inputVal : Fin n → Byte)

def step (cfg : Config n) (s : State n) : Step n → State n
  | .mainLoop pass => mainLoop cfg pass s
  | .checkNetwork datagram db => checkNetwork cfg datagram db s
  | .processUserInfo r cb => processUserInfo cfg r cb s
  | .checkInputs reading inputVal => checkInputs cfg reading inputVal s

/- A site of two doors A and B for worked runs: its datagrams and its quiet passes. -/
def site (full : Mask) (mode : Byte) (partner : Fin 2 → Option (Fin 2)) : Config 2 := fun i =>
  ⟨ascii [if i = 0 then 'A' else 'B'],fun side => ⟨decide (side = .A),mode⟩,if i = 0 then 0 else 2,full,partner i⟩

def doorA : Fin 2 := 0

def quietPass (inputs : Byte) : Pass 2 where
  readerData _ := []
  reading := some (fun k => inputs.getLsbD (k.val % inputsTypes))
  inputVal _ := 0

def setUnlockA : Bytes := ascii ['s','e','t',' ','A',' ','u','n','l','o','c','k',' ','1']
def unsetUnlockA : Bytes := ascii ['u','n','s','e','t',' ','A',' ','u','n','l','o','c','k']
def unsetLockA : Bytes := ascii ['u','n','s','e','t',' ','A',' ','l','o','c','k']
def doLockA : Bytes := ascii ['d','o',' ','A',' ','l','o','c','k',' ','3']
def doUnlockB : Bytes := ascii ['d','o',' ','B',' ','u','n','l','o','c','k',' ','1']

/- The same site with B as the partner of A. -/
def airlock : Config 2 := site 1 modeCard (fun i => if i = 0 then some 1 else none)

end AccessControl.RemoteControl
