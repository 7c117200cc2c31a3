import Mathlib.Data.Fintype.Pi
import Mathlib.Data.List.FinRange
import Mathlib.Logic.Function.Basic
import AccessControl.BitMask

/-! The door table of the controller and everything it does to the outside. The
fields of `struct Door` that `main` fills from the configuration and nothing
writes afterwards are the `DoorConfig`; the rest is the `Door`. A pointer into
the table is its index, so a dangling partner cannot be configured. -/
namespace AccessControl.DoorTable
open BitMask

inductive Side where | A | B
  deriving DecidableEq, Repr

/- A `Reader` object is named by the door and side that `init_reader` made it for. -/
structure ReaderId (n : Nat) where
  door : Fin n
  side : Side
  deriving DecidableEq, Repr

structure ReaderConfig where
  present : Bool
  accessMode : Byte
  deriving DecidableEq, Repr

structure DoorConfig (n : Nat) where
  doorName : Bytes
  reader : Side → ReaderConfig
  maskOffset : Byte
  maskFull : Mask
  airLockPartnerLocal : Option (Fin n)

abbrev Config (n : Nat) := Fin n → DoorConfig n

structure DoorReader where
  twoFactorTimer : Int
  cardLen : Nat
  card2Len : Nat
  pinLen : Nat
  card : Bytes
  card2 : Bytes
  pin : Bytes
  deriving DecidableEq, Repr

/- The fields that decide what `unlock_door` and `lock_door` may drive. -/
structure LockState where
  lastInput : Byte
  doorLockTimer : Int
  admDisableMask : Mask
  airLockMask : Mask
  deriving DecidableEq, Repr

structure Door extends LockState where
  reader : Side → DoorReader
  alarmTimers : Int

inductive DoorOperations where | doUnlock | doLock
  deriving DecidableEq, Repr

inductive Signal where
  | ok | doorOpen | doorLock | err | errAuth | errUsage | errComm | pin | pinQuiet | blocked | unblocked
  deriving DecidableEq, Repr

inductive Event where
  | authOk (doorMask : Mask) (user card : Option Bytes)
  | authErr (user card : Option Bytes)
  | authErrExpire (user card : Option Bytes)
  | authErrPin (user card : Option Bytes)
  | manualOpen
  | doorUnlock (doorMask : Mask)
  | doorLock (doorMask : Mask)
  | doorIsOpen | doorIsClose | doorIsUnlock | doorIsLock
  | doorEmergencyActive | doorEmergencyInactive
  | doorOpenAlarm (mask : Byte)
  | remoteCtrl (type action arg : Option Bytes)
  deriving DecidableEq, Repr

/- The two questions `process_user_info` puts to the user database. -/
inductive Query where
  | getAccessMask2 (pin card : Bytes) (mode : Byte) (doorname : Bytes)
  | checkKeyAccess2 (card1 card2 : Bytes)
  deriving DecidableEq, Repr

structure Answer where
  mask : Mask
  events : List (Event × Option Bytes)

/- The open database as one call sees it: what it answers to each question. -/
abbrev Database := Query → Answer

inductive DataType where | dataIsPin | dataIsCard
  deriving DecidableEq, Repr

inductive DataMode where | dataOk | dataOutOfBuf | dataTimeout
  deriving DecidableEq, Repr

/- One call of `process_user_info` by a reader driver. -/
structure Callback where
  data : Bytes
  dataType : DataType
  dataMode : DataMode
  database : Database

inductive Effect (n : Nat) where
  | sendEvent (event : Event) (door : Option Bytes)
  | readerSignal (signal : Signal) (reader : ReaderId n)
  | clearReaderData (reader : ReaderId n)
  | setDoorState (operation : DoorOperations) (mask : Mask)
  | sendto (reply : Bytes)
  -- Calls inside the controller, with what they were given and what they returned.
  | unlockDoor (door : Fin n) (mask result : Mask) (doors : Fin n → Door)
  | processUserInfo (reader : ReaderId n) (callback : Callback)
  | access (reader : ReaderId n) (query : Query) (mask : Mask)
  | resetDoorAuth (reader : ReaderId n)
  | twoFactorTimer (reader : ReaderId n)

/- A row of the table 'state' of the remote control. -/
structure StateRow where
  door : Bytes
  mode : Bytes
  arg : Mask
  deriving DecidableEq, Repr

/- The log keeps the newest effect first. -/
structure State (n : Nat) where
  doors : Fin n → Door
  log : List (Effect n)
  stateTable : List StateRow

variable {n : Nat}

def State.emit (s : State n) (e : Effect n) : State n := {s with log := e :: s.log}
def State.update (s : State n) (i : Fin n) (f : Door → Door) : State n :=
  {s with doors := Function.update s.doors i (f (s.doors i))}

@[simp] theorem emitDoors (s : State n) (e) : (s.emit e).doors = s.doors := rfl
@[simp] theorem emitLog (s : State n) (e) : (s.emit e).log = e :: s.log := rfl
@[simp] theorem updateLog (s : State n) (i f) : (s.update i f).log = s.log := rfl
@[simp] theorem updateSelf (s : State n) (i f) : (s.update i f).doors i = f (s.doors i) := by
  simp [State.update]
@[simp] theorem updateOther (s : State n) {i j : Fin n} (f) (ne : j ≠ i) :
    (s.update i f).doors j = s.doors j := by simp [State.update,ne]

theorem updateDoor (s : State n) (i j f) :
    (s.update i f).doors j = if j = i then f (s.doors j) else s.doors j := by
  by_cases h : j = i
  · subst h; simp
  · simp [h]

def State.setReader (s : State n) (r : ReaderId n) (f : DoorReader → DoorReader) : State n :=
  s.update r.door (fun d => {d with reader := Function.update d.reader r.side (f (d.reader r.side))})
def State.doorReader (s : State n) (r : ReaderId n) : DoorReader := (s.doors r.door).reader r.side

@[simp] theorem setReaderLog (s : State n) (r f) : (s.setReader r f).log = s.log := rfl
@[simp] theorem setReaderLock (s : State n) (r f) (i : Fin n) :
    ((s.setReader r f).doors i).toLockState = (s.doors i).toLockState := by
  rw [State.setReader,updateDoor]
  split <;> rfl
@[simp] theorem setReaderSelf (s : State n) (r f) : (s.setReader r f).doorReader r = f (s.doorReader r) := by
  simp [State.setReader,State.doorReader]
@[simp] theorem emitReader (s : State n) (e r) : (s.emit e).doorReader r = s.doorReader r := rfl

theorem setReaderTwice (s : State n) (r : ReaderId n) (f g) :
    (s.setReader r f).setReader r g = s.setReader r (fun reader => g (f reader)) := by
  simp [State.setReader,State.update]

theorem setReaderOther (s : State n) {r q : ReaderId n} (f) (ne : q ≠ r) :
    (s.setReader r f).doorReader q = s.doorReader q := by
  rw [State.doorReader,State.setReader,updateDoor]
  split
  · rename_i same
    have sides : q.side ≠ r.side := by
      intro side
      obtain ⟨i,a⟩ := q
      obtain ⟨j,b⟩ := r
      exact ne (by simp_all)
    simp [sides,State.doorReader]
  · rfl

/- The last `set_door_state` on bit `k`: what the output is driven to. -/
def driven : List (Effect n) → Nat → Option DoorOperations
  | [], _ => none
  | .setDoorState operation mask :: older, k => if mask.getLsbD k then some operation else driven older k
  | _ :: older, k => driven older k

end AccessControl.DoorTable
