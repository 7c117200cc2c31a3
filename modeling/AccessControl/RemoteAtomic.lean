import AccessControl.LockActs

/-! What a datagram that is answered with ERR leaves behind. Only a command that sets a
door and then stores it in two statements can leave anything. -/
namespace AccessControl.RemoteAtomic
open BitMask DoorTable Gpio DoorController RemoteControl Run LockSteps LockActs

variable {n : Nat} (cfg : Config n) {s t u : State n}

/- The newest reply of the log. -/
def lastReply : List (Effect n) → Option Bytes
  | [] => none
  | .sendto reply :: _ => some reply
  | _ :: older => lastReply older

structure Unchanged (s t : State n) : Prop where
  admDisable : ∀ i, (t.doors i).admDisableMask = (s.doors i).admDisableMask
  airLock : ∀ i, (t.doors i).airLockMask = (s.doors i).airLockMask
  timer : ∀ i, (t.doors i).doorLockTimer = (s.doors i).doorLockTimer
  outputs : ∀ k, driven t.log k = driven s.log k
  table : t.stateTable = s.stateTable

theorem Unchanged.trans (first : Unchanged s t) (second : Unchanged t u) : Unchanged s u :=
  ⟨fun i => (second.admDisable i).trans (first.admDisable i),fun i => (second.airLock i).trans (first.airLock i),
    fun i => (second.timer i).trans (first.timer i),fun k => (second.outputs k).trans (first.outputs k),
    second.table.trans first.table⟩

theorem unchangedStill (h : Still s t) (table : t.stateTable = s.stateTable) : Unchanged s t :=
  ⟨fun i => congrArg LockState.admDisableMask (h.lock i),fun i => congrArg LockState.airLockMask (h.lock i),
    fun i => congrArg LockState.doorLockTimer (h.lock i),h.driven,table⟩

/- Either nothing is left behind or the answer is OK. -/
def Settled (s t : State n) : Prop := Unchanged s t ∨ lastReply t.log = some rOk

theorem unchangedSend (reply) (s : State n) : Unchanged s (sendto reply s) := unchangedStill (stillSendto reply s) rfl

theorem replySignal (i) (s : State n) : lastReply (signalDoorStatus cfg i s).log = lastReply s.log := by
  have signal : ∀ signal, lastReply (doorSignal cfg i signal s).log = lastReply s.log := by
    intro signal
    unfold doorSignal
    split <;> split <;> rfl
  unfold signalDoorStatus
  split <;> exact signal _

theorem getUnchanged (db i door arg1) (s : State n) : Unchanged s (getCommand db i door arg1 s) := by
  have replies : ∀ text, Unchanged s (replyText text s) := by
    intro text
    unfold replyText
    split <;> exact unchangedSend _ s
  unfold getCommand
  dsimp only
  split
  · exact replies _
  · split
    · exact replies _
    · exact unchangedSend rErr s

theorem unsetSettled (db i door arg1 arg2) (s : State n) : Settled s (unsetCommand cfg db i door arg1 arg2 s) := by
  unfold unsetCommand
  dsimp only
  split
  · exact .inr rfl
  · rename_i failed
    rw [dbDone] at failed
    refine .inl ?_
    unfold dbSetUnset
    rw [if_neg failed]
    exact unchangedSend rErr s

/- Neither operation leaves anything when it has nothing to drive. -/
theorem unlockRefused (i mask) (refused : (unlockDoor cfg i mask s).2 = 0) : Unchanged s (unlockDoor cfg i mask s).1 := by
  unfold unlockDoor at refused ⊢
  dsimp only at refused ⊢
  split at refused
  · rename_i driven
    exact absurd refused driven
  · rename_i none
    rw [if_neg none]
    exact ⟨fun _ => rfl,fun _ => rfl,fun _ => rfl,fun _ => rfl,rfl⟩

theorem lockRefused (i mask) (refused : (lockDoor cfg i mask s).2 = 0) : Unchanged s (lockDoor cfg i mask s).1 := by
  unfold lockDoor at refused ⊢
  dsimp only at refused ⊢
  split at refused
  · rename_i driven
    exact absurd refused driven
  · rename_i none
    rw [if_neg none]
    exact ⟨fun _ => rfl,fun _ => rfl,fun _ => rfl,fun _ => rfl,rfl⟩

theorem doSettled (i arg1 arg2) (s : State n) : Settled s (doCommand cfg i arg1 arg2 s) := by
  have answered : ∀ (u : State n) (ret : Mask), (ret = 0 → Unchanged s u) →
      Settled s (if ret ≠ 0 then signalDoorStatus cfg i (sendto rOk u) else sendto rErr u) := by
    intro u ret refused
    split
    · exact .inr (replySignal cfg i _)
    · rename_i none
      exact .inl ((refused (not_not.mp none)).trans (unchangedSend rErr u))
  unfold doCommand
  split
  · exact answered _ _ (unlockRefused cfg i arg2)
  · split
    · exact answered _ _ (lockRefused cfg i arg2)
    · split
      · exact .inr rfl
      · split
        · exact .inr rfl
        · exact .inl (unchangedSend rErr s)

/- A word that makes `set` change the door. -/
def Holds (arg1 : Bytes) : Prop := arg1 = wUnlock ∨ arg1 = wLock
instance (arg1) : Decidable (Holds arg1) := by unfold Holds; infer_instance

theorem rowDone (door clear mode arg2 db) (s : State n) :
    (setRow door clear mode arg2 db s).2 = 0 ↔ db.first = true ∧ db.second = true := by
  unfold setRow
  dsimp only
  rw [Nat.add_eq_zero_iff,dbDone,dbDone]

theorem setSettled (db i door arg1 arg2) (s : State n) (done : Holds arg1 → db.first = true ∧ db.second = true) :
    Settled s (setCommand cfg db i door arg1 arg2 s) := by
  unfold setCommand
  split
  · rename_i unlock
    dsimp only
    rw [if_pos ((rowDone ..).mpr (done (.inl unlock)))]
    exact .inr rfl
  · split
    · rename_i lock
      dsimp only
      rw [if_pos ((rowDone ..).mpr (done (.inr lock)))]
      exact .inr rfl
    · exact .inl (unchangedSend rErr s)

/- Half a `set` is answered with ERR, and the mask stays as it was set. -/
theorem setHalf (db i door arg1 arg2) (s : State n) (holds : Holds arg1) (failed : ¬ (db.first = true ∧ db.second = true)) :
    lastReply (setCommand cfg db i door arg1 arg2 s).log = some rErr ∧
      ((setCommand cfg db i door arg1 arg2 s).doors i).admDisableMask = arg2 := by
  have row : ∀ (door clear mode : Bytes) (s : State n), (setRow door clear mode arg2 db s).1.doors = s.doors := by
    intro door clear mode s
    unfold setRow dbSetUnset
    cases db.first <;> cases db.second <;> rfl
  unfold setCommand
  split
  · dsimp only
    rw [if_neg (fun done => failed ((rowDone ..).mp done))]
    refine ⟨rfl,?_⟩
    change ((signalDoorStatus cfg i _).doors i).admDisableMask = arg2
    rw [signalStatusDoors,row,setUnlock,updateSelf]
  · rename_i other
    rw [if_pos (holds.resolve_left other)]
    dsimp only
    rw [if_neg (fun done => failed ((rowDone ..).mp done))]
    refine ⟨rfl,?_⟩
    change ((signalDoorStatus cfg i _).doors i).admDisableMask = arg2
    rw [signalStatusDoors,row,setLock,updateSelf]

/- A datagram that sets a door. -/
def SetsDoor (datagram : Bytes) : Prop := ∃ door i arg1 argX,
  words datagram = ⟨some wSet,some door,some arg1,some argX⟩ ∧ getDoorByName cfg door = some i ∧ Holds arg1

theorem commandSettled (db i cmd door arg1 argX) (s : State n)
    (done : cmd = wSet → Holds arg1 → argX.isSome = true → db.first = true ∧ db.second = true) :
    Settled s (command cfg db i cmd door arg1 argX s) := by
  unfold command
  dsimp only
  split
  · exact .inl (getUnchanged db i door arg1 s)
  · split
    · rename_i set
      exact setSettled cfg db i door arg1 _ s (fun holds => done set.1 holds set.2)
    · split
      · exact unsetSettled cfg db i door arg1 _ s
      · split
        · exact doSettled cfg i arg1 _ s
        · exact .inl (unchangedSend rErr s)

theorem networkSettled (datagram db) (s : State n) (done : SetsDoor cfg datagram → db.first = true ∧ db.second = true)
    (refused : lastReply (checkNetwork cfg datagram db s).log = some rErr) : Unchanged s (checkNetwork cfg datagram db s) := by
  have heard : ∀ (event : Event) (door : Option Bytes), Unchanged s (s.emit (.sendEvent event door)) :=
    fun event door => unchangedStill (stillEmit (e := .sendEvent event door) trivial s) rfl
  by_cases none : datagram = []
  · rw [checkNetwork,if_pos none]
    exact unchangedStill (.refl s) rfl
  · rw [checkNetwork,if_neg none] at refused ⊢
    cases parsed : words datagram with
    | mk cmd door arg1 argX =>
      simp only [parsed] at refused ⊢
      cases cmd <;> cases door <;> cases arg1
      case some.some.some cmd door arg1 =>
        dsimp only at refused ⊢
        cases known : getDoorByName cfg door with
        | none => exact (heard _ _).trans (unchangedSend rErr _)
        | some i =>
          rw [known] at refused
          dsimp only at refused ⊢
          have settled := commandSettled cfg db i cmd door arg1 (argX.map toInt)
            (s.emit (.sendEvent (.remoteCtrl (some cmd) (some arg1) argX) (some door))) (by
              rintro rfl holds given
              rw [Option.isSome_map] at given
              obtain ⟨word,rfl⟩ := Option.isSome_iff_exists.mp given
              exact done ⟨door,i,arg1,word,parsed,known,holds⟩)
          rcases settled with unchanged | ok
          · exact (heard _ _).trans unchanged
          · rw [ok] at refused
            exact absurd refused (by decide)
      all_goals exact (heard _ _).trans (unchangedSend rErr _)

/- Some run leaves the mask of a door at another value than the command is to set. -/
theorem otherMask {door : Bytes} {i : Fin n} (known : getDoorByName cfg door = some i) (arg2 : Mask) :
    ∃ rows, ((start cfg rows).doors i).admDisableMask ≠ arg2 := by
  by_cases zero : arg2 = 0
  · refine ⟨[⟨door,wLock,1⟩],?_⟩
    have replayed : ((start cfg [⟨door,wLock,1⟩]).doors i).admDisableMask = 1 := by
      simp only [start,initRemoteControl,List.foldl_cons,List.foldl_nil,restoreRow,known]
      rw [signalStatusDoors,if_neg (by decide),if_pos trivial,updateSelf]
    rw [replayed,zero]
    decide
  · exact ⟨[],fun same => zero same.symm⟩

/- Every datagram but one that sets a door leaves nothing behind when it is refused, in every
state; that one leaves nothing in every state just when both statements complete. -/
theorem refusedUnchanged (datagram : Bytes) (db : Sqlite) :
    (∀ rows s, SystemRun cfg (fun _ _ => True) (start cfg rows) s →
      lastReply (checkNetwork cfg datagram db s).log = some rErr → Unchanged s (checkNetwork cfg datagram db s)) ↔
    (SetsDoor cfg datagram → db.first = true ∧ db.second = true) := by
  constructor
  · rintro atomic ⟨door,i,arg1,argX,parsed,known,holds⟩
    by_contra failed
    obtain ⟨rows,other⟩ := otherMask cfg known (toInt argX)
    have nonempty : datagram ≠ [] := by
      rintro rfl
      have cmd : (words []).cmd = some wSet := congrArg Words.cmd parsed
      exact absurd cmd (by decide)
    have asks : checkNetwork cfg datagram db (start cfg rows) = setCommand cfg db i door arg1 (toInt argX)
        ((start cfg rows).emit (.sendEvent (.remoteCtrl (some wSet) (some arg1) (some argX)) (some door))) := by
      rw [checkNetwork,if_neg nonempty,parsed]
      dsimp only
      rw [known]
      dsimp only [command,Option.map_some,Option.getD_some]
      rw [if_neg (show ¬ wSet = wGet by decide),if_pos ⟨rfl,rfl⟩]
    obtain ⟨refused,mask⟩ := setHalf cfg db i door arg1 (toInt argX)
      ((start cfg rows).emit (.sendEvent (.remoteCtrl (some wSet) (some arg1) (some argX)) (some door))) holds failed
    have unchanged := atomic rows (start cfg rows) (runRefl _) (by rw [asks]; exact refused)
    rw [asks] at unchanged
    exact other ((unchanged.admDisable i).symm.trans mask)
  · exact fun done rows s _ refused => networkSettled cfg datagram db s done refused

/- The second statement fails: the lock is gone from the table, and the door is open. -/
def heldA : State 2 := start airlock [⟨ascii ['A'],wLock,1⟩]
def halfDone : State 2 := checkNetwork airlock setUnlockA ⟨true,false⟩ heldA

theorem halfSetRemains : SystemRun airlock (fun _ _ => True) (start airlock [⟨ascii ['A'],wLock,1⟩]) heldA ∧
    lastReply halfDone.log = some rErr ∧ driven heldA.log 0 = some .doLock ∧ driven halfDone.log 0 = some .doUnlock ∧
    heldA.stateTable = [⟨ascii ['A'],wLock,1⟩] ∧ halfDone.stateTable = [] :=
  ⟨runRefl _,by decide,by decide,by decide,by decide,by decide⟩

end AccessControl.RemoteAtomic
