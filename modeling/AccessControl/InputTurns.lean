import AccessControl.Changes
import AccessControl.GpioInputs

/-! The turns of one door in the passes over the inputs, in a run of the whole controller. Of
its state a turn reads the last input and the alarm timer, and nothing else writes them: what
the turns send is then a matter of the bytes that were read. -/
namespace AccessControl.InputTurns
open BitMask DoorTable Gpio DoorController RemoteControl Run LockSteps LockActs GpioInputs Changes

variable {n : Nat} (cfg : Config n) {s t : State n} {i j : Fin n}

/- The effects of the turns of door `i`, oldest first: of a loop over the doors, a pass, a step and a run. -/
def turnLog (input : Fin n → Byte) (i : Fin n) : List (Fin n) → State n → List (Effect n)
  | [], _ => []
  | j :: doors, s =>
    let t := checkDoorInputs cfg j (input j) s
    (if j = i then slice s.log t.log else []) ++ turnLog input i doors t

def passLog (reading : Reading) (inputVal : Fin n → Byte) (i : Fin n) (s : State n) : List (Effect n) :=
  turnLog cfg (getInputState reading inputVal (asked n)) i (List.finRange n) s

def stepLog (i : Fin n) (s : State n) : Step n → List (Effect n)
  | .mainLoop pass => passLog cfg pass.reading pass.inputVal i (doorTurns cfg pass s)
  | .checkInputs reading inputVal => passLog cfg reading inputVal i s
  | _ => []

def runLog (i : Fin n) : State n → List (Step n) → List (Effect n)
  | _, [] => []
  | s, a :: steps => stepLog cfg i s a ++ runLog i (step cfg s a) steps

def runState (s : State n) (steps : List (Step n)) : State n := steps.foldl (step cfg) s

/- The byte that a step reads for door `i`, and those of a run. -/
def inputOf (i : Fin n) : Step n → Option Byte
  | .mainLoop pass => some (getInputState pass.reading pass.inputVal (asked n) i)
  | .checkInputs reading inputVal => some (getInputState reading inputVal (asked n) i)
  | _ => none

def bytes (i : Fin n) (steps : List (Step n)) : List Byte := steps.filterMap (inputOf i)

structure Watch where
  lastInput : Byte
  alarmTimers : Int

def watch (i : Fin n) (s : State n) : Watch := ⟨(s.doors i).lastInput,(s.doors i).alarmTimers⟩

/- The door is not closed, or its emergency line is active. -/
def alarming (input : Byte) : Bool := input.getLsbD 1 || !input.getLsbD 2

def resend : Nat := 60

def Watch.next (w : Watch) (input : Byte) : Watch := ⟨input,(rearm resend w.alarmTimers (alarming input)).1⟩

/- What a sequence of bytes gives, turn by turn. -/
def outputs {β : Type} (g : Watch → Byte → List β) : Watch → List Byte → List β
  | _, [] => []
  | w, input :: later => g w input ++ outputs g (w.next input) later

def Unread (s t : State n) : Prop := ∀ i, watch i t = watch i s

theorem watchSame (input : (t.doors i).lastInput = (s.doors i).lastInput) (alarm : (t.doors i).alarmTimers = (s.doors i).alarmTimers) :
    watch i t = watch i s := by
  unfold watch
  rw [input,alarm]

theorem unreadCommands : Commands cfg Unread where
  refl _ _ := rfl
  trans first second i := (second i).trans (first i)
  rested h i := watchSame (congrArg LockState.lastInput (h.lock i)) (h.alarm i)
  status i s j := by rw [watch,signalStatusDoors]; rfl
  unlock i mask s j := by
    rw [watch,unlockDoors]
    split <;> rfl
  lock i mask s j := by
    rw [watch,lockDoors]
    split <;> rfl
  masks i adm air s j := by
    rw [watch,updateDoor]
    split <;> rfl

theorem unreadTick (i : Fin n) (s : State n) : Unread s (lockTimer cfg i s) := by
  have ticked' : Unread s (ticked i s) := by
    intro j
    rw [watch,ticked,updateDoor]
    split <;> rfl
  rcases lockTimerCases cfg i s with ⟨_,same⟩ | ⟨_,_,same⟩ | ⟨_,_,same⟩ <;> rw [same]
  · exact fun _ => rfl
  · exact ticked'
  · exact (unreadCommands cfg).trans ticked' ((unreadCommands cfg).lock i _ _)

theorem unreadTurns (pass : Pass n) (s : State n) : Unread s (doorTurns cfg pass s) :=
  doorTurnsWithin cfg (unreadCommands cfg).toCloses (unreadTick cfg) (unreadCommands cfg).unlock pass s

/- What the turns of a door add to the log is a part of what its step adds, in its order. -/
theorem turnsLogged (pass : Pass n) (s : State n) : Logged s (doorTurns cfg pass s) :=
  doorTurnsWithin cfg (loggedCommands cfg).toCloses (loggedTick cfg) (loggedCommands cfg).unlock pass s

theorem turnLogPart (input : Fin n → Byte) (doors : List (Fin n)) (s : State n) :
    Logged s (doors.foldl (fun s i => checkDoorInputs cfg i (input i) s) s) ∧
      (turnLog cfg input i doors s).Sublist (slice s.log (doors.foldl (fun s i => checkDoorInputs cfg i (input i) s) s).log) := by
  induction doors generalizing s with
  | nil => exact ⟨growsRefl _,List.nil_sublist _⟩
  | cons j doors ih =>
    have first := turnGrows cfg j (input j) s
    obtain ⟨rest,part⟩ := ih (checkDoorInputs cfg j (input j) s)
    refine ⟨growsTrans first rest,?_⟩
    rw [turnLog,List.foldl_cons,sliceTrans first rest]
    refine List.Sublist.append ?_ part
    split
    · exact List.Sublist.refl _
    · exact List.nil_sublist _

theorem stepLogPart (a : Step n) (s : State n) : Logged s (step cfg s a) ∧ (stepLog cfg i s a).Sublist (slice s.log (step cfg s a).log) := by
  cases a with
  | mainLoop pass =>
    have turned := turnsLogged cfg pass s
    obtain ⟨grown,part⟩ := turnLogPart cfg (i := i) (getInputState pass.reading pass.inputVal (asked n)) (List.finRange n) (doorTurns cfg pass s)
    refine ⟨growsTrans turned grown,part.trans ?_⟩
    have whole : slice s.log (step cfg s (.mainLoop pass)).log = _ := sliceTrans turned grown
    rw [whole]
    exact List.sublist_append_right _ _
  | checkNetwork datagram db => exact ⟨networkWithin (loggedCommands cfg) datagram db s,List.nil_sublist _⟩
  | processUserInfo r cb =>
    exact ⟨processUserInfoWithin cfg (loggedCommands cfg).toCloses ((loggedCommands cfg).unlock r.door) cb s,List.nil_sublist _⟩
  | checkInputs reading inputVal => exact turnLogPart cfg _ (List.finRange n) s

theorem runLogPart (steps : List (Step n)) (s : State n) :
    Logged s (runState cfg s steps) ∧ (runLog cfg i s steps).Sublist (slice s.log (runState cfg s steps).log) := by
  induction steps generalizing s with
  | nil => exact ⟨growsRefl _,List.nil_sublist _⟩
  | cons a steps ih =>
    obtain ⟨first,now⟩ := stepLogPart cfg (i := i) a s
    obtain ⟨rest,later⟩ := ih (step cfg s a)
    have whole : slice s.log (runState cfg s (a :: steps)).log = _ := sliceTrans first rest
    refine ⟨growsTrans first rest,?_⟩
    rw [runLog,whole]
    exact now.append later

/- Whether the alarm byte is nonzero, and what its block does to the timer. -/
theorem alarmByte (input : Byte) :
    ((input ||| alarmMask) &&& (diIsEmergencyOpen ||| diIsDoorClose ||| diIsDoorLock)) ^^^ (diIsDoorClose ||| diIsDoorLock) ≠ 0 ↔
      alarming input = true := by
  revert input
  decide +kernel

theorem alarmTimer (input) (s : State n) : ((inputAlarm cfg i input s).doors i).alarmTimers =
    (rearm resend (s.doors i).alarmTimers (alarming input)).1 := by
  unfold inputAlarm rearm
  dsimp only
  by_cases held : alarming input = true
  · rw [if_pos ((alarmByte input).mpr held),if_pos held]
    split
    · rw [updateSelf]
      rfl
    · rw [updateSelf]
      split
      · rw [updateSelf]
        rfl
      · rw [updateSelf]
  · rw [if_neg fun h => held ((alarmByte input).mp h),if_neg held,updateSelf]

/- Up to its alarm block a turn leaves the timer alone. -/
theorem senseTimerKept (input) (s : State n) (k : Fin n) : ((inputSense cfg i (inputDiff (s.doors i) input) input s).doors k).alarmTimers =
    (s.doors k).alarmTimers := by rw [senseDoors]

theorem openTimerKept (diff input) (s : State n) : ((inputManualOpen cfg i diff input s).doors i).alarmTimers = (s.doors i).alarmTimers := by
  unfold inputManualOpen
  split
  · exact congrArg Watch.alarmTimers ((unreadCommands cfg).unlock i 1 (sendEvent cfg i .manualOpen s) i)
  · rfl

theorem watchTurn (input) (s : State n) : watch i (checkDoorInputs cfg i input s) = (watch i s).next input := by
  have last := AirlockRelease.turnInput cfg (a := i) input s
  unfold Watch.next watch
  rw [last]
  congr 1
  unfold checkDoorInputs
  dsimp only
  rw [alarmTimer]
  congr 2
  split
  · rw [senseDoors]
    exact openTimerKept cfg _ input s
  · rfl

theorem otherTurn (ne : i ≠ j) (input) (s : State n) : watch i (checkDoorInputs cfg j input s) = watch i s := by
  have closes : Closes (fun s t : State n => watch i t = watch i s) :=
    ⟨fun _ => rfl,fun first second => second.trans first,fun h => (unreadCommands cfg).rested h i⟩
  refine checkDoorInputsWithin cfg closes (fun s => (unreadCommands cfg).unlock j 1 s i) (fun s => ?_) (fun s => ?_) s
  · refine watchSame ?_ (senseTimerKept cfg input s i)
    rw [senseDoors]
    exact if_neg ne
  · refine watchSame (congrArg LockState.lastInput ((hushedAlarm cfg j input s).lock i)) ?_
    have kept : ∀ f (s : State n), ((s.update j f).doors i).alarmTimers = (s.doors i).alarmTimers := fun f s => by rw [updateOther _ _ ne]
    unfold inputAlarm
    dsimp only
    split
    · split
      · exact kept _ _
      · split
        · exact (kept _ _).trans (kept (fun d => {d with alarmTimers := d.alarmTimers - 1}) s)
        · exact kept _ _
    · exact kept _ _

theorem passWatch (reading) (inputVal : Fin n → Byte) (s : State n) (i : Fin n) :
    watch i (checkInputs cfg reading inputVal s) = (watch i s).next (getInputState reading inputVal (asked n) i) := by
  rw [passTurns]
  refine foldlEach (fun i (t : State n) => watch i t = watch i s)
    (fun i (t : State n) => watch i t = (watch i s).next (getInputState reading inputVal (asked n) i)) (List.nodup_finRange n) ?_ ?_
    (fun _ _ => rfl) i (List.mem_finRange i)
  · intro t i same
    rw [watchTurn,same]
  · intro t k i ne
    exact ⟨fun same => (otherTurn cfg ne.symm _ t).trans same,fun done => (otherTurn cfg ne.symm _ t).trans done⟩

theorem stepWatch (a : Step n) (s : State n) (i : Fin n) :
    watch i (step cfg s a) = (inputOf i a).elim (watch i s) (watch i s).next := by
  cases a with
  | mainLoop pass =>
    have turned := unreadTurns cfg pass s i
    exact (passWatch cfg pass.reading pass.inputVal _ i).trans (by rw [turned]; rfl)
  | checkNetwork datagram db => exact networkWithin (unreadCommands cfg) datagram db s i
  | processUserInfo r cb => exact processUserInfoWithin cfg (unreadCommands cfg).toCloses ((unreadCommands cfg).unlock r.door) cb s i
  | checkInputs reading inputVal => exact passWatch cfg reading inputVal s i

theorem runWatch (steps : List (Step n)) (s : State n) (i : Fin n) :
    watch i (runState cfg s steps) = (bytes i steps).foldl Watch.next (watch i s) := by
  induction steps generalizing s with
  | nil => rfl
  | cons a steps ih =>
    have one := stepWatch cfg a s i
    refine (ih (step cfg s a)).trans ?_
    unfold bytes
    cases read : inputOf i a with
    | none =>
      rw [read] at one
      rw [List.filterMap_cons_none read,one,Option.elim_none]
    | some input =>
      rw [read] at one
      rw [List.filterMap_cons_some read,one,List.foldl_cons,Option.elim_some]

theorem startWatch (rows : List StateRow) (i : Fin n) : watch i (start cfg rows) = ⟨diStateIsDiff ||| 0x0f,0⟩ :=
  restoreWithin (unreadCommands cfg) rows (initial rows) i

theorem startFresh (rows : List StateRow) (i : Fin n) : ((start cfg rows).doors i).lastInput = diStateIsDiff ||| 0x0f :=
  congrArg Watch.lastInput (startWatch cfg rows i)

section
variable {β : Type} {f : Effect n → Option β} {g : Watch → Byte → List β}

/- One turn of the door in a loop that treats it once. -/
theorem turnOutputs (turn : ∀ v input, Adds f v.log (checkDoorInputs cfg i input v).log (g (watch i v) input)) (input : Fin n → Byte)
    {doors : List (Fin n)} (once : doors.Nodup) (s : State n) :
    (turnLog cfg input i doors s).filterMap f = if i ∈ doors then g (watch i s) (input i) else [] := by
  induction doors generalizing s with
  | nil => rfl
  | cons j doors ih =>
    obtain ⟨fresh,once⟩ := List.nodup_cons.mp once
    rw [turnLog,List.filterMap_append,ih once]
    by_cases own : j = i
    · subst own
      rw [if_pos rfl,if_neg fresh,if_pos List.mem_cons_self,List.append_nil]
      exact addsSlice (turn s (input j))
    · have same := otherTurn cfg (Ne.symm own) (input j) s
      rw [if_neg own,List.filterMap_nil,List.nil_append,same]
      have members : i ∈ j :: doors ↔ i ∈ doors := by
        rw [List.mem_cons]
        exact or_iff_right (Ne.symm own)
      simp only [members]

/- A reading of the log of a door's turns is one of the bytes. -/
theorem runOutputs (turn : ∀ v input, Adds f v.log (checkDoorInputs cfg i input v).log (g (watch i v) input)) (steps : List (Step n))
    (s : State n) : (runLog cfg i s steps).filterMap f = outputs g (watch i s) (bytes i steps) := by
  have pass : ∀ reading inputVal (s : State n), (passLog cfg reading inputVal i s).filterMap f =
      g (watch i s) (getInputState reading inputVal (asked n) i) :=
    fun reading inputVal s => (turnOutputs cfg turn _ (List.nodup_finRange n) s).trans (if_pos (List.mem_finRange i))
  have one : ∀ (a : Step n) (s : State n), (stepLog cfg i s a).filterMap f = (inputOf i a).elim [] (g (watch i s)) := by
    intro a s
    cases a with
    | mainLoop p => exact (pass _ _ _).trans (by rw [unreadTurns cfg p s i]; rfl)
    | checkInputs reading inputVal => exact pass _ _ _
    | checkNetwork datagram db => rfl
    | processUserInfo r cb => rfl
  induction steps generalizing s with
  | nil => rfl
  | cons a steps ih =>
    have next := stepWatch cfg a s i
    have now := one a s
    rw [runLog,List.filterMap_append,ih]
    unfold bytes
    cases read : inputOf i a with
    | none =>
      rw [read] at next now
      rw [List.filterMap_cons_none read,now,next,Option.elim_none,Option.elim_none,List.nil_append]
    | some input =>
      rw [read] at next now
      rw [List.filterMap_cons_some read,now,next]
      rfl

end
/- What the turn reads as when its unlock reads as `call` and driving outputs and signals read as nothing. -/
structure Reads {β : Type} (f : Effect n → Option β) (call : Option β) (i : Fin n) (name : Bytes) : Prop where
  signal : ∀ signal r, f (.readerSignal signal r) = none
  drive : ∀ operation mask, f (.setDoorState operation mask) = none
  unlock : ∀ mask, f (.sendEvent (.doorUnlock mask) (some name)) = none
  called : ∀ result doors, f (.unlockDoor i 1 result doors) = call

def diffOf (last input : Byte) : Byte := if flag diStateIsDiff last then last else input ^^^ last

def alarmOf (input : Byte) : Byte :=
  ((input ||| alarmMask) &&& (diIsEmergencyOpen ||| diIsDoorClose ||| diIsDoorLock)) ^^^ (diIsDoorClose ||| diIsDoorLock)

section
variable {β : Type} (f : Effect n → Option β) (call : Option β) (name : Bytes)

def told (event : Event) : List β := (f (.sendEvent event (some name))).toList

def senseOut (diff input : Byte) : List β :=
  (if diff.getLsbD 0 = true ∧ input.getLsbD 0 = true then told f name .manualOpen ++ call.toList else []) ++
  (if diff.getLsbD 1 = true then told f name (if input.getLsbD 1 = true then .doorEmergencyActive else .doorEmergencyInactive) else []) ++
  (if diff.getLsbD 2 = true then told f name (if input.getLsbD 2 = true then .doorIsClose else .doorIsOpen) else []) ++
  (if diff.getLsbD 3 = true then told f name (if input.getLsbD 3 = true then .doorIsLock else .doorIsUnlock) else [])

def alarmOut (timer : Int) (input : Byte) : List β :=
  if (rearm resend timer (alarming input)).2 = 1 then told f name (.doorOpenAlarm (alarmOf input)) else []

def turnOut (w : Watch) (input : Byte) : List β :=
  senseOut f call name (diffOf w.lastInput input) input ++ alarmOut f name w.alarmTimers input

variable {cfg f call}

theorem alarmAdds (input) (s : State n) : Adds f s.log (inputAlarm cfg i input s).log (alarmOut f (cfg i).doorName (s.doors i).alarmTimers input) := by
  have quiet : ¬ (0 : Nat) = 1 := Nat.zero_ne_one
  unfold inputAlarm alarmOut rearm
  dsimp only
  by_cases held : alarming input = true
  · rw [if_pos ((alarmByte input).mpr held),if_pos held]
    by_cases zero : (s.doors i).alarmTimers = 0
    · rw [if_pos zero,if_pos zero,if_neg quiet]
      exact addsRefl _
    · rw [if_neg zero,if_neg zero,updateSelf]
      dsimp only
      by_cases last : (s.doors i).alarmTimers - 1 = 0
      · rw [if_pos last,if_pos last,if_pos rfl]
        exact addsCons _ s.log
      · rw [if_neg last,if_neg last,if_neg quiet]
        exact addsRefl _
  · rw [if_neg fun h => held ((alarmByte input).mp h),if_neg held,if_neg quiet]
    exact addsRefl _

theorem airLockAdds (reads : Reads f call i (cfg i).doorName) (mask) (s : State n) : Adds f s.log (airLockOnPartner cfg i mask s).log [] :=
  addsNone (airLockGrows cfg (reads.signal _) (reads.signal _) i mask s)

theorem toldAdds (event) (s : State n) : Adds f s.log (sendEvent cfg i event s).log (told f (cfg i).doorName event) := addsCons _ s.log

/- An event and the blockade of the partner behind it. -/
theorem toldAirLock (reads : Reads f call i (cfg i).doorName) (event mask) (s : State n) :
    Adds f s.log (airLockOnPartner cfg i mask (sendEvent cfg i event s)).log (told f (cfg i).doorName event) := by
  have all := addsTrans (toldAdds event s) (airLockAdds reads mask (sendEvent cfg i event s))
  rwa [List.append_nil] at all

theorem unlockAdds (reads : Reads f call i (cfg i).doorName) (s : State n) : Adds f s.log (unlockDoor cfg i 1 s).1.log call.toList := by
  have quiet : ∀ e, Opening (cfg i).doorName e → f e = none := by
    intro e opening
    cases e with
    | setDoorState operation mask => exact reads.drive operation mask
    | sendEvent event door =>
      obtain ⟨⟨mask,rfl⟩,rfl⟩ := opening
      exact reads.unlock mask
    | readerSignal signal r => exact reads.signal signal r
    | _ => exact opening.elim
  have all := unlockReads cfg quiet 1 s
  rwa [reads.called] at all

/- The four lines of a changed reading, one block of the turn each. -/
theorem openAdds (reads : Reads f call i (cfg i).doorName) (diff input) (s : State n) : Adds f s.log (inputManualOpen cfg i diff input s).log
    (if diff.getLsbD 0 = true ∧ input.getLsbD 0 = true then told f (cfg i).doorName .manualOpen ++ call.toList else []) := by
  unfold inputManualOpen
  rw [flagManualOpen,flagManualOpen]
  split
  · exact addsTrans (toldAdds _ s) (unlockAdds reads _)
  · exact addsRefl _

theorem emergencyAdds (reads : Reads f call i (cfg i).doorName) (diff input) (s : State n) : Adds f s.log (inputEmergency cfg i diff input s).log
    (if diff.getLsbD 1 = true then
      told f (cfg i).doorName (if input.getLsbD 1 = true then .doorEmergencyActive else .doorEmergencyInactive) else []) := by
  unfold inputEmergency
  rw [flagEmergencyOpen,flagEmergencyOpen]
  split
  · split
    · exact toldAirLock reads _ _ s
    · exact toldAdds _ s
  · exact addsRefl _

theorem closeAdds (reads : Reads f call i (cfg i).doorName) (diff input) (s : State n) : Adds f s.log (inputDoorClose cfg i diff input s).log
    (if diff.getLsbD 2 = true then told f (cfg i).doorName (if input.getLsbD 2 = true then .doorIsClose else .doorIsOpen) else []) := by
  unfold inputDoorClose
  rw [flagDoorClose,flagDoorClose]
  split
  · split <;> exact toldAirLock reads _ _ s
  · exact addsRefl _

theorem lockAdds (diff input) (s : State n) : Adds f s.log (inputDoorLock cfg i diff input s).log
    (if diff.getLsbD 3 = true then told f (cfg i).doorName (if input.getLsbD 3 = true then .doorIsLock else .doorIsUnlock) else []) := by
  have bit : ∀ x : Byte, flag diIsDoorLock x = x.getLsbD 3 := flagTwoPow 3
  unfold inputDoorLock
  rw [bit,bit]
  split
  · split <;> exact toldAdds _ s
  · exact addsRefl _

theorem senseAdds (reads : Reads f call i (cfg i).doorName) (diff input) (s : State n) :
    Adds f s.log (inputSense cfg i diff input (inputManualOpen cfg i diff input s)).log (senseOut f call (cfg i).doorName diff input) :=
  addsTrans (addsTrans (addsTrans (openAdds reads diff input s) (emergencyAdds reads diff input _)) (closeAdds reads diff input _))
    (lockAdds diff input _)

/- A turn adds what its reading says: the blocks of a changed byte, then the alarm. -/
theorem turnAdds (reads : Reads f call i (cfg i).doorName) (v : State n) (input) :
    Adds f v.log (checkDoorInputs cfg i input v).log (turnOut f call (cfg i).doorName (watch i v) input) := by
  have last : inputDiff (v.doors i) input = diffOf (watch i v).lastInput input := rfl
  have alarm : ∀ u : State n, Adds f u.log (inputAlarm cfg i input u).log (alarmOut f (cfg i).doorName (u.doors i).alarmTimers input) :=
    alarmAdds input
  unfold checkDoorInputs
  dsimp only
  rw [last]
  split
  · have timer : ((inputSense cfg i (diffOf (watch i v).lastInput input) input
        (inputManualOpen cfg i (diffOf (watch i v).lastInput input) input v)).doors i).alarmTimers = (watch i v).alarmTimers := by
      rw [senseDoors]
      exact openTimerKept cfg _ input v
    refine addsTrans (senseAdds reads _ input v) ?_
    rw [← timer]
    exact alarm _
  · rename_i same
    have none' : senseOut f call (cfg i).doorName (diffOf (watch i v).lastInput input) input = [] := by
      rw [not_not.mp same]
      rfl
    rw [turnOut,none',List.nil_append]
    exact alarm v

end
end AccessControl.InputTurns
