import AccessControl.Run
import AccessControl.RemoteControl

/-! What each operation does to locks and outputs, said once. Every step of the
controller is a run of the few acts below; a property of all runs is then a
property of each act. Reader state, alarm timers and events are not followed. -/
namespace AccessControl.LockSteps
open BitMask DoorTable Gpio DoorController RemoteControl Run

variable {n : Nat} (cfg : Config n) {s t u : State n}

/- Effects that neither drive an output nor call `unlock_door`. -/
def Quiet : Effect n → Prop
  | .setDoorState .. => False
  | .unlockDoor .. => False
  | _ => True

theorem drivenQuiet {a b : List (Effect n)} (h : Grows Quiet a b) (k : Nat) : driven b k = driven a k := by
  refine growsKeeps (f := fun log => driven log k) (fun e log quiet => ?_) h
  cases e <;> first | exact quiet.elim | rfl

structure Still (s t : State n) : Prop where
  lock : ∀ i, (t.doors i).toLockState = (s.doors i).toLockState
  log : Grows Quiet s.log t.log

theorem Still.refl (s : State n) : Still s s := ⟨fun _ => rfl,growsRefl _⟩
theorem Still.trans (first : Still s t) (second : Still t u) : Still s u :=
  ⟨fun i => (second.lock i).trans (first.lock i),growsTrans first.log second.log⟩
theorem Still.driven (h : Still s t) (k : Nat) : driven t.log k = driven s.log k := drivenQuiet h.log k

theorem stillEmit {e : Effect n} (quiet : Quiet e) (s : State n) : Still s (s.emit e) :=
  ⟨fun _ => rfl,growsCons quiet _⟩

/- Of the quiet effects, those that do not show the state of a door either. -/
def Hush : Effect n → Prop
  | .setDoorState .. => False
  | .unlockDoor .. => False
  | .readerSignal signal _ => signal ≠ .blocked ∧ signal ≠ .unblocked
  | _ => True

theorem hushQuiet {e : Effect n} (hush : Hush e) : Quiet e := by
  cases e <;> trivial

structure Hushed (s t : State n) : Prop where
  lock : ∀ i, (t.doors i).toLockState = (s.doors i).toLockState
  log : Grows Hush s.log t.log

theorem Hushed.still (h : Hushed s t) : Still s t := ⟨h.lock,growsMono (fun _ => hushQuiet) h.log⟩
theorem Hushed.refl (s : State n) : Hushed s s := ⟨fun _ => rfl,growsRefl _⟩
theorem Hushed.trans (first : Hushed s t) (second : Hushed t u) : Hushed s u :=
  ⟨fun i => (second.lock i).trans (first.lock i),growsTrans first.log second.log⟩

/- And of those again, steps that leave the alarm timers alone. -/
structure Rested (s t : State n) : Prop extends Hushed s t where
  alarm : ∀ i, (t.doors i).alarmTimers = (s.doors i).alarmTimers

theorem Rested.refl (s : State n) : Rested s s := ⟨.refl s,fun _ => rfl⟩
theorem Rested.trans (first : Rested s t) (second : Rested t u) : Rested s u :=
  ⟨first.toHushed.trans second.toHushed,fun i => (second.alarm i).trans (first.alarm i)⟩
theorem Rested.still (h : Rested s t) : Still s t := h.toHushed.still

theorem restedEmit {e : Effect n} (hush : Hush e) (s : State n) : Rested s (s.emit e) := ⟨⟨fun _ => rfl,growsCons hush _⟩,fun _ => rfl⟩
theorem restedReader (s : State n) (r f) : Rested s (s.setReader r f) := by
  refine ⟨⟨fun i => setReaderLock s r f i,growsRefl _⟩,fun i => ?_⟩
  rw [State.setReader,updateDoor]
  split <;> rfl
theorem restedSignal {signal} (blocked : signal ≠ .blocked) (free : signal ≠ .unblocked) (r : ReaderId n) (s : State n) :
    Rested s (s.emit (.readerSignal signal r)) := restedEmit (e := .readerSignal signal r) ⟨blocked,free⟩ s

@[simp] theorem doorSignalDoors (i signal) (s : State n) : (doorSignal cfg i signal s).doors = s.doors := by
  unfold doorSignal
  split <;> split <;> rfl
/- The log of a signal, for any property that its signals have. -/
theorem doorSignalGrows {P : Effect n → Prop} {signal} (sent : ∀ r, P (.readerSignal signal r)) (i) (s : State n) :
    Grows P s.log (doorSignal cfg i signal s).log := by
  unfold doorSignal
  have emit : ∀ (r : ReaderId n) (s : State n), Grows P s.log (s.emit (.readerSignal signal r)).log :=
    fun r s => growsCons (sent r) s.log
  split <;> split
  · exact growsTrans (emit _ s) (emit _ _)
  · exact emit _ s
  · exact emit _ s
  · exact growsRefl _
theorem doorSignalLog (i signal) (s : State n) : Grows Quiet s.log (doorSignal cfg i signal s).log :=
  doorSignalGrows cfg (fun _ => trivial) i s

@[simp] theorem signalStatusDoors (i) (s : State n) : (signalDoorStatus cfg i s).doors = s.doors := by
  unfold signalDoorStatus
  split <;> simp
theorem signalStatusGrows {P : Effect n → Prop} (blocked : ∀ r, P (.readerSignal .blocked r)) (free : ∀ r, P (.readerSignal .unblocked r))
    (i) (s : State n) : Grows P s.log (signalDoorStatus cfg i s).log := by
  unfold signalDoorStatus
  split
  · exact doorSignalGrows cfg blocked i s
  · exact doorSignalGrows cfg free i s
theorem signalStatusLog (i) (s : State n) : Grows Quiet s.log (signalDoorStatus cfg i s).log :=
  signalStatusGrows cfg (fun _ => trivial) (fun _ => trivial) i s

theorem stillStatus (i) (s : State n) : Still s (signalDoorStatus cfg i s) :=
  ⟨fun j => by simp,signalStatusLog cfg i s⟩
theorem restedEvent (i event) (s : State n) : Rested s (sendEvent cfg i event s) :=
  restedEmit (e := .sendEvent event _) trivial s
theorem stillEvent (i event) (s : State n) : Still s (sendEvent cfg i event s) := (restedEvent cfg i event s).still

/- The partner's blockade after `airLockOnPartner`; every other field of every door is kept. -/
def blockade (cfg : Config n) (i : Fin n) (mask : Mask) (s : State n) (j : Fin n) : Mask :=
  if (cfg i).airLockPartnerLocal = some j then
    if mask = 0 then
      if (s.doors i).doorLockTimer ≤ 0 ∧ (s.doors i).lastInput.getLsbD 2 = true then 0
      else (s.doors j).airLockMask
    else (cfg j).maskFull &&& mask
  else (s.doors j).airLockMask

theorem airLockDoors (i mask) (s : State n) (j : Fin n) :
    (airLockOnPartner cfg i mask s).doors j = {s.doors j with airLockMask := blockade cfg i mask s j} := by
  unfold airLockOnPartner blockade
  cases partner : (cfg i).airLockPartnerLocal with
  | none => simp
  | some p =>
    simp only [signalStatusDoors,closeExact,Option.some.injEq]
    by_cases same : p = j
    · subst same
      by_cases zero : mask = 0
      · simp only [if_pos zero,if_true]
        split <;> simp
      · simp only [if_neg zero,if_true,updateSelf]
    · have ne : j ≠ p := fun e => same e.symm
      by_cases zero : mask = 0
      · simp only [if_pos zero,if_neg same]
        split <;> simp [ne]
      · simp only [if_neg zero,if_neg same,updateOther _ _ ne]

theorem airLockGrows {P : Effect n → Prop} (blocked : ∀ r, P (.readerSignal .blocked r)) (free : ∀ r, P (.readerSignal .unblocked r))
    (i mask) (s : State n) : Grows P s.log (airLockOnPartner cfg i mask s).log := by
  unfold airLockOnPartner
  cases (cfg i).airLockPartnerLocal with
  | none => exact growsRefl _
  | some p =>
    refine growsTrans ?_ (signalStatusGrows cfg blocked free i _)
    split
    · split <;> simp
    · simp
theorem airLockLog (i mask) (s : State n) : Grows Quiet s.log (airLockOnPartner cfg i mask s).log :=
  airLockGrows cfg (fun _ => trivial) (fun _ => trivial) i mask s

theorem blockadeFull (i : Fin n) (s : State n) (j) : blockade cfg i (-1) s j =
    if (cfg i).airLockPartnerLocal = some j then (cfg j).maskFull else (s.doors j).airLockMask := by
  have ne : (-1 : Mask) ≠ 0 := by decide
  have all : (cfg j).maskFull &&& (-1 : Mask) = (cfg j).maskFull := BitVec.and_allOnes
  simp only [blockade,if_neg ne,all]

theorem blockadeZero (i : Fin n) (s : State n) (j) : blockade cfg i 0 s j =
    if (cfg i).airLockPartnerLocal = some j then
      if (s.doors i).doorLockTimer ≤ 0 ∧ (s.doors i).lastInput.getLsbD 2 = true then 0 else (s.doors j).airLockMask
    else (s.doors j).airLockMask := by
  simp only [blockade,if_true]

/- The outputs of a door as bits of the board, all of them and those a mask names. -/
def outputs (i : Fin n) : Mask := (cfg i).maskFull <<< (cfg i).maskOffset.toNat
def effective (i : Fin n) (mask : Mask) : Mask := (mask &&& (cfg i).maskFull) <<< (cfg i).maskOffset.toNat

theorem outputsBit (i : Fin n) (k : Nat) : (outputs cfg i).getLsbD k = true ↔
    (cfg i).maskOffset.toNat ≤ k ∧ k < 32 ∧ (cfg i).maskFull.getLsbD (k - (cfg i).maskOffset.toNat) = true :=
  shiftedBit ..

theorem effectiveBit (i : Fin n) (mask) (k : Nat) : (effective cfg i mask).getLsbD k = true ↔
    (outputs cfg i).getLsbD k = true ∧ mask.getLsbD (k - (cfg i).maskOffset.toNat) = true := by
  rw [effective,shiftedBit,outputsBit,BitVec.getLsbD_and,Bool.and_eq_true]
  tauto

theorem unlockMaskBit (i : Fin n) (mask) (d : Door) (k : Nat) : (unlockMask cfg i mask d).getLsbD k = true ↔
    (cfg i).maskOffset.toNat ≤ k ∧ k < 32 ∧ mask.getLsbD (k - (cfg i).maskOffset.toNat) = true ∧
    (cfg i).maskFull.getLsbD (k - (cfg i).maskOffset.toNat) = true ∧
    d.airLockMask.getLsbD (k - (cfg i).maskOffset.toNat) = false ∧
    d.admDisableMask.getLsbD (k - (cfg i).maskOffset.toNat) = false := by
  have lt : k < 32 → k - (cfg i).maskOffset.toNat < 32 := fun h => by omega
  unfold unlockMask
  rw [shiftedBit]
  simp only [BitVec.getLsbD_and,BitVec.getLsbD_not,Bool.and_eq_true,decide_eq_true_eq,Bool.not_eq_true']
  tauto

theorem lockMaskBit (i : Fin n) (mask) (d : Door) (k : Nat) : (lockMask cfg i mask d).getLsbD k = true ↔
    (cfg i).maskOffset.toNat ≤ k ∧ k < 32 ∧ mask.getLsbD (k - (cfg i).maskOffset.toNat) = true ∧
    (cfg i).maskFull.getLsbD (k - (cfg i).maskOffset.toNat) = true ∧
    d.admDisableMask.getLsbD (k - (cfg i).maskOffset.toNat) = false := by
  have lt : k < 32 → k - (cfg i).maskOffset.toNat < 32 := fun h => by omega
  unfold lockMask
  rw [shiftedBit]
  simp only [BitVec.getLsbD_and,BitVec.getLsbD_not,Bool.and_eq_true,decide_eq_true_eq,Bool.not_eq_true']
  tauto

/- A door drives nothing in the range of another whose outputs are disjoint from its own. -/
theorem unlockApart {i j : Fin n} (apart : outputs cfg i &&& outputs cfg j = 0) {k : Nat}
    (inside : (outputs cfg j).getLsbD k = true) (mask door) : (unlockMask cfg i mask door).getLsbD k = false := by
  apply Bool.eq_false_iff.mpr
  intro bit
  obtain ⟨low,high,_,full,_⟩ := (unlockMaskBit ..).mp bit
  have foreign := disjointBit apart ((shiftedBit ..).mpr ⟨low,high,full⟩)
  simp [inside] at foreign

theorem lockApart {i j : Fin n} (apart : outputs cfg i &&& outputs cfg j = 0) {k : Nat}
    (inside : (outputs cfg j).getLsbD k = true) (mask door) : (lockMask cfg i mask door).getLsbD k = false := by
  apply Bool.eq_false_iff.mpr
  intro bit
  obtain ⟨low,high,_,full,_⟩ := (lockMaskBit ..).mp bit
  have foreign := disjointBit apart ((shiftedBit ..).mpr ⟨low,high,full⟩)
  simp [inside] at foreign

/- One `set_door_state` among quiet effects. -/
theorem drivenSet {a b c : List (Effect n)} {operation mask} (before : Grows Quiet a b)
    (after : Grows Quiet (.setDoorState operation mask :: b) c) (k : Nat) :
    driven c k = if mask.getLsbD k then some operation else driven a k := by
  rw [drivenQuiet after,driven,drivenQuiet before]

theorem unlockDoors (i mask) (s : State n) (j : Fin n) : (unlockDoor cfg i mask s).1.doors j =
    if unlockMask cfg i mask (s.doors i) = 0 then s.doors j else
      {s.doors j with airLockMask := blockade cfg i (-1) s j,
                      doorLockTimer := if j = i then doorOpenTime else (s.doors j).doorLockTimer} := by
  unfold unlockDoor
  by_cases zero : unlockMask cfg i mask (s.doors i) = 0
  · simp [zero]
  · simp only [ne_eq,zero,not_false_eq_true,if_true,if_false,doorSignalDoors,updateDoor,sendEvent,emitDoors,
      airLockDoors]
    split <;> rfl

theorem unlockLog (i mask) (s : State n) :
    let result := unlockMask cfg i mask (s.doors i)
    let called := Effect.unlockDoor i mask result s.doors :: s.log
    if result = 0 then (unlockDoor cfg i mask s).1.log = called
    else ∃ middle, Grows Quiet called middle ∧
      Grows Quiet (.setDoorState .doUnlock result :: middle) (unlockDoor cfg i mask s).1.log := by
  unfold unlockDoor
  by_cases zero : unlockMask cfg i mask (s.doors i) = 0
  · simp [zero]
  · simp only [ne_eq,zero,not_false_eq_true,if_true,if_false]
    refine ⟨_,airLockLog cfg i (-1) (s.emit (.unlockDoor i mask _ s.doors)),?_⟩
    refine growsTrans (growsCons (e := .sendEvent _ _) trivial _) (doorSignalLog cfg i .doorOpen _)

/- What a call of `unlock_door` does once it is made. -/
def Opening (name : Bytes) : Effect n → Prop
  | .setDoorState operation _ => operation = .doUnlock
  | .sendEvent event door => (∃ mask, event = .doorUnlock mask) ∧ door = some name
  | .readerSignal signal _ => signal = .doorOpen ∨ signal = .blocked ∨ signal = .unblocked
  | _ => False

theorem unlockAfter (i : Fin n) (mask) (s : State n) : Grows (Opening (cfg i).doorName)
    (.unlockDoor i mask (unlockMask cfg i mask (s.doors i)) s.doors :: s.log) (unlockDoor cfg i mask s).1.log := by
  unfold unlockDoor
  generalize unlockMask cfg i mask (s.doors i) = result
  dsimp only
  split
  · refine growsTrans (airLockGrows cfg (fun _ => .inr (.inl rfl)) (fun _ => .inr (.inr rfl)) i (-1) (s.emit (.unlockDoor i mask result s.doors))) ?_
    have drive : Opening (cfg i).doorName (.setDoorState (n := n) .doUnlock result) := rfl
    have event : Opening (cfg i).doorName (.sendEvent (n := n) (.doorUnlock result) (some (cfg i).doorName)) := ⟨⟨result,rfl⟩,rfl⟩
    refine growsTrans (growsCons drive _) (growsTrans (growsCons event _) ?_)
    exact doorSignalGrows cfg (fun _ => .inl rfl) i _
  · exact growsRefl _

/- A reading that passes over those effects reads the call alone. -/
theorem unlockReads {β : Type} {f : Effect n → Option β} {i : Fin n} (quiet : ∀ e, Opening (cfg i).doorName e → f e = none) (mask) (s : State n) :
    Adds f s.log (unlockDoor cfg i mask s).1.log (f (.unlockDoor i mask (unlockMask cfg i mask (s.doors i)) s.doors)).toList := by
  have all := addsTrans (addsCons (f := f) (.unlockDoor i mask (unlockMask cfg i mask (s.doors i)) s.doors) s.log)
    (addsNone (growsMono quiet (unlockAfter cfg i mask s)))
  rwa [List.append_nil] at all

/- The whole log of a call, for any property that each kind of its effects has. -/
theorem unlockGrows {P : Effect n → Prop} {i : Fin n} {mask} (called : ∀ result doors, P (.unlockDoor i mask result doors))
    (drive : ∀ result, P (.setDoorState .doUnlock result)) (event : ∀ result, P (.sendEvent (.doorUnlock result) (some (cfg i).doorName)))
    (signal : ∀ signal r, P (.readerSignal signal r)) (s : State n) : Grows P s.log (unlockDoor cfg i mask s).1.log := by
  refine growsTrans (growsCons (called _ _) s.log) (growsMono (fun e opening => ?_) (unlockAfter cfg i mask s))
  cases e with
  | setDoorState operation result =>
    obtain rfl := opening
    exact drive result
  | sendEvent told door =>
    obtain ⟨⟨result,rfl⟩,rfl⟩ := opening
    exact event result
  | readerSignal sent r => exact signal sent r
  | _ => exact opening.elim

theorem lockGrows {P : Effect n → Prop} {i : Fin n} (drive : ∀ result, P (.setDoorState .doLock result))
    (event : ∀ result, P (.sendEvent (.doorLock result) (some (cfg i).doorName))) (signal : ∀ signal r, P (.readerSignal signal r))
    (mask) (s : State n) : Grows P s.log (lockDoor cfg i mask s).1.log := by
  unfold lockDoor
  generalize lockMask cfg i mask (s.doors i) = result
  dsimp only
  split
  · refine growsTrans (growsCons (drive result) _) ?_
    refine growsTrans (airLockGrows cfg (signal _) (signal _) i 0 (s.emit (.setDoorState .doLock result))) ?_
    exact growsTrans (growsCons (event _) _) (doorSignalGrows cfg (signal _) i _)
  · exact growsRefl _

theorem unlockDriven (i mask) (s : State n) (k : Nat) : driven (unlockDoor cfg i mask s).1.log k =
    if (unlockMask cfg i mask (s.doors i)).getLsbD k then some .doUnlock else driven s.log k := by
  have log := unlockLog cfg i mask s
  by_cases zero : unlockMask cfg i mask (s.doors i) = 0
  · simp only [zero,if_true] at log
    rw [log,zero]
    simp [driven]
  · simp only [zero,if_false] at log
    obtain ⟨middle,before,after⟩ := log
    rw [drivenSet before after]
    rfl

theorem lockDoors (i mask) (s : State n) (j : Fin n) : (lockDoor cfg i mask s).1.doors j =
    if lockMask cfg i mask (s.doors i) = 0 then s.doors j
    else {s.doors j with airLockMask := blockade cfg i 0 s j} := by
  unfold lockDoor
  by_cases zero : lockMask cfg i mask (s.doors i) = 0
  · simp [zero]
  · simp only [ne_eq,zero,not_false_eq_true,if_true,if_false,doorSignalDoors,sendEvent,emitDoors,airLockDoors]
    rfl

theorem lockLog (i mask) (s : State n) :
    let result := lockMask cfg i mask (s.doors i)
    if result = 0 then (lockDoor cfg i mask s).1.log = s.log
    else Grows Quiet (.setDoorState .doLock result :: s.log) (lockDoor cfg i mask s).1.log := by
  unfold lockDoor
  by_cases zero : lockMask cfg i mask (s.doors i) = 0
  · simp [zero]
  · simp only [ne_eq,zero,not_false_eq_true,if_true,if_false]
    refine growsTrans (airLockLog cfg i 0 (s.emit (.setDoorState .doLock _))) ?_
    refine growsTrans (growsCons (e := .sendEvent _ _) trivial _) (doorSignalLog cfg i .doorLock _)

theorem lockDriven (i mask) (s : State n) (k : Nat) : driven (lockDoor cfg i mask s).1.log k =
    if (lockMask cfg i mask (s.doors i)).getLsbD k then some .doLock else driven s.log k := by
  have log := lockLog cfg i mask s
  by_cases zero : lockMask cfg i mask (s.doors i) = 0
  · simp only [zero,if_true] at log
    rw [log,zero]
    simp
  · simp only [zero,if_false] at log
    rw [drivenSet (growsRefl _) log]

/- With both masks cleared, as the set commands do first, the mask of the command is
driven as it is. -/
theorem unlockMaskFree (i : Fin n) (mask) {d : Door} (adm : d.admDisableMask = 0) (air : d.airLockMask = 0) :
    unlockMask cfg i mask d = effective cfg i mask := by
  apply BitVec.eq_of_getLsbD_eq
  intro k _
  apply Bool.eq_iff_iff.mpr
  rw [unlockMaskBit,effectiveBit,outputsBit,adm,air]
  simp only [BitVec.ofNat_eq_ofNat,BitVec.getLsbD_zero,and_true]
  tauto

theorem lockMaskFree (i : Fin n) (mask) {d : Door} (adm : d.admDisableMask = 0) :
    lockMask cfg i mask d = effective cfg i mask := by
  apply BitVec.eq_of_getLsbD_eq
  intro k _
  apply Bool.eq_iff_iff.mpr
  rw [lockMaskBit,effectiveBit,outputsBit,adm]
  simp only [BitVec.ofNat_eq_ofNat,BitVec.getLsbD_zero,and_true]
  tauto

theorem setUnlockDriven (i arg2) (s : State n) (k : Nat) : driven (setUnlock cfg i arg2 s).log k =
    if (effective cfg i arg2).getLsbD k then some .doUnlock else driven s.log k := by
  unfold setUnlock
  rw [updateLog,unlockDriven,unlockMaskFree] <;> simp

theorem setLockDriven (i arg2) (s : State n) (k : Nat) : driven (setLock cfg i arg2 s).log k =
    if (effective cfg i arg2).getLsbD k then some .doLock else driven s.log k := by
  unfold setLock
  rw [updateLog,lockDriven,lockMaskFree] <;> simp

theorem unlockAdm (i mask) (s : State n) (j : Fin n) :
    ((unlockDoor cfg i mask s).1.doors j).admDisableMask = (s.doors j).admDisableMask := by
  rw [unlockDoors]
  split <;> rfl

theorem lockAdm (i mask) (s : State n) (j : Fin n) :
    ((lockDoor cfg i mask s).1.doors j).admDisableMask = (s.doors j).admDisableMask := by
  rw [lockDoors]
  split <;> rfl

theorem unlockTimer (i mask) (s : State n) (j : Fin n) : ((unlockDoor cfg i mask s).1.doors j).doorLockTimer =
    if unlockMask cfg i mask (s.doors i) = 0 then (s.doors j).doorLockTimer
    else if j = i then doorOpenTime else (s.doors j).doorLockTimer := by
  rw [unlockDoors]
  split <;> rfl

theorem lockKeepsTimer (i mask) (s : State n) (j : Fin n) :
    ((lockDoor cfg i mask s).1.doors j).doorLockTimer = (s.doors j).doorLockTimer := by
  rw [lockDoors]
  split <;> rfl

theorem setUnlockAdm (i arg2) (s : State n) (j : Fin n) : ((setUnlock cfg i arg2 s).doors j).admDisableMask =
    if j = i then arg2 else (s.doors j).admDisableMask := by
  unfold setUnlock
  rw [updateDoor]
  by_cases same : j = i
  · simp only [if_pos same]
  · simp only [if_neg same,unlockAdm,updateOther _ _ same]

theorem setLockAdm (i arg2) (s : State n) (j : Fin n) : ((setLock cfg i arg2 s).doors j).admDisableMask =
    if j = i then arg2 else (s.doors j).admDisableMask := by
  unfold setLock
  rw [updateDoor]
  by_cases same : j = i
  · simp only [if_pos same]
  · simp only [if_neg same,lockAdm,updateOther _ _ same]

theorem setUnlockTimer (i arg2) (s : State n) (j : Fin n) : ((setUnlock cfg i arg2 s).doors j).doorLockTimer =
    if effective cfg i arg2 = 0 then (s.doors j).doorLockTimer
    else if j = i then doorOpenTime else (s.doors j).doorLockTimer := by
  unfold setUnlock
  rw [updateDoor]
  by_cases same : j = i
  · subst same
    simp only [if_true,unlockTimer,updateSelf,unlockMaskFree]
  · simp only [if_neg same,unlockTimer,updateOther _ _ same,updateSelf,unlockMaskFree]

theorem setLockTimer (i arg2) (s : State n) (j : Fin n) :
    ((setLock cfg i arg2 s).doors j).doorLockTimer = (s.doors j).doorLockTimer := by
  unfold setLock
  rw [updateDoor]
  by_cases same : j = i
  · subst same
    simp only [if_true,lockKeepsTimer,updateSelf]
  · simp only [if_neg same,lockKeepsTimer,updateOther _ _ same]

/- The countdown of the pass: nothing at zero, `lock_door` when it runs out. -/
def ticked (i : Fin n) (s : State n) : State n :=
  s.update i (fun d => {d with doorLockTimer := d.doorLockTimer - 1})

theorem lockTimerCases (i : Fin n) (s : State n) :
    (s.doors i).doorLockTimer = 0 ∧ lockTimer cfg i s = s ∨
    (s.doors i).doorLockTimer ≠ 0 ∧ 1 < (s.doors i).doorLockTimer ∧ lockTimer cfg i s = ticked i s ∨
    (s.doors i).doorLockTimer ≠ 0 ∧ (s.doors i).doorLockTimer ≤ 1 ∧
      lockTimer cfg i s = (lockDoor cfg i (cfg i).maskFull (ticked i s)).1 := by
  by_cases zero : (s.doors i).doorLockTimer = 0
  · exact .inl ⟨zero,by simp [lockTimer,zero]⟩
  · by_cases last : (s.doors i).doorLockTimer ≤ 1
    · have out : (s.doors i).doorLockTimer - 1 ≤ 0 := by omega
      exact .inr (.inr ⟨zero,last,by simp [lockTimer,ticked,zero,out]⟩)
    · have more : ¬ (s.doors i).doorLockTimer - 1 ≤ 0 := by omega
      exact .inr (.inl ⟨zero,by omega,by simp [lockTimer,ticked,zero,more]⟩)

/- The partner's blockade after a changed reading. The close line is compared with
the input stored by the previous pass, not with the one just read. -/
def sensed (i : Fin n) (diff input : Byte) (s : State n) (j : Fin n) : Mask :=
  if (cfg i).airLockPartnerLocal = some j then
    let mask := if diff.getLsbD 1 = true ∧ input.getLsbD 1 = true then (cfg j).maskFull else (s.doors j).airLockMask
    if diff.getLsbD 2 = true then
      if input.getLsbD 2 = true then
        if (s.doors i).doorLockTimer ≤ 0 ∧ (s.doors i).lastInput.getLsbD 2 = true then 0 else mask
      else (cfg j).maskFull
    else mask
  else (s.doors j).airLockMask

theorem emergencyDoors (i diff input) (s : State n) (j : Fin n) : (inputEmergency cfg i diff input s).doors j =
    {s.doors j with airLockMask :=
      if diff.getLsbD 1 = true ∧ input.getLsbD 1 = true then blockade cfg i (-1) s j else (s.doors j).airLockMask} := by
  unfold inputEmergency
  simp only [flagEmergencyOpen]
  by_cases changed : diff.getLsbD 1 = true <;> by_cases active : input.getLsbD 1 = true <;>
    simp only [changed,active,if_true,and_self,and_false,false_and,if_false,Bool.false_eq_true,airLockDoors,sendEvent,emitDoors]
  rfl

theorem doorCloseDoors (i diff input) (s : State n) (j : Fin n) : (inputDoorClose cfg i diff input s).doors j =
    {s.doors j with airLockMask :=
      if diff.getLsbD 2 = true then blockade cfg i (if input.getLsbD 2 = true then 0 else -1) s j
      else (s.doors j).airLockMask} := by
  unfold inputDoorClose
  simp only [flagDoorClose]
  by_cases changed : diff.getLsbD 2 = true <;> by_cases closed : input.getLsbD 2 = true <;>
    simp only [changed,closed,if_true,if_false,Bool.false_eq_true,airLockDoors,sendEvent,emitDoors] <;> rfl

@[simp] theorem doorLockDoors (i diff input) (s : State n) : (inputDoorLock cfg i diff input s).doors = s.doors := by
  unfold inputDoorLock
  split
  · split <;> rfl
  · rfl

theorem senseDoors (i diff input) (s : State n) (j : Fin n) : (inputSense cfg i diff input s).doors j =
    {s.doors j with airLockMask := sensed cfg i diff input s j,
                    lastInput := if j = i then input else (s.doors j).lastInput} := by
  have mask : (((inputDoorClose cfg i diff input (inputEmergency cfg i diff input s)).doors j).airLockMask) =
      sensed cfg i diff input s j := by
    rw [doorCloseDoors]
    unfold sensed
    by_cases partner : (cfg i).airLockPartnerLocal = some j <;> by_cases closed : input.getLsbD 2 = true <;>
      simp only [partner,closed,if_true,if_false,Bool.false_eq_true,emergencyDoors,blockadeFull,blockadeZero,ite_self]
  unfold inputSense
  simp only [updateDoor,doorLockDoors]
  rw [← mask]
  simp only [doorCloseDoors,emergencyDoors]
  split <;> rfl

theorem senseLog (i diff input) (s : State n) : Grows Quiet s.log (inputSense cfg i diff input s).log := by
  have event : ∀ (e : Event) (s : State n), Grows Quiet s.log (sendEvent cfg i e s).log :=
    fun e s => (stillEvent cfg i e s).log
  have emergency : Grows Quiet s.log (inputEmergency cfg i diff input s).log := by
    unfold inputEmergency
    split
    · split
      · exact growsTrans (event _ s) (airLockLog cfg i (-1) _)
      · exact event _ s
    · exact growsRefl _
  have close : ∀ s : State n, Grows Quiet s.log (inputDoorClose cfg i diff input s).log := by
    intro s
    unfold inputDoorClose
    split
    · split <;> exact growsTrans (event _ s) (airLockLog cfg i _ _)
    · exact growsRefl _
  have lock : ∀ s : State n, Grows Quiet s.log (inputDoorLock cfg i diff input s).log := by
    intro s
    unfold inputDoorLock
    split
    · split <;> exact event _ s
    · exact growsRefl _
  exact growsTrans emergency (growsTrans (close _) (lock _))

theorem hushedAlarm (i input) (s : State n) : Hushed s (inputAlarm cfg i input s) := by
  have timers : ∀ (f : Int → Int) (s : State n), Hushed s (s.update i (fun d => {d with alarmTimers := f d.alarmTimers})) := by
    intro f s
    refine ⟨fun j => ?_,growsRefl _⟩
    rw [updateDoor]
    split <;> rfl
  unfold inputAlarm
  dsimp only
  split
  · split
    · exact timers (fun _ => alarmResendTimer) s
    · split
      · exact (timers (fun t => t - 1) s).trans ((restedEvent cfg i _ _).toHushed.trans (timers (fun _ => alarmResendTimer) _))
      · exact timers (fun t => t - 1) s
  · exact timers (fun _ => 0) s

/- Reader bookkeeping touches no lock. -/
theorem restedReset (r : ReaderId n) (s : State n) : Rested s (resetDoorAuth r s) :=
  (restedEmit (e := .resetDoorAuth r) trivial s).trans (restedReader _ _ _)
theorem restedUsage (r : ReaderId n) (s : State n) : Rested s (invalidUsage r s) := restedSignal (by decide) (by decide) r s
theorem restedAuthError (r : ReaderId n) (s : State n) : Rested s (authError r s) := restedSignal (by decide) (by decide) r s
theorem restedData (r : ReaderId n) (s : State n) : Rested s (invalidData r s) := restedSignal (by decide) (by decide) r s

theorem restedTwoFactor (r : ReaderId n) (s : State n) : Rested s (twoFactorTimer r s) := by
  have start : Rested s (s.emit (.twoFactorTimer r)) := restedEmit (e := .twoFactorTimer r) trivial s
  unfold twoFactorTimer
  dsimp only
  split
  · have counted := start.trans (restedReader _ r (fun reader => {reader with twoFactorTimer := reader.twoFactorTimer - 1}))
    split
    · exact counted.trans ((restedReset r _).trans ((restedEmit (e := .clearReaderData r) trivial _).trans (restedUsage r _)))
    · exact counted.trans (restedSignal (by decide) (by decide) r _)
  · exact start

/- All that comes of a credential: it goes into the free buffer for its type, or the reader is
reset and signals. -/
theorem storeCases (r : ReaderId n) (cb) (s : State n) :
    (∃ signal, (signal ≠ .blocked ∧ signal ≠ .unblocked) ∧
      storeCredential cfg r cb s = .error ((resetDoorAuth r s).emit (.readerSignal signal r))) ∨
    cb.dataMode = .dataOk ∧ ∃ f, storeCredential cfg r cb s = .ok (s.setReader r f) ∧
      (cb.dataType = .dataIsPin ∧ (s.doorReader r).pinLen = 0 ∧
          f = (fun reader => {reader with pin := (memcpy reader.pin cb.data).set cb.data.length 0, pinLen := cb.data.length}) ∨
        cb.dataType = .dataIsCard ∧ (s.doorReader r).cardLen = 0 ∧
          f = (fun reader => {reader with card := memcpy reader.card cb.data, cardLen := cb.data.length}) ∨
        cb.dataType = .dataIsCard ∧ (s.doorReader r).cardLen ≠ 0 ∧
          ((cfg r.door).reader r.side).accessMode = modeTwoCards ∧ (s.doorReader r).card2Len = 0 ∧
          f = (fun reader => {reader with card2 := memcpy reader.card2 cb.data, card2Len := cb.data.length})) := by
  unfold storeCredential
  dsimp only
  cases mode : cb.dataMode with
  | dataOutOfBuf => exact .inl ⟨_,⟨by decide,by decide⟩,rfl⟩
  | dataTimeout => exact .inl ⟨_,⟨by decide,by decide⟩,rfl⟩
  | dataOk =>
    cases type : cb.dataType with
    | dataIsPin =>
      dsimp only
      split
      · exact .inl ⟨_,⟨by decide,by decide⟩,rfl⟩
      · split
        · exact .inl ⟨_,⟨by decide,by decide⟩,rfl⟩
        · rename_i free
          exact .inr ⟨rfl,_,rfl,.inl ⟨rfl,not_not.mp free,rfl⟩⟩
    | dataIsCard =>
      dsimp only
      split
      · exact .inl ⟨_,⟨by decide,by decide⟩,rfl⟩
      · split
        · rename_i held
          split
          · exact .inl ⟨_,⟨by decide,by decide⟩,rfl⟩
          · rename_i second
            obtain ⟨two,free⟩ := not_or.mp second
            exact .inr ⟨rfl,_,rfl,.inr (.inr ⟨rfl,held,not_not.mp two,not_not.mp free,rfl⟩)⟩
        · rename_i free
          exact .inr ⟨rfl,_,rfl,.inr (.inl ⟨rfl,not_not.mp free,rfl⟩)⟩

theorem restedStore {r : ReaderId n} {cb} (h : storeCredential cfg r cb s = .error t ∨ storeCredential cfg r cb s = .ok t) :
    Rested s t := by
  rcases storeCases cfg r cb s with ⟨signal,hush,refused⟩ | ⟨_,f,stored,_⟩
  · rw [refused] at h
    rcases h with h | h <;> cases h
    exact (restedReset r s).trans (restedSignal hush.1 hush.2 r _)
  · rw [stored] at h
    rcases h with h | h <;> cases h
    exact restedReader s r f

/- A question sends the events of its answer, one after another, and is logged with its mask. -/
theorem askGrows {P : Effect n → Prop} (sent : ∀ event door, P (.sendEvent event door)) (database) (r : ReaderId n) (query) (s : State n) :
    ∃ older, (ask database r query s).1 = {s with log := .access r query (database query).mask :: older} ∧ Grows P s.log older := by
  have events : ∀ (es : List (Event × Option Bytes)) (s : State n), ∃ older,
      es.foldl (fun s e => s.emit (.sendEvent e.1 e.2)) s = {s with log := older} ∧ Grows P s.log older := by
    intro es
    induction es with
    | nil => exact fun s => ⟨s.log,rfl,growsRefl _⟩
    | cons e es ih =>
      intro s
      obtain ⟨older,same,grown⟩ := ih (s.emit (.sendEvent e.1 e.2))
      exact ⟨older,same,growsTrans (growsCons (sent e.1 e.2) s.log) grown⟩
  obtain ⟨older,same,grown⟩ := events (database query).events s
  exact ⟨older,congrArg (fun s : State n => s.emit (.access r query (database query).mask)) same,grown⟩

theorem restedAsk (database) (r : ReaderId n) (query) (s : State n) : Rested s (ask database r query s).1 := by
  obtain ⟨older,same,grown⟩ := askGrows (P := Hush) (fun _ _ => trivial) database r query s
  rw [same]
  exact ⟨⟨fun _ => rfl,growsTrans grown (growsCons (e := .access r query _) trivial older)⟩,fun _ => rfl⟩

theorem restedStart (r : ReaderId n) (s : State n) : Rested s (startTwoFactor r s) := by
  unfold startTwoFactor
  split
  · exact (restedSignal (by decide) (by decide) r s).trans (restedReader _ r _)
  · exact .refl s

/- All that the switch over the access mode does: nothing, waiting for the second factor, one
question with or without the end of the wait, or the question with two cards. -/
inductive Switched (database : Database) (r : ReaderId n) (s : State n) : State n × Mask → Prop where
  | nothing (other : ((cfg r.door).reader r.side).accessMode ≠ modeTwoCards) : Switched database r s (s,0)
  | waiting (single : ((cfg r.door).reader r.side).accessMode = modeTwoCards →
      ¬ ((s.doorReader r).cardLen ≠ 0 ∧ (s.doorReader r).card2Len ≠ 0)) : Switched database r s (startTwoFactor r s,0)
  | access (mode : Byte) (other : ((cfg r.door).reader r.side).accessMode ≠ modeTwoCards)
      (plain : ((cfg r.door).reader r.side).accessMode ≠ modeCardAndPinAlways) :
      Switched database r s (getAccessMask cfg database r mode s)
  | stopped (mode : Byte) (other : ((cfg r.door).reader r.side).accessMode ≠ modeTwoCards)
      (both : ((cfg r.door).reader r.side).accessMode = modeCardAndPinAlways →
        (s.doorReader r).cardLen ≠ 0 ∧ (s.doorReader r).pinLen ≠ 0) :
      Switched database r s (stopTwoFactor r (getAccessMask cfg database r mode s).1,(getAccessMask cfg database r mode s).2)
  | denied (mode : Byte) (other : ((cfg r.door).reader r.side).accessMode ≠ modeTwoCards)
      (zero : (getAccessMask cfg database r mode s).2 = 0) :
      Switched database r s (startTwoFactor r (getAccessMask cfg database r mode s).1,0)
  | keys (two : ((cfg r.door).reader r.side).accessMode = modeTwoCards)
      (both : (s.doorReader r).cardLen ≠ 0 ∧ (s.doorReader r).card2Len ≠ 0) :
      Switched database r s ((stopTwoFactor r (checkKeyAccess database r s).1).setReader r (fun reader => {reader with card2Len := 0}),
        (checkKeyAccess database r s).2)

theorem authMaskSwitched (database) (r : ReaderId n) (s : State n) : Switched cfg database r s (authMask cfg database r s) := by
  have distinct : ∀ {own : Byte}, own ≠ modeTwoCards → ((cfg r.door).reader r.side).accessMode = own →
      ((cfg r.door).reader r.side).accessMode ≠ modeTwoCards := fun other mode two => other (mode.symm.trans two)
  have single : ∀ {own : Byte}, own ≠ modeCardAndPinAlways → ((cfg r.door).reader r.side).accessMode = own →
      ((cfg r.door).reader r.side).accessMode ≠ modeCardAndPinAlways := fun other mode always => other (mode.symm.trans always)
  unfold authMask
  dsimp only
  split
  · rename_i mode
    split
    · exact .access _ (distinct (by decide) mode) (single (by decide) mode)
    · split
      · exact .access _ (distinct (by decide) mode) (single (by decide) mode)
      · exact .nothing (distinct (by decide) mode)
  · split
    · rename_i mode
      split
      · exact .access _ (distinct (by decide) mode) (single (by decide) mode)
      · exact .nothing (distinct (by decide) mode)
    · split
      · rename_i mode
        split
        · exact .access _ (distinct (by decide) mode) (single (by decide) mode)
        · exact .nothing (distinct (by decide) mode)
      · split
        · rename_i mode
          have other := mode.elim (distinct (by decide)) (distinct (by decide))
          split
          · rename_i both
            exact .stopped _ other fun _ => both
          · split
            · rename_i cardOnly
              split
              · exact .stopped _ other fun always => absurd always (single (by decide) cardOnly.2)
              · rename_i denied
                rw [not_not] at denied
                rw [denied]
                exact .denied _ other denied
            · exact .waiting fun two => absurd two other
        · split
          · rename_i two
            split
            · rename_i both
              exact .keys two both
            · rename_i waiting
              exact .waiting fun _ => waiting
          · rename_i other
            exact .nothing other

theorem restedAuthMask (database) (r : ReaderId n) (s : State n) : Rested s (authMask cfg database r s).1 := by
  have access : ∀ mode, Rested s (getAccessMask cfg database r mode s).1 := fun mode => restedAsk database r _ s
  have key : Rested s (checkKeyAccess database r s).1 := restedAsk database r _ s
  have stop : ∀ s : State n, Rested s (stopTwoFactor r s) := fun s => restedReader s r _
  have switched := authMaskSwitched cfg database r s
  generalize authMask cfg database r s = out at switched ⊢
  cases switched with
  | nothing => exact .refl s
  | waiting => exact restedStart r s
  | access mode => exact access mode
  | stopped mode => exact (access mode).trans (stop _)
  | denied mode => exact (access mode).trans (restedStart r _)
  | keys =>
    have cleared := (key.trans (stop _)).trans (restedReader _ r (fun reader => {reader with card2Len := 0}))
    exact cleared

end AccessControl.LockSteps
