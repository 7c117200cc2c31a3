import AccessControl.LockActs

/-! When the blockade of a partner is lifted. Two call sites do it: the end of the
countdown and the closing of the door. The second one compares the input stored by
the previous pass, so a door that closes after it was locked is missed. -/
namespace AccessControl.AirlockRelease
open BitMask DoorTable Gpio DoorController RemoteControl Run LockSteps LockActs

variable {n : Nat} (cfg : Config n) {s t u : State n} {a b : Fin n}

/- Locked, closed and not in emergency: nothing of `a` is left to blockade `b` for. -/
def Lifted (a b : Fin n) (s : State n) : Prop :=
  (s.doors a).doorLockTimer = 0 → flag diIsDoorClose (s.doors a).lastInput = true →
  flag diIsEmergencyOpen (s.doors a).lastInput = false → (s.doors b).airLockMask = 0

def opensByHand (a : Fin n) (input : Byte) (s : State n) : Prop :=
  flag diManualOpen (inputDiff (s.doors a) input) = true ∧ flag diManualOpen input = true ∧
  unlockMask cfg a 1 (s.doors a) ≠ 0

/- The reading that should lift the blockade and does not: it finds `a` locked, and shut
and calm again, while the stored input is still the open or the alarmed one. -/
def Missed (a b : Fin n) (input : Byte) (s : State n) : Prop :=
  (s.doors a).doorLockTimer = 0 ∧ (s.doors b).airLockMask ≠ 0 ∧
  (flag diIsDoorClose (s.doors a).lastInput = false ∨ flag diIsEmergencyOpen (s.doors a).lastInput = true) ∧
  flag diIsDoorClose input = true ∧ flag diIsEmergencyOpen input = false ∧
  ¬ opensByHand cfg a input s ∧
  ¬ (flag diStateIsDiff (s.doors a).lastInput = true ∧ flag diIsDoorClose (s.doors a).lastInput = true)

/- The byte `check_inputs` reads for a door, and the state when it comes to that door. -/
def inputOf (pass : Pass n) (i : Fin n) : Byte := getInputState pass.reading pass.inputVal (~~~(~~~0#32 <<< n)) i

def atTurn (pass : Pass n) (a : Fin n) (s : State n) : State n :=
  ((List.finRange n).takeWhile (fun i => i != a)).foldl (fun s i => checkDoorInputs cfg i (inputOf pass i) s)
    (doorTurns cfg pass s)

def Lifts (a b : Fin n) (s : State n) : Step n → Prop
  | .mainLoop pass => ¬ Missed cfg a b (inputOf pass a) (atTurn cfg pass a s)
  | _ => False

instance (input : Byte) (s : State n) : Decidable (opensByHand cfg a input s) := inferInstanceAs (Decidable (_ ∧ _))
instance (input : Byte) (s : State n) : Decidable (Missed cfg a b input s) := inferInstanceAs (Decidable (_ ∧ _))

instance (s : State n) : (x : Step n) → Decidable (Lifts cfg a b s x)
  | .mainLoop _ => inferInstanceAs (Decidable (¬ _))
  | .checkNetwork .. => isFalse id
  | .processUserInfo .. => isFalse id
  | .checkInputs .. => isFalse id

/- What the turn of another door leaves alone, when only `a` names `b`. -/
structure Same (a b : Fin n) (s t : State n) : Prop where
  timer : (t.doors a).doorLockTimer = (s.doors a).doorLockTimer
  input : (t.doors a).lastInput = (s.doors a).lastInput
  adm : (t.doors a).admDisableMask = (s.doors a).admDisableMask
  air : (t.doors b).airLockMask = (s.doors b).airLockMask

theorem Same.refl (s : State n) : Same a b s s := ⟨rfl,rfl,rfl,rfl⟩
theorem Same.trans (first : Same a b s t) (second : Same a b t u) : Same a b s u :=
  ⟨second.timer.trans first.timer,second.input.trans first.input,second.adm.trans first.adm,second.air.trans first.air⟩

theorem stillSame (h : Still s t) : Same a b s t where
  timer := congrArg LockState.doorLockTimer (h.lock a)
  input := congrArg LockState.lastInput (h.lock a)
  adm := congrArg LockState.admDisableMask (h.lock a)
  air := congrArg LockState.airLockMask (h.lock b)

section
variable {i : Fin n} (ne : i ≠ a) (other : (cfg i).airLockPartnerLocal ≠ some b)
include ne other

theorem unlockSame (mask) (s : State n) : Same a b s (unlockDoor cfg i mask s).1 := by
  have own : a ≠ i := fun e => ne e.symm
  by_cases zero : unlockMask cfg i mask (s.doors i) = 0
  · have doors : ∀ j, (unlockDoor cfg i mask s).1.doors j = s.doors j := fun j => by rw [unlockDoors,if_pos zero]
    exact ⟨by rw [doors],by rw [doors],by rw [doors],by rw [doors]⟩
  · refine ⟨?_,?_,?_,?_⟩ <;> rw [unlockDoors,if_neg zero]
    · exact if_neg own
    · rw [blockadeFull,if_neg other]

theorem tickSame (s : State n) : Same a b s (lockTimer cfg i s) := by
  have own : a ≠ i := fun e => ne e.symm
  have counted : Same a b s (ticked i s) := by
    refine ⟨by rw [ticked,updateOther _ _ own],by rw [ticked,updateOther _ _ own],by rw [ticked,updateOther _ _ own],?_⟩
    rw [ticked,updateDoor]
    split <;> rfl
  rcases lockTimerCases cfg i s with ⟨_,same⟩ | ⟨_,_,same⟩ | ⟨_,_,same⟩ <;> rw [same]
  · exact .refl s
  · exact counted
  · refine counted.trans ⟨lockKeepsTimer ..,?_,lockAdm ..,?_⟩ <;> rw [lockDoors]
    · split <;> rfl
    · split
      · rfl
      · rw [blockadeZero,if_neg other]

theorem senseSame (diff input) (s : State n) : Same a b s (inputSense cfg i diff input s) := by
  have own : a ≠ i := fun e => ne e.symm
  refine ⟨?_,?_,?_,?_⟩ <;> rw [senseDoors]
  · exact if_neg own
  · simp only [sensed,if_neg other]

end

/- What holds between any two acts of a pass, except while `a` has its inputs read. -/
structure Settled (a b : Fin n) (s : State n) : Prop where
  low : 0 ≤ (s.doors a).doorLockTimer
  adm : (s.doors a).admDisableMask = 0
  drives : 0 < (s.doors a).doorLockTimer → outputs cfg a ≠ 0
  lifted : Lifted a b s

/- Before its first countdown `a` may have no outputs to lock, and blockades nobody. -/
structure Waiting (a b : Fin n) (s : State n) : Prop where
  timer : (s.doors a).doorLockTimer = 1
  adm : (s.doors a).admDisableMask = 0
  air : (s.doors b).airLockMask = 0

section
variable {cfg}

theorem Same.lifted (same : Same a b s t) : Lifted a b t ↔ Lifted a b s := by
  simp only [Lifted,same.timer,same.input,same.air]

theorem Same.settled (same : Same a b s t) (settled : Settled cfg a b s) : Settled cfg a b t := by
  obtain ⟨low,adm,drives,lifted⟩ := settled
  exact ⟨same.timer ▸ low,same.adm ▸ adm,fun h => drives (same.timer ▸ h),same.lifted.mpr lifted⟩

theorem Same.waiting (same : Same a b s t) (waiting : Waiting a b s) : Waiting a b t :=
  ⟨same.timer.trans waiting.timer,same.adm.trans waiting.adm,same.air.trans waiting.air⟩

end

/- An unlock of `a` starts its countdown or changes nothing. -/
theorem unlockOwn (mask) (s : State n) : Same a b s (unlockDoor cfg a mask s).1 ∨
    outputs cfg a ≠ 0 ∧ ((unlockDoor cfg a mask s).1.doors a).doorLockTimer = doorOpenTime ∧
      ((unlockDoor cfg a mask s).1.doors a).admDisableMask = (s.doors a).admDisableMask := by
  by_cases zero : unlockMask cfg a mask (s.doors a) = 0
  · have doors : ∀ j, (unlockDoor cfg a mask s).1.doors j = s.doors j := fun j => by rw [unlockDoors,if_pos zero]
    exact .inl ⟨by rw [doors],by rw [doors],by rw [doors],by rw [doors]⟩
  · obtain ⟨k,bit⟩ := maskNonzero.mp zero
    obtain ⟨low,high,_,full,_⟩ := (unlockMaskBit ..).mp bit
    have drives : outputs cfg a ≠ 0 := maskNonzero.mpr ⟨k,(outputsBit ..).mpr ⟨low,high,full⟩⟩
    exact .inr ⟨drives,by rw [unlockTimer,if_neg zero,if_pos rfl],unlockAdm cfg a mask s a⟩

theorem openSettled (drives : outputs cfg a ≠ 0) (timer : (s.doors a).doorLockTimer = doorOpenTime)
    (adm : (s.doors a).admDisableMask = 0) : Settled cfg a b s := by
  refine ⟨by rw [timer]; decide,adm,fun _ => drives,fun locked => ?_⟩
  rw [timer] at locked
  exact absurd locked (by decide)

theorem unlockSettled (mask) (h : Settled cfg a b s) : Settled cfg a b (unlockDoor cfg a mask s).1 := by
  rcases unlockOwn cfg (b := b) mask s with same | ⟨drives,timer,adm⟩
  · exact same.settled h
  · exact openSettled cfg drives timer (adm.trans h.adm)

theorem unlockWaiting (mask) (h : Waiting a b s) :
    Waiting a b (unlockDoor cfg a mask s).1 ∨ Settled cfg a b (unlockDoor cfg a mask s).1 := by
  rcases unlockOwn cfg (b := b) mask s with same | ⟨drives,timer,adm⟩
  · exact .inl (same.waiting h)
  · exact .inr (openSettled cfg drives timer (adm.trans h.adm))

theorem tickedOwn (s : State n) : ((ticked a s).doors a).doorLockTimer = (s.doors a).doorLockTimer - 1 ∧
    ((ticked a s).doors a).admDisableMask = (s.doors a).admDisableMask ∧
    ((ticked a s).doors b).airLockMask = (s.doors b).airLockMask := by
  refine ⟨by simp [ticked],by simp [ticked],?_⟩
  rw [ticked,updateDoor]
  split <;> rfl

/- The countdown of `a` ends with `lock_door`, which lifts the blockade of a closed door. -/
theorem tickSettled (pair : (cfg a).airLockPartnerLocal = some b) (h : Settled cfg a b s) :
    Settled cfg a b (lockTimer cfg a s) := by
  obtain ⟨low,adm,drives,lifted⟩ := h
  obtain ⟨timer,free,air⟩ := tickedOwn (a := a) (b := b) s
  rw [adm] at free
  rcases lockTimerCases cfg a s with ⟨_,same⟩ | ⟨_,more,same⟩ | ⟨ne,last,same⟩ <;> rw [same]
  · exact ⟨low,adm,drives,lifted⟩
  · exact ⟨by omega,free,fun _ => drives (by omega),fun locked => by omega⟩
  · have locked := lockKeepsTimer cfg a (cfg a).maskFull (ticked a s) a
    have result : lockMask cfg a (cfg a).maskFull ((ticked a s).doors a) ≠ 0 := by
      rw [lockMaskFree cfg a _ free,effective,BitVec.and_self]
      exact drives (by omega)
    refine ⟨by rw [locked]; omega,by rw [lockAdm,free],fun running => by rw [locked] at running; omega,?_⟩
    intro _ shut _
    rw [flagDoorClose] at shut
    rw [lockDoors,if_neg result] at shut ⊢
    rw [blockadeZero,if_pos pair]
    exact if_pos ⟨by omega,shut⟩

theorem tickWaiting (h : Waiting a b s) : Settled cfg a b (lockTimer cfg a s) := by
  obtain ⟨one,adm,clear⟩ := h
  obtain ⟨timer,free,air⟩ := tickedOwn (a := a) (b := b) s
  rw [adm] at free
  rw [clear] at air
  have locked := lockKeepsTimer cfg a (cfg a).maskFull (ticked a s) a
  rcases lockTimerCases cfg a s with ⟨_,_⟩ | ⟨_,_,_⟩ | ⟨_,_,same⟩
  · omega
  · omega
  · rw [same]
    refine ⟨by rw [locked]; omega,by rw [lockAdm,free],fun running => by rw [locked] at running; omega,?_⟩
    intro _ _ _
    rw [lockDoors]
    split
    · exact air
    · rw [blockadeZero]
      split
      · split
        · rfl
        · exact air
      · exact air

theorem manualSame (input) {v : State n} (shut : ¬ opensByHand cfg a input v) :
    Same a b v (inputManualOpen cfg a (inputDiff (v.doors a) input) input v) := by
  unfold inputManualOpen
  split
  · rename_i pressed
    have zero : unlockMask cfg a 1 ((sendEvent cfg a .manualOpen v).doors a) = 0 := by
      by_contra drove
      exact shut ⟨pressed.1,pressed.2,drove⟩
    have doors : ∀ j, (unlockDoor cfg a 1 (sendEvent cfg a .manualOpen v)).1.doors j = v.doors j := by
      intro j
      rw [unlockDoors,if_pos zero]
      rfl
    exact ⟨by rw [doors],by rw [doors],by rw [doors],by rw [doors]⟩
  · exact .refl v

theorem manualTimer (input) {v : State n} (opened : opensByHand cfg a input v) :
    ((inputManualOpen cfg a (inputDiff (v.doors a) input) input v).doors a).doorLockTimer = doorOpenTime := by
  obtain ⟨changed,pressed,drove⟩ := opened
  have nonzero : unlockMask cfg a 1 ((sendEvent cfg a .manualOpen v).doors a) ≠ 0 := drove
  unfold inputManualOpen
  rw [if_pos ⟨changed,pressed⟩,unlockTimer,if_neg nonzero,if_pos rfl]

/- A shut and calm reading leaves the blockade, except when the door was locked and the
stored input, marked as new, already had it shut. -/
theorem sensedCalm (pair : (cfg a).airLockPartnerLocal = some b) {v w : State n} (same : Same a b v w) {input : Byte}
    (shut : input.getLsbD 2 = true) (calm : input.getLsbD 1 = false) (locked : (v.doors a).doorLockTimer = 0) :
    sensed cfg a (inputDiff (v.doors a) input) input w b =
      if (v.doors a).lastInput.getLsbD 7 = true ∧ (v.doors a).lastInput.getLsbD 2 = true then 0
      else (v.doors b).airLockMask := by
  unfold sensed
  simp only [if_pos pair,calm,Bool.false_eq_true,and_false,if_false,shut,if_true,same.timer,same.input,same.air]
  by_cases new : (v.doors a).lastInput.getLsbD 7 = true
  · have diff : inputDiff (v.doors a) input = (v.doors a).lastInput := by
      rw [inputDiff,flagStateIsDiff,if_pos new]
    rw [diff]
    by_cases was : (v.doors a).lastInput.getLsbD 2 = true
    · simp only [was,new,if_true,and_self,locked,le_refl]
    · simp only [was,Bool.false_eq_true,if_false,and_false]
  · have diff : inputDiff (v.doors a) input = input ^^^ (v.doors a).lastInput := by
      rw [inputDiff,flagStateIsDiff,if_neg new]
    rw [Bool.not_eq_true] at new
    rw [diff,BitVec.getLsbD_xor,shut,new]
    cases (v.doors a).lastInput.getLsbD 2 <;> simp

theorem turnTimer (input) (v : State n) : ((checkDoorInputs cfg a input v).doors a).doorLockTimer =
    ((inputManualOpen cfg a (inputDiff (v.doors a) input) input v).doors a).doorLockTimer := by
  have alarm := fun s : State n => congrArg LockState.doorLockTimer ((hushedAlarm cfg a input s).lock a)
  unfold checkDoorInputs
  dsimp only
  refine (alarm _).trans ?_
  split
  · rw [senseDoors]
  · rename_i unchanged
    have none : inputDiff (v.doors a) input = 0 := by simpa using unchanged
    have quiet : ¬ (flag diManualOpen (inputDiff (v.doors a) input) = true ∧ flag diManualOpen input = true) := by
      rw [none]
      simp
    rw [inputManualOpen,if_neg quiet]

theorem turnInput (input) (v : State n) : ((checkDoorInputs cfg a input v).doors a).lastInput = input := by
  have alarm := fun s : State n => congrArg LockState.lastInput ((hushedAlarm cfg a input s).lock a)
  unfold checkDoorInputs
  dsimp only
  refine (alarm _).trans ?_
  split
  · rw [senseDoors]
    exact if_pos rfl
  · rename_i unchanged
    have none : inputDiff (v.doors a) input = 0 := by simpa using unchanged
    unfold inputDiff at none
    split at none
    · rename_i new
      rw [none] at new
      exact absurd new (by decide)
    · exact (BitVec.xor_eq_zero_iff.mp none).symm

theorem turnAir (pair : (cfg a).airLockPartnerLocal = some b) {input : Byte} {v : State n}
    (hand : ¬ opensByHand cfg a input v) (shut : input.getLsbD 2 = true) (calm : input.getLsbD 1 = false)
    (locked : (v.doors a).doorLockTimer = 0) : ((checkDoorInputs cfg a input v).doors b).airLockMask =
      if (v.doors a).lastInput.getLsbD 7 = true ∧ (v.doors a).lastInput.getLsbD 2 = true then 0
      else (v.doors b).airLockMask := by
  have alarm := fun s : State n => congrArg LockState.airLockMask ((hushedAlarm cfg a input s).lock b)
  unfold checkDoorInputs
  dsimp only
  refine (alarm _).trans ?_
  split
  · rw [senseDoors]
    exact sensedCalm cfg pair (manualSame cfg input hand) shut calm locked
  · rename_i unchanged
    have none : inputDiff (v.doors a) input = 0 := by simpa using unchanged
    unfold inputDiff at none
    split at none
    · rename_i new
      rw [none] at new
      exact absurd new (by decide)
    · rename_i old
      rw [flagStateIsDiff] at old
      rw [if_neg (fun h => old h.1)]

/- The turn of `a` in `check_inputs` keeps the property exactly when it misses nothing. -/
theorem turnLifted (pair : (cfg a).airLockPartnerLocal = some b) (input) {v : State n} (settled : Settled cfg a b v) :
    Lifted a b (checkDoorInputs cfg a input v) ↔ ¬ Missed cfg a b input v := by
  unfold Lifted Missed
  rw [turnTimer,turnInput]
  simp only [flagDoorClose,flagEmergencyOpen,flagStateIsDiff]
  by_cases hand : opensByHand cfg a input v
  · have timer := manualTimer cfg input hand
    constructor
    · exact fun _ missed => missed.2.2.2.2.2.1 hand
    · intro _ locked
      rw [timer] at locked
      exact absurd locked (by decide)
  · have timer := (manualSame cfg (b := b) input hand).timer
    rw [timer]
    constructor
    · intro lifted missed
      obtain ⟨locked,blocked,_,shut,calm,_,stored⟩ := missed
      have air := lifted locked shut calm
      rw [turnAir cfg pair hand shut calm locked,if_neg stored] at air
      exact blocked air
    · intro missed locked shut calm
      rw [turnAir cfg pair hand shut calm locked]
      split
      · rfl
      · rename_i stored
        by_contra blocked
        refine missed ⟨locked,blocked,?_,shut,calm,hand,stored⟩
        by_contra was
        obtain ⟨closed,quiet⟩ := not_or.mp was
        exact blocked (settled.lifted locked (by simpa using closed) (by simpa using quiet))

/- The turns of the other doors before and after it leave the pair alone. -/
theorem otherTurn (only : ∀ i, (cfg i).airLockPartnerLocal = some b → i = a) {i : Fin n} (ne : i ≠ a) (input)
    (s : State n) : Same a b s (checkDoorInputs cfg i input s) := by
  have other : (cfg i).airLockPartnerLocal ≠ some b := fun e => ne (only i e)
  refine runInvariant (Same a b s) ?_ (checkDoorInputsPath cfg i input s) (.refl s)
  intro u x v of same taken
  obtain rfl | rfl | rfl := of
  · exact same.trans (stillSame taken)
  · cases taken
    exact same.trans (unlockSame cfg ne other 1 u)
  · cases taken
    exact same.trans (senseSame cfg ne other _ input u)

theorem otherTurns (only : ∀ i, (cfg i).airLockPartnerLocal = some b → i = a) (inputs : Fin n → Byte) {doors : List (Fin n)}
    (none : a ∉ doors) (s : State n) : Same a b s (doors.foldl (fun s i => checkDoorInputs cfg i (inputs i) s) s) := by
  refine foldlInvariant (Same a b s) ?_ (.refl s)
  intro t i inside same
  exact same.trans (otherTurn cfg only (fun e => none (e ▸ inside)) (inputs i) t)

theorem turnsSettled (only : ∀ i, (cfg i).airLockPartnerLocal = some b → i = a)
    (pair : (cfg a).airLockPartnerLocal = some b) (pass : Pass n) (h : Waiting a b s ∨ Settled cfg a b s) :
    Settled cfg a b (doorTurns cfg pass s) := by
  refine doorTurnsOnce cfg a (fun s => Waiting a b s ∨ Settled cfg a b s) (Settled cfg a b) ?_ ?_ pass h
  · exact fun s h => h.elim (tickWaiting cfg) (tickSettled cfg pair)
  · intro x u v of taken
    have waiting : Waiting a b u → Waiting a b v ∨ Settled cfg a b v := by
      obtain rfl | ⟨i,ne,rfl⟩ | ⟨i,mask,rfl⟩ := of
      · exact fun h => .inl ((stillSame taken).waiting h)
      · cases taken
        exact fun h => .inl ((tickSame cfg ne (fun e => ne (only i e)) u).waiting h)
      · cases taken
        by_cases own : i = a
        · subst own
          exact unlockWaiting cfg mask
        · exact fun h => .inl ((unlockSame cfg own (fun e => own (only i e)) mask u).waiting h)
    have kept : Settled cfg a b u → Settled cfg a b v := by
      obtain rfl | ⟨i,ne,rfl⟩ | ⟨i,mask,rfl⟩ := of
      · exact (stillSame taken).settled
      · cases taken
        exact (tickSame cfg ne (fun e => ne (only i e)) u).settled
      · cases taken
        by_cases own : i = a
        · subst own
          exact unlockSettled cfg mask
        · exact (unlockSame cfg own (fun e => own (only i e)) mask u).settled
    exact ⟨fun h => h.elim waiting (fun h => .inr (kept h)),kept⟩

/- After its own turn `a` is as before but for the blockade, which is as `turnLifted` says. -/
theorem turnSettled (input) {v : State n} (settled : Settled cfg a b v)
    (lifted : Lifted a b (checkDoorInputs cfg a input v)) : Settled cfg a b (checkDoorInputs cfg a input v) := by
  have adm : ((checkDoorInputs cfg a input v).doors a).admDisableMask = 0 := by
    refine runInvariant (fun s => (s.doors a).admDisableMask = 0) ?_ (checkDoorInputsPath cfg a input v) settled.adm
    intro u x w of free taken
    obtain rfl | rfl | rfl := of
    · exact (congrArg LockState.admDisableMask (taken.lock a)).trans free
    · cases taken
      exact (unlockAdm cfg a 1 u a).trans free
    · cases taken
      rw [senseDoors]
      exact free
  have timer := turnTimer cfg (a := a) input v
  by_cases hand : opensByHand cfg a input v
  · rw [manualTimer cfg input hand] at timer
    obtain ⟨k,bit⟩ := maskNonzero.mp hand.2.2
    obtain ⟨low,high,_,full,_⟩ := (unlockMaskBit ..).mp bit
    exact openSettled cfg (maskNonzero.mpr ⟨k,(outputsBit ..).mpr ⟨low,high,full⟩⟩) timer adm
  · rw [(manualSame cfg (b := b) input hand).timer] at timer
    exact ⟨timer ▸ settled.low,adm,fun running => settled.drives (timer ▸ running),lifted⟩

/- One pass from such a state keeps the property exactly when it misses nothing. -/
theorem mainLoopSettled (only : ∀ i, (cfg i).airLockPartnerLocal = some b → i = a)
    (pair : (cfg a).airLockPartnerLocal = some b) (pass : Pass n) (h : Waiting a b s ∨ Settled cfg a b s) :
    (Lifted a b (mainLoop cfg pass s) ↔ Lifts cfg a b s (.mainLoop pass)) ∧
    (Lifts cfg a b s (.mainLoop pass) → Settled cfg a b (mainLoop cfg pass s)) := by
  obtain ⟨after,fresh,later,whole⟩ := splitOnce (List.nodup_finRange n) (List.mem_finRange a)
  have reached : Settled cfg a b (atTurn cfg pass a s) :=
    (otherTurns cfg only (inputOf pass) fresh _).settled (turnsSettled cfg only pair pass h)
  have rest : Same a b (checkDoorInputs cfg a (inputOf pass a) (atTurn cfg pass a s)) (mainLoop cfg pass s) := by
    have inputs : mainLoop cfg pass s =
        (List.finRange n).foldl (fun s i => checkDoorInputs cfg i (inputOf pass i) s) (doorTurns cfg pass s) := rfl
    rw [inputs,whole,List.foldl_append,List.foldl_cons]
    exact otherTurns cfg only (inputOf pass) later _
  have turn := turnLifted cfg pair (inputOf pass a) reached
  exact ⟨rest.lifted.trans turn,fun lifts => rest.settled (turnSettled cfg (inputOf pass a) reached (turn.mpr lifts))⟩

/- In a run of passes none of which misses the closing, `b` is free whenever `a` is
locked, closed and calm; the next pass keeps it so exactly when it misses nothing. -/
theorem blockadeLifted (only : ∀ i, (cfg i).airLockPartnerLocal = some b → i = a)
    (pair : (cfg a).airLockPartnerLocal = some b) (run : SystemRun cfg (Lifts cfg a b) (start cfg []) t) :
    Lifted a b t ∧ ∀ pass : Pass n, Lifted a b (mainLoop cfg pass t) ↔
      ¬ Missed cfg a b (inputOf pass a) (atTurn cfg pass a t) := by
  have settled : Waiting a b t ∨ Settled cfg a b t := by
    refine runInvariant (fun t => Waiting a b t ∨ Settled cfg a b t) ?_ run (.inl ⟨rfl,rfl,rfl⟩)
    rintro s x u lifts h rfl
    cases x with
    | mainLoop pass => exact .inr ((mainLoopSettled cfg only pair pass h).2 lifts)
    | _ => exact lifts.elim
  refine ⟨settled.elim (fun waiting _ _ _ => waiting.air) Settled.lifted,fun pass => ?_⟩
  exact (mainLoopSettled cfg only pair pass settled).1

/- Both doors shut, then A's button: B is blockaded for as long as A's countdown runs. -/
def pressA : List (Step 2) := [.mainLoop (quietPass 0x0c),.mainLoop (quietPass 0x0d)]
def elapseA : List (Step 2) := pressA ++ List.replicate 13 (.mainLoop (quietPass 0x0c))

theorem elapseALifted : (Lifted 0 1 (elapseA.foldl (step airlock) (start airlock [])) ∧
      ∀ pass : Pass 2, Lifted 0 1 (mainLoop airlock pass (elapseA.foldl (step airlock) (start airlock []))) ↔
        ¬ Missed airlock 0 1 (inputOf pass 0) (atTurn airlock pass 0 (elapseA.foldl (step airlock) (start airlock [])))) ∧
    ((pressA.foldl (step airlock) (start airlock [])).doors 1).airLockMask = 1 ∧
    ((elapseA.foldl (step airlock) (start airlock [])).doors 0).doorLockTimer = 0 ∧
    ((elapseA.foldl (step airlock) (start airlock [])).doors 0).lastInput = 0x0c ∧
    ((elapseA.foldl (step airlock) (start airlock [])).doors 1).airLockMask = 0 := by
  have run : SystemRun airlock (Lifts airlock 0 1) (start airlock []) (elapseA.foldl (step airlock) (start airlock [])) :=
    foldlAllowed (step airlock) elapseA (by decide +kernel)
  exact ⟨blockadeLifted airlock (by decide) rfl run,by decide +kernel,by decide +kernel,by decide +kernel,by decide +kernel⟩

/- Both doors shut, then A open: B is blockaded. -/
def shutA : State 2 := mainLoop airlock (quietPass 0x0c) (start airlock [])
def openA : State 2 := mainLoop airlock (quietPass 0x08) shutA

/- A closes again after its countdown ended; nothing lifts the blockade of B. -/
def closedA : State 2 := mainLoop airlock (quietPass 0x0c) openA

set_option maxRecDepth 10000 in
theorem closedAMissed : (∀ i, (airlock i).airLockPartnerLocal = some 1 → i = 0) ∧
    SystemRun airlock (fun _ a => ∃ inputs, a = .mainLoop (quietPass inputs)) (start airlock []) closedA ∧
    (closedA.doors 0).doorLockTimer = 0 ∧ (closedA.doors 0).lastInput = 0x0c ∧ (closedA.doors 1).airLockMask = 1 ∧
    ¬ Lifted 0 1 closedA := by
  have locked : (closedA.doors 0).doorLockTimer = 0 := by decide
  have shut : (closedA.doors 0).lastInput = 0x0c := by decide
  have blocked : (closedA.doors 1).airLockMask = 1 := by decide
  refine ⟨by decide,?_,locked,shut,blocked,?_⟩
  · exact runTrans (runOne (a := .mainLoop (quietPass 0x0c)) ⟨_,rfl⟩ rfl)
      (runTrans (runOne (a := .mainLoop (quietPass 0x08)) ⟨_,rfl⟩ rfl) (runOne (a := .mainLoop (quietPass 0x0c)) ⟨_,rfl⟩ rfl))
  · intro lifted
    have free := lifted locked (by rw [shut]; decide) (by rw [shut]; decide)
    rw [blocked] at free
    exact absurd free (by decide)

end AccessControl.AirlockRelease
