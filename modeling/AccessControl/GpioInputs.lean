import AccessControl.AirlockRelease
import AccessControl.AirlockSources

/-! What a pass over the inputs rests on: the bytes the driver has written, those it has
not, and those it writes when the lines could not be read. -/
namespace AccessControl.GpioInputs
open BitMask DoorTable Gpio DoorController RemoteControl Run LockSteps LockActs AirlockRelease AirlockSources

variable {n : Nat} (cfg : Config n) {s t : State n}

/- The mask `check_inputs` hands over, a bit for each door. -/
def asked (n : Nat) : Mask := ~~~(~~~0#32 <<< n)

theorem askedBit {k : Nat} (wide : k < 32) : (asked n).getLsbD k = decide (k < n) := by
  unfold asked
  rw [BitVec.getLsbD_not,BitVec.getLsbD_shiftLeft,BitVec.getLsbD_not]
  by_cases low : k < n
  · simp [wide,low]
  · have rest : k - n < 32 := by omega
    simp [wide,low,rest]

/- The driver writes the bytes of the doors it has lines for, and no others. -/
theorem inputStateAt (reading) (inputVal : Fin n → Byte) (i : Fin n) : getInputState reading inputVal (asked n) i =
    if own : i.val < inputsDoors then inputByte (inputsValues reading) ⟨i.val,own⟩ else inputVal i := by
  have doors : List.finRange inputsDoors = [⟨0,by decide⟩,⟨1,by decide⟩] := rfl
  have some' : 0 < n := i.pos
  have bit : ∀ x : Mask, flag 0x01 x = x.getLsbD 0 := flagTwoPow 0
  have low : (asked n).getLsbD 0 = true := by
    rw [askedBit (by decide)]
    simpa using some'
  have nonzero : asked n ≠ 0 := maskNonzero.mpr ⟨0,low⟩
  have second : ((asked n).sshiftRight 1).getLsbD 0 = decide (1 < n) := by
    rw [BitVec.getLsbD_sshiftRight]
    simpa using askedBit (n := n) (k := 1) (by decide)
  have more : 1 < n → (asked n).sshiftRight 1 ≠ 0 := fun two => maskNonzero.mpr ⟨0,second.trans (decide_eq_true two)⟩
  unfold getInputState
  rw [doors]
  simp only [List.foldl_cons,List.foldl_nil,bit,if_neg nonzero,low,if_true,second]
  obtain ⟨i,inside⟩ := i
  dsimp only
  rcases i with _ | _ | i
  · rw [dif_pos (by decide)]
    split
    · rfl
    · split <;> rfl
  · rw [dif_pos (by decide),if_neg (more inside),decide_eq_true inside]
    rfl
  · have far : ¬ i + 1 + 1 < inputsDoors := by unfold inputsDoors; omega
    rw [dif_neg far]
    split
    · rfl
    · split <;> rfl

/- The turn of one door in the pass. -/
theorem otherInput {i a : Fin n} (ne : a ≠ i) (input) (v : State n) :
    ((checkDoorInputs cfg i input v).doors a).lastInput = (v.doors a).lastInput := by
  refine runInvariant (fun u => (u.doors a).lastInput = (v.doors a).lastInput) ?_ (checkDoorInputsPath cfg i input v) rfl
  rintro u act w (rfl | rfl | rfl) kept taken
  · exact (congrArg LockState.lastInput (taken.lock a)).trans kept
  · obtain rfl : w = _ := taken
    rw [unlockDoors]
    split <;> exact kept
  · obtain rfl : w = _ := taken
    rw [senseDoors]
    exact (if_neg ne).trans kept

theorem turnGrows (i : Fin n) (input) (v : State n) : Grows (fun _ => True) v.log (checkDoorInputs cfg i input v).log := by
  refine runInvariant (fun u => Grows (fun _ => True) v.log u.log) ?_ (checkDoorInputsPath cfg i input v) (growsRefl _)
  rintro u act w (rfl | rfl | rfl) grown taken
  · exact growsTrans grown (growsMono (fun _ _ => trivial) taken.log)
  · obtain rfl : w = _ := taken
    exact growsTrans grown (openGrows cfg i 1 u)
  · obtain rfl : w = _ := taken
    exact growsTrans grown (growsMono (fun _ _ => trivial) (senseLog ..))

theorem passTurns (reading) (inputVal : Fin n → Byte) (s : State n) : checkInputs cfg reading inputVal s =
    (List.finRange n).foldl (fun s i => checkDoorInputs cfg i (getInputState reading inputVal (asked n) i) s) s := rfl

/- After the pass each door holds the byte it was given. -/
theorem passInput (reading) (inputVal : Fin n → Byte) (s : State n) (i : Fin n) :
    ((checkInputs cfg reading inputVal s).doors i).lastInput = getInputState reading inputVal (asked n) i := by
  rw [passTurns]
  refine foldlEach (fun _ _ => True) (fun i (s : State n) => (s.doors i).lastInput = getInputState reading inputVal (asked n) i)
    (List.nodup_finRange n) ?_ ?_ (fun _ _ => trivial) i (List.mem_finRange i)
  · exact fun (s : State n) i _ => turnInput cfg _ s
  · exact fun (s : State n) i j ne => ⟨fun _ => trivial,fun held => (otherInput cfg (Ne.symm ne) _ s).trans held⟩

/- The states, the calls and the events after the pass do not depend on what the array held
before it, just where the board has lines for every door. -/
theorem readsOwnBytes (values : Fin (inputsDoors * inputsTypes) → Bool) (s : State n) :
    (∀ inputVal inputVal', checkInputs cfg (some values) inputVal s = checkInputs cfg (some values) inputVal' s) ↔ n ≤ inputsDoors := by
  constructor
  · intro same
    by_contra more
    have third : inputsDoors < n := by omega
    have held : ∀ byte : Byte, ((checkInputs cfg (some values) (fun _ => byte) s).doors ⟨inputsDoors,third⟩).lastInput = byte := by
      intro byte
      rw [passInput,inputStateAt,dif_neg (Nat.lt_irrefl inputsDoors)]
    have zero := held 0
    rw [same (fun _ => 0) (fun _ => 1),held 1] at zero
    exact absurd zero (by decide)
  · intro few inputVal inputVal'
    have bytes : getInputState (some values) inputVal (asked n) = getInputState (some values) inputVal' (asked n) := by
      funext i
      have own : i.val < inputsDoors := by have := i.isLt; omega
      rw [inputStateAt,inputStateAt,dif_pos own,dif_pos own]
    rw [passTurns,passTurns,bytes]

def idle : Fin (inputsDoors * inputsTypes) → Bool := fun k => (0x0c : Byte).getLsbD (k.val % inputsTypes)

/- A third door has no lines: what lies in the array is its button. -/
set_option maxRecDepth 10000 in
theorem strayButtonOpens : ¬ Unlocked 2 (checkInputs lobby (some idle) (fun _ => 0x0c) (start lobby [])).log ∧
    Unlocked 2 (checkInputs lobby (some idle) (fun _ => 0x0d) (start lobby [])).log := by
  constructor <;> decide +kernel

/- Neither a call of `unlock_door` nor an event of the button or of the emergency line. -/
def Calm : Effect n → Prop
  | .unlockDoor .. => False
  | .sendEvent .manualOpen _ => False
  | .sendEvent .doorEmergencyActive _ => False
  | .sendEvent .doorEmergencyInactive _ => False
  | _ => True

structure Inert (s t : State n) : Prop where
  log : Grows Calm s.log t.log
  input : ∀ i, (t.doors i).lastInput = (s.doors i).lastInput
  air : ∀ i, (t.doors i).airLockMask = (s.doors i).airLockMask

/- The pattern of the memset, shifted and joined, is a byte of ones. -/
theorem failedByte (i : Fin inputsDoors) : inputByte (inputsValues none) i = 0xff := by
  revert i
  decide +kernel

/- Read twice, the byte of ones passes for a button pressed since the last pass. -/
theorem onesPress (i : Fin n) (v : State n) (ones : (v.doors i).lastInput = 0xff) :
    Grows (fun _ => True) (.sendEvent .manualOpen (some (cfg i).doorName) :: v.log) (checkDoorInputs cfg i 0xff v).log := by
  have diff : inputDiff (v.doors i) 0xff = 0xff := by
    rw [inputDiff,ones]
    decide
  have pressed : inputManualOpen cfg i 0xff 0xff v = (unlockDoor cfg i 1 (sendEvent cfg i .manualOpen v)).1 :=
    if_pos (by decide)
  unfold checkDoorInputs
  rw [diff]
  dsimp only
  rw [if_pos (by decide),pressed]
  refine growsTrans (openGrows cfg i 1 (sendEvent cfg i .manualOpen v)) ?_
  exact growsMono (fun _ _ => trivial) (growsTrans (senseLog ..) (hushedAlarm cfg i 0xff _).still.log)

/- Whatever the doors were like, a reading that fails is not taken as none: either it changes
the input of the first door, or that is the byte of ones already and its button is pressed. -/
theorem failedReadInert (inputVal : Fin n → Byte) (s : State n) : Inert s (checkInputs cfg none inputVal s) ↔ n = 0 := by
  constructor
  · intro inert
    cases n with
    | zero => rfl
    | succ m =>
      exfalso
      have own : (0 : Fin (m + 1)).val < inputsDoors := by
        rw [Fin.val_zero]
        decide
      have byte : getInputState none inputVal (asked (m + 1)) 0 = 0xff := by rw [inputStateAt,dif_pos own,failedByte]
      have ones : (s.doors 0).lastInput = 0xff := by
        rw [← inert.input 0,passInput,byte]
      have first : Grows (fun _ => True) (.sendEvent .manualOpen (some (cfg 0).doorName) :: s.log)
          (checkInputs cfg none inputVal s).log := by
        rw [passTurns,List.finRange_succ,List.foldl_cons,byte]
        let pressed : Effect (m + 1) := .sendEvent .manualOpen (some (cfg 0).doorName)
        refine foldlInvariant (fun v : State (m + 1) => Grows (fun _ => True) (pressed :: s.log) v.log) ?_ (onesPress cfg 0 s ones)
        exact fun v i _ grown => growsTrans grown (turnGrows cfg i _ v)
      obtain ⟨later,whole,_⟩ := first
      obtain ⟨added,whole',calm⟩ := inert.log
      have both : (later ++ [.sendEvent .manualOpen (some (cfg 0).doorName)]) ++ s.log = added ++ s.log := by
        rw [← whole',whole,List.append_assoc]
        rfl
      have same := List.append_cancel_right both
      exact calm _ (same ▸ List.mem_append_right _ (List.mem_singleton.mpr rfl))
  · rintro rfl
    exact ⟨growsRefl _,fun i => i.elim0,fun i => i.elim0⟩

/- With every door shut and quiet the pass unlocks one as if its button were pressed. -/
set_option maxRecDepth 10000 in
theorem failedReadOpens : (∀ i, ((step lobby (start lobby []) settle).doors i).lastInput = 0x0c) ∧
    Unlocked 0 (checkInputs lobby none (fun _ => 0) (step lobby (start lobby []) settle)).log ∧
    ¬ Inert (step lobby (start lobby []) settle) (checkInputs lobby none (fun _ => 0) (step lobby (start lobby []) settle)) := by
  refine ⟨by decide +kernel,by decide +kernel,fun inert => ?_⟩
  have input := inert.input 0
  exact absurd input (by decide +kernel)

end AccessControl.GpioInputs
