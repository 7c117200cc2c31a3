import AccessControl.DoorTable

/-! The GPIO driver of the Orange Pi Zero. A reading that fails leaves the values
array as the caller's memset filled it. -/
namespace AccessControl.Gpio
open BitMask DoorTable

def diManualOpen : Byte := 0x01
def diIsEmergencyOpen : Byte := 0x02
def diIsDoorClose : Byte := 0x04
def diIsDoorLock : Byte := 0x08
def diStateIsDiff : Byte := 0x80

@[simp] theorem flagManualOpen (x : Byte) : flag diManualOpen x = x.getLsbD 0 := flagTwoPow 0 x
@[simp] theorem flagEmergencyOpen (x : Byte) : flag diIsEmergencyOpen x = x.getLsbD 1 := flagTwoPow 1 x
@[simp] theorem flagDoorClose (x : Byte) : flag diIsDoorClose x = x.getLsbD 2 := flagTwoPow 2 x
@[simp] theorem flagStateIsDiff (x : Byte) : flag diStateIsDiff x = x.getLsbD 7 := flagTwoPow 7 x

theorem closeExact (x : Byte) : x &&& diIsDoorClose = diIsDoorClose ↔ x.getLsbD 2 = true := by
  have bit : (x &&& diIsDoorClose).getLsbD 2 = x.getLsbD 2 := by
    rw [BitVec.getLsbD_and]
    simp [diIsDoorClose]
  constructor
  · intro h
    rw [← bit,h]
    rfl
  · intro h
    have only := BitVec.and_twoPow x 2
    rw [h] at only
    exact only

def doorOutputsNum : Nat := 4
def inputsDoors : Nat := 2
def inputsTypes : Nat := 4

/- The value of each output line last written, 0 to unlock and 1 to lock. -/
abbrev Lines := Fin doorOutputsNum → Option Bool

def setDoorState (operation : DoorOperations) (mask : Mask) (lines : Lines) : Lines :=
  let val := !decide (operation = .doUnlock)
  (List.finRange doorOutputsNum).foldl
    (fun lines i => if flag (1#32 <<< i.val) mask then Function.update lines i (some val) else lines) lines

/- What the board has been told by the calls of a log. -/
def lines {n : Nat} : List (Effect n) → Lines
  | [] => fun _ => none
  | .setDoorState operation mask :: older => setDoorState operation mask (lines older)
  | _ :: older => lines older

theorem setDoorStateLine (operation mask lines) (i : Fin doorOutputsNum) :
    setDoorState operation mask lines i =
      if mask.getLsbD i then some (!decide (operation = .doUnlock)) else lines i := by
  have bit : ∀ k, flag (1#32 <<< k) mask = mask.getLsbD k := by
    intro k
    rw [← BitVec.twoPow_eq,flagTwoPow]
  have loop : ∀ (xs : List (Fin doorOutputsNum)) (start : Lines),
      xs.foldl (fun lines j => if flag (1#32 <<< j.val) mask then
        Function.update lines j (some (!decide (operation = .doUnlock))) else lines) start i =
      if i ∈ xs ∧ mask.getLsbD i then some (!decide (operation = .doUnlock)) else start i := by
    intro xs
    induction xs with
    | nil => simp
    | cons j xs ih =>
      intro start
      rw [List.foldl_cons,ih,bit]
      by_cases same : i = j
      · subst same
        by_cases on : mask.getLsbD i = true <;> simp [on]
      · by_cases on : mask.getLsbD j = true <;> simp [on,same]
  simpa [setDoorState] using loop (List.finRange doorOutputsNum) lines

/- Every line the board has shows the driven value of its bit. -/
theorem linesDriven {n : Nat} (log : List (Effect n)) (i : Fin doorOutputsNum) :
    lines log i = (driven log i).map (fun operation => !decide (operation = .doUnlock)) := by
  induction log with
  | nil => rfl
  | cons e older ih =>
    cases e with
    | setDoorState operation mask =>
      rw [lines,setDoorStateLine,driven]
      split
      · rfl
      · exact ih
    | _ => exact ih

/- One call of `gpiod_ctxless_get_value_multiple`: the eight values, or none on an error. -/
abbrev Reading := Option (Fin (inputsDoors * inputsTypes) → Bool)

def inputsValues : Reading → Fin (inputsDoors * inputsTypes) → BitVec 32
  | none, _ => 0x13131313
  | some values, k => if values k then 1 else 0

def inputByte (values : Fin (inputsDoors * inputsTypes) → BitVec 32) (i : Fin inputsDoors) : Byte :=
  (List.finRange inputsTypes).foldl (fun byte j =>
    byte ||| (values ⟨i.val * 4 + j.val,by have := i.isLt; have := j.isLt; unfold inputsDoors inputsTypes at *; omega⟩ <<<
      j.val).setWidth 8) 0

/- The loop stops when no door is asked for any more or the board has no more inputs. -/
def getInputState {n : Nat} (reading : Reading) (values : Fin n → Byte) (mask : Mask) : Fin n → Byte :=
  ((List.finRange inputsDoors).foldl (fun (state : (Fin n → Byte) × Mask) i =>
    if state.2 = 0 then state else
      (if flag 0x01 state.2 then
        fun k => if k.val = i.val then inputByte (inputsValues reading) i else state.1 k
       else state.1,
       state.2.sshiftRight 1)) (values,mask)).1

end AccessControl.Gpio
