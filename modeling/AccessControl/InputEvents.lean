import AccessControl.InputTurns

/-! The events of a door's lines against the lines themselves. From the byte that counts as
different in every line, what is sent for a line is the sequence of its changes, and the button
counts where it goes down. -/
namespace AccessControl.InputEvents
open BitMask DoorTable Gpio DoorController RemoteControl Run GpioInputs Changes InputTurns
open AirlockSources (lobby)

variable {n : Nat} (cfg : Config n) {i : Fin n}

/- The readings that a run takes of the board's lines, and one line of one door in them. -/
def readingOf : Step n → Option Reading
  | .mainLoop pass => some pass.reading
  | .checkInputs reading _ => some reading
  | _ => none

def readings (steps : List (Step n)) : List Reading := steps.filterMap readingOf

def level (own : i.val < inputsDoors) (k : Fin inputsTypes) (reading : Reading) : Option Bool :=
  reading.map fun values => values ⟨i.val * 4 + k.val,by have := k.isLt; unfold inputsDoors inputsTypes at *; omega⟩

def levels (own : i.val < inputsDoors) (k : Fin inputsTypes) (steps : List (Step n)) : List Bool := (readings steps).filterMap (level own k)

/- The lines whose changes are events either way. -/
inductive Line where | emergency | doorClose | doorLock

def Line.index : Line → Fin inputsTypes
  | .emergency => ⟨1,by decide⟩
  | .doorClose => ⟨2,by decide⟩
  | .doorLock => ⟨3,by decide⟩

def Line.on : Line → Event
  | .emergency => .doorEmergencyActive
  | .doorClose => .doorIsClose
  | .doorLock => .doorIsLock

def Line.off : Line → Event
  | .emergency => .doorEmergencyInactive
  | .doorClose => .doorIsOpen
  | .doorLock => .doorIsUnlock

/- What an effect states of a line, whether it is the event of the button, and whether it is a call of `unlock_door`. -/
def stated (name : Bytes) (line : Line) : Effect n → Option Bool
  | .sendEvent event door =>
    if door = some name then if event = line.on then some true else if event = line.off then some false else none
    else none
  | _ => none

def pressed (name : Bytes) : Effect n → Option Unit
  | .sendEvent event door => if door = some name ∧ event = .manualOpen then some () else none
  | _ => none

def called : Effect n → Option Unit
  | .unlockDoor .. => some ()
  | _ => none

/- The byte of a reading holds the four lines of the door and nothing above them. -/
theorem byteLevel (own : i.val < inputsDoors) (values : Fin (inputsDoors * inputsTypes) → Bool) :
    (∀ k : Fin inputsTypes, level own k (some values) = some ((inputByte (inputsValues (some values)) ⟨i.val,own⟩).getLsbD k)) ∧
      (inputByte (inputsValues (some values)) ⟨i.val,own⟩).getLsbD 7 = false := by
  have types : List.finRange inputsTypes = [⟨0,by decide⟩,⟨1,by decide⟩,⟨2,by decide⟩,⟨3,by decide⟩] := rfl
  have joined : ∀ a b c d : Bool, ∀ k : Fin 4,
      (((((0 : Byte) ||| ((if a then 1 else 0 : BitVec 32) <<< 0).setWidth 8) ||| ((if b then 1 else 0 : BitVec 32) <<< 1).setWidth 8) |||
        ((if c then 1 else 0 : BitVec 32) <<< 2).setWidth 8) ||| ((if d then 1 else 0 : BitVec 32) <<< 3).setWidth 8).getLsbD k =
      [a,b,c,d].get k := by decide +kernel
  have above : ∀ a b c d : Bool,
      (((((0 : Byte) ||| ((if a then 1 else 0 : BitVec 32) <<< 0).setWidth 8) ||| ((if b then 1 else 0 : BitVec 32) <<< 1).setWidth 8) |||
        ((if c then 1 else 0 : BitVec 32) <<< 2).setWidth 8) ||| ((if d then 1 else 0 : BitVec 32) <<< 3).setWidth 8).getLsbD 7 =
      false := by decide +kernel
  unfold inputByte
  rw [types]
  refine ⟨fun k => ?_,above _ _ _ _⟩
  refine congrArg some (Eq.trans ?_ (joined _ _ _ _ k).symm)
  obtain ⟨_ | _ | _ | _ | k,low⟩ := k <;> first | rfl | exact absurd low (by unfold inputsTypes; omega)

/- With every reading taken, the bytes of the door are its lines, reading by reading. -/
theorem bytesLevels (own : i.val < inputsDoors) {steps : List (Step n)} (taken : ∀ reading ∈ readings steps, reading.isSome) :
    (∀ k : Fin inputsTypes, levels own k steps = (bytes i steps).map (fun input => input.getLsbD k)) ∧
      ∀ input ∈ bytes i steps, input.getLsbD 7 = false := by
  have one : ∀ a : Step n, inputOf i a = (readingOf a).map (fun reading => inputByte (inputsValues reading) ⟨i.val,own⟩) := by
    intro a
    cases a with
    | mainLoop pass => exact congrArg some ((inputStateAt pass.reading pass.inputVal i).trans (dif_pos own))
    | checkInputs reading inputVal => exact congrArg some ((inputStateAt reading inputVal i).trans (dif_pos own))
    | checkNetwork datagram db => rfl
    | processUserInfo r cb => rfl
  have read : bytes i steps = (readings steps).map (fun reading => inputByte (inputsValues reading) ⟨i.val,own⟩) := by
    unfold bytes readings
    rw [List.map_filterMap]
    exact List.filterMap_congr fun a _ => one a
  rw [read]
  constructor
  · intro k
    unfold levels
    rw [List.map_map,← List.filterMap_eq_map]
    refine List.filterMap_congr fun reading mem => ?_
    obtain ⟨values,taken⟩ := Option.isSome_iff_exists.mp (taken reading mem)
    rw [taken]
    exact (byteLevel own values).1 k
  · intro input mem
    obtain ⟨reading,found,rfl⟩ := List.mem_map.mp mem
    obtain ⟨values,taken⟩ := Option.isSome_iff_exists.mp (taken reading found)
    rw [taken]
    exact (byteLevel own values).2

/- Against a reading that was taken the lines that differ are those that changed. -/
theorem diffBit {last : Byte} (known : last.getLsbD 7 = false) (input : Byte) (k : Nat) :
    (diffOf last input).getLsbD k = (input.getLsbD k ^^ last.getLsbD k) := by
  unfold diffOf
  rw [flagStateIsDiff,known,if_neg Bool.false_ne_true,BitVec.getLsbD_xor]

/- Against the byte of the start they are all four. -/
theorem freshBit (k : Fin inputsTypes) (input : Byte) : (diffOf (diStateIsDiff ||| 0x0f) input).getLsbD k = true := by
  have set : ∀ k : Fin inputsTypes, (diStateIsDiff ||| 0x0f : Byte).getLsbD k = true := by decide
  have diff : flag diStateIsDiff (diStateIsDiff ||| 0x0f) = true := by decide
  unfold diffOf
  rw [if_pos diff]
  exact set k

def lineOut (k : Fin inputsTypes) (w : Watch) (input : Byte) : List Bool :=
  if (diffOf w.lastInput input).getLsbD k = true then [input.getLsbD k] else []

def buttonOut (w : Watch) (input : Byte) : List Unit :=
  if (diffOf w.lastInput input).getLsbD 0 = true ∧ input.getLsbD 0 = true then [()] else []

section
variable {w : Watch} {inputs : List Byte}

theorem lineKnown (k : Fin inputsTypes) (low : ∀ input ∈ inputs, input.getLsbD 7 = false) (known : w.lastInput.getLsbD 7 = false) :
    w.lastInput.getLsbD k :: outputs (lineOut k) w inputs = (inputs.map (fun input => input.getLsbD k)).destutter' (· ≠ ·) (w.lastInput.getLsbD k) := by
  induction inputs generalizing w with
  | nil => rfl
  | cons input later ih =>
    obtain ⟨now,later'⟩ := List.forall_mem_cons.mp low
    have rest := ih later' (w := w.next input) now
    have bit := diffBit known input k
    rw [outputs,lineOut,bit,List.map_cons]
    by_cases same : w.lastInput.getLsbD k = input.getLsbD k
    · rw [List.destutter'_cons_neg _ (not_not.mpr same),same,Bool.xor_self,if_neg Bool.false_ne_true,List.nil_append]
      exact rest
    · have differs : (input.getLsbD k ^^ w.lastInput.getLsbD k) = true := bne_iff_ne.mpr (Ne.symm same)
      rw [List.destutter'_cons_pos _ same,if_pos differs,List.singleton_append]
      exact congrArg _ rest

/- All that is sent for a line from the start are its changes. -/
theorem lineFresh (k : Fin inputsTypes) (low : ∀ input ∈ inputs, input.getLsbD 7 = false) (fresh : w.lastInput = diStateIsDiff ||| 0x0f) :
    outputs (lineOut k) w inputs = (inputs.map (fun input => input.getLsbD k)).destutter (· ≠ ·) := by
  cases inputs with
  | nil => rfl
  | cons input later =>
    obtain ⟨now,later'⟩ := List.forall_mem_cons.mp low
    rw [outputs,lineOut,fresh,if_pos (freshBit k input)]
    exact lineKnown k later' (w := w.next input) now

theorem buttonKnown (low : ∀ input ∈ inputs, input.getLsbD 7 = false) (known : w.lastInput.getLsbD 7 = false) :
    (outputs buttonOut w inputs).length = rising (w.lastInput.getLsbD 0) (inputs.map (fun input => input.getLsbD 0)) := by
  induction inputs generalizing w with
  | nil => rfl
  | cons input later ih =>
    obtain ⟨now,later'⟩ := List.forall_mem_cons.mp low
    have rest := ih later' (w := w.next input) now
    have down : ((diffOf w.lastInput input).getLsbD 0 = true ∧ input.getLsbD 0 = true) ↔
        input.getLsbD 0 = true ∧ w.lastInput.getLsbD 0 = false := by
      rw [diffBit known input 0]
      cases input.getLsbD 0 <;> cases w.lastInput.getLsbD 0 <;> decide
    rw [outputs,List.length_append,rest,List.map_cons,rising,buttonOut]
    simp only [down]
    congr 1
    split <;> rfl

/- From the start the button counts as up. -/
theorem buttonFresh (low : ∀ input ∈ inputs, input.getLsbD 7 = false) (fresh : w.lastInput = diStateIsDiff ||| 0x0f) :
    (outputs buttonOut w inputs).length = rising false (inputs.map (fun input => input.getLsbD 0)) := by
  cases inputs with
  | nil => rfl
  | cons input later =>
    obtain ⟨now,later'⟩ := List.forall_mem_cons.mp low
    have rest := buttonKnown later' (w := w.next input) now
    have differs : (diffOf w.lastInput input).getLsbD 0 = true := by
      rw [fresh]
      exact freshBit ⟨0,by decide⟩ input
    rw [outputs,List.length_append,rest,List.map_cons,rising,buttonOut]
    simp only [differs,true_and,and_true]
    refine congrArg₂ _ ?_ rfl
    split <;> rfl

end
/- How the events of a turn read. -/
theorem statedReads (name : Bytes) (line : Line) : Reads (stated name line) none i name where
  signal _ _ := rfl
  drive _ _ := rfl
  unlock _ := by cases line <;> simp [stated,Line.on,Line.off]
  called _ _ := rfl

theorem pressedReads (name : Bytes) : Reads (pressed name) none i name where
  signal _ _ := rfl
  drive _ _ := rfl
  unlock _ := by simp [pressed]
  called _ _ := rfl

theorem calledReads (name : Bytes) : Reads called (some ()) i name where
  signal _ _ := rfl
  drive _ _ := rfl
  unlock _ := rfl
  called _ _ := rfl

theorem statedTold (name : Bytes) (line : Line) (event : Event) : told (stated (n := n) name line) name event =
    if event = line.on then [true] else if event = line.off then [false] else [] := by
  unfold told stated
  dsimp only
  rw [if_pos rfl]
  split
  · rfl
  · split <;> rfl

/- One turn states of a line just its change. -/
theorem statedTurn (name : Bytes) (line : Line) (w : Watch) (input : Byte) :
    turnOut (n := n) (stated name line) none name w input = lineOut line.index w input := by
  have value : ∀ bit : Bool, (if bit = true then [true] else [false]) = [bit] := by decide
  unfold turnOut senseOut alarmOut lineOut
  simp only [apply_ite (told (stated (n := n) name line) name),statedTold]
  cases line <;> simp [Line.on,Line.off,Line.index,value]

theorem pressedTold (name : Bytes) (event : Event) : told (pressed (n := n) name) name event = if event = .manualOpen then [()] else [] := by
  unfold told pressed
  simp only [true_and]
  split <;> rfl

theorem pressedTurn (name : Bytes) (w : Watch) (input : Byte) : turnOut (n := n) (pressed name) none name w input = buttonOut w input := by
  unfold turnOut senseOut alarmOut buttonOut
  simp only [apply_ite (told (pressed (n := n) name) name),pressedTold]
  simp

theorem calledTurn (name : Bytes) (w : Watch) (input : Byte) : turnOut (n := n) called (some ()) name w input = buttonOut w input := by
  have silent : ∀ event, told (called (n := n)) name event = [] := fun _ => rfl
  unfold turnOut senseOut alarmOut buttonOut
  simp only [silent,ite_self,List.append_nil,List.nil_append]
  rfl

/- The part of the log that a door's turns make, against its lines. -/
structure Replayed (own : i.val < inputsDoors) (s : State n) (steps : List (Step n)) : Prop where
  part : (runLog cfg i s steps).Sublist (slice s.log (runState cfg s steps).log)
  last : ∀ line : Line, ((runLog cfg i s steps).filterMap (stated (cfg i).doorName line)).getLast? = (levels own line.index steps).getLast?
  alternate : ∀ line : Line, List.IsChain (· ≠ ·) ((runLog cfg i s steps).filterMap (stated (cfg i).doorName line))
  presses : ((runLog cfg i s steps).filterMap (pressed (cfg i).doorName)).length = rising false (levels own ⟨0,by decide⟩ steps)
  calls : ((runLog cfg i s steps).filterMap called).length = rising false (levels own ⟨0,by decide⟩ steps)

/- In every run the events of a door the board has lines for replay its readings. -/
theorem replaysInputs (own : i.val < inputsDoors) (s : State n) (fresh : (s.doors i).lastInput = diStateIsDiff ||| 0x0f) (steps : List (Step n))
    (taken : ∀ reading ∈ readings steps, reading.isSome) : Replayed cfg own s steps := by
  obtain ⟨read,low⟩ := bytesLevels own taken
  have lines' : ∀ line : Line, (runLog cfg i s steps).filterMap (stated (cfg i).doorName line) =
      (levels own line.index steps).destutter (· ≠ ·) := by
    intro line
    have turn : ∀ v input, Adds (stated (cfg i).doorName line) v.log (checkDoorInputs cfg i input v).log (lineOut line.index (watch i v) input) := by
      intro v input
      rw [← statedTurn (n := n) (cfg i).doorName line]
      exact turnAdds (statedReads _ line) v input
    rw [runOutputs cfg turn,lineFresh line.index low fresh,read]
  have button : ∀ (f : Effect n → Option Unit),
      (∀ v input, Adds f v.log (checkDoorInputs cfg i input v).log (buttonOut (watch i v) input)) →
      ((runLog cfg i s steps).filterMap f).length = rising false (levels own ⟨0,by decide⟩ steps) := by
    intro f turn
    rw [runOutputs cfg turn,buttonFresh low fresh,read]
  refine ⟨(runLogPart cfg steps s).2,fun line => ?_,fun line => ?_,button _ fun v input => ?_,button _ fun v input => ?_⟩
  · rw [lines' line]
    exact destutterLast _
  · rw [lines' line]
    exact List.isChain_destutter _ _
  · rw [← pressedTurn (n := n) (cfg i).doorName]
    exact turnAdds (pressedReads _) v input
  · rw [← calledTurn (n := n) (cfg i).doorName]
    exact turnAdds (calledReads _) v input

/- Three readings of the lobby's first door: idle, the button down, idle again. -/
def pushed : Fin (inputsDoors * inputsTypes) → Bool := fun k => k.val = 0 || idle k

def pushing : List (Step 3) :=
  [.checkInputs (some idle) (fun _ => 0),.checkInputs (some pushed) (fun _ => 0),.checkInputs (some idle) (fun _ => 0)]

theorem pushingTaken : ∀ reading ∈ readings pushing, reading.isSome := by
  have taken : readings pushing = [some idle,some pushed,some idle] := rfl
  rw [taken]
  simp

theorem buttonReplayed : Replayed lobby (show (0 : Fin 3).val < inputsDoors by decide) (start lobby []) pushing :=
  replaysInputs lobby (show (0 : Fin 3).val < inputsDoors by decide) (start lobby []) (startFresh lobby [] 0) pushing pushingTaken

end AccessControl.InputEvents
