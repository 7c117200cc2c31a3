import AccessControl.InputTurns

/-! How often the alarm of a door is sent. The timer is zero while nothing is wrong; held, it
counts down from `resend` and is set back whenever it sends. -/
namespace AccessControl.AlarmCadence
open BitMask DoorTable Gpio DoorController RemoteControl Run Changes InputTurns

variable {n : Nat} (cfg : Config n) {i : Fin n}

def alarm (name : Bytes) : Effect n → Option Unit
  | .sendEvent (.doorOpenAlarm _) door => if door = some name then some () else none
  | _ => none

theorem alarmReads (name : Bytes) : Reads (alarm name) none i name where
  signal _ _ := rfl
  drive _ _ := rfl
  unlock _ := rfl
  called _ _ := rfl

def alarmBeat (w : Watch) (input : Byte) : List Unit := if (rearm resend w.alarmTimers (alarming input)).2 = 1 then [()] else []

theorem alarmTurn (name : Bytes) (w : Watch) (input : Byte) : turnOut (n := n) (alarm name) none name w input = alarmBeat w input := by
  have sent : ∀ mask, told (alarm (n := n) name) name (.doorOpenAlarm mask) = [()] := by
    intro mask
    unfold told alarm
    dsimp only
    rw [if_pos rfl]
    rfl
  have silent : ∀ event, (∀ mask, event ≠ .doorOpenAlarm mask) → told (alarm (n := n) name) name event = [] := by
    intro event other
    cases event <;> first | rfl | exact absurd rfl (other _)
  have sense : ∀ diff, senseOut (n := n) (alarm name) none name diff input = [] := by
    intro diff
    unfold senseOut
    simp only [apply_ite (told (alarm (n := n) name) name)]
    simp [silent]
  unfold turnOut alarmOut
  rw [sense,List.nil_append]
  simp only [sent]
  rfl

/- The events sent are the times the countdown ran out. -/
theorem alarmBeats (inputs : List Byte) (w : Watch) :
    (outputs alarmBeat w inputs).length = beats resend w.alarmTimers (inputs.map alarming) := by
  induction inputs generalizing w with
  | nil => rfl
  | cons input later ih =>
    have once : ∀ timer held, (if (rearm resend timer held).2 = 1 then [()] else []).length = (rearm resend timer held).2 := by
      intro timer held
      unfold rearm
      split
      · split
        · rfl
        · split <;> rfl
      · rfl
    rw [outputs,List.length_append,ih,List.map_cons,beats,alarmBeat,once]
    rfl

theorem timerLeft (inputs : List Byte) (w : Watch) :
    (inputs.foldl Watch.next w).alarmTimers = left resend w.alarmTimers (inputs.map alarming) := by
  induction inputs generalizing w with
  | nil => rfl
  | cons input later ih => exact ih (w.next input)

def alarms (i : Fin n) (s : State n) (steps : List (Step n)) : Nat := ((runLog cfg i s steps).filterMap (alarm (cfg i).doorName)).length

theorem alarmsBeats (steps : List (Step n)) (s : State n) :
    alarms cfg i s steps = beats resend (s.doors i).alarmTimers ((bytes i steps).map alarming) := by
  have turn : ∀ v input, Adds (alarm (cfg i).doorName) v.log (checkDoorInputs cfg i input v).log (alarmBeat (watch i v) input) := by
    intro v input
    rw [← alarmTurn (n := n) (cfg i).doorName]
    exact turnAdds (alarmReads _) v input
  rw [alarms,runOutputs cfg turn,alarmBeats]
  rfl

theorem timerAfter (steps : List (Step n)) (s : State n) : ((runState cfg s steps).doors i).alarmTimers =
    left resend (s.doors i).alarmTimers ((bytes i steps).map alarming) := by
  have whole := congrArg Watch.alarmTimers (runWatch cfg steps s i)
  rwa [timerLeft] at whole

/- No reading yet, or one that does not alarm. -/
def Calmed (inputs : List Byte) : Prop := ∀ input, inputs.getLast? = some input → alarming input = false

theorem calmedLeft {inputs : List Byte} (calmed : Calmed inputs) : left resend 0 (inputs.map alarming) = 0 := by
  rcases inputs.eq_nil_or_concat' with rfl | ⟨earlier,input,rfl⟩
  · rfl
  · rw [List.map_append,leftAppend,List.map_singleton,calmed input List.getLast?_concat]
    rfl

structure Cadence (i : Fin n) (s : State n) : Prop where
  range : ∀ steps, 0 ≤ ((runState cfg s steps).doors i).alarmTimers ∧ ((runState cfg s steps).doors i).alarmTimers ≤ alarmResendTimer
  held : ∀ before during, Calmed (bytes i before) → (∀ input ∈ bytes i during, alarming input = true) →
    alarms cfg i (runState cfg s before) during = ((bytes i during).length - 1) / alarmResendTimer.toNat
  quiet : ∀ before a input, inputOf i a = some input → alarming input = false →
    alarms cfg i (runState cfg s before) [a] = 0 ∧ ((runState cfg s (before ++ [a])).doors i).alarmTimers = 0

/- The alarm of every door, over all readings from the start. -/
theorem alarmCadence (rows : List StateRow) (i : Fin n) : Cadence cfg i (start cfg rows) := by
  have idle : ((start cfg rows).doors i).alarmTimers = 0 := congrArg Watch.alarmTimers (startWatch cfg rows i)
  refine ⟨fun steps => ?_,fun before during calmed held => ?_,fun before a input read calm => ⟨?_,?_⟩⟩
  · rw [timerAfter,idle]
    exact leftRange (Int.le_refl 0) (by decide) _
  · have all : (bytes i during).map alarming = List.replicate (bytes i during).length true :=
      List.eq_replicate_iff.mpr ⟨List.length_map _,fun bit mem => by
        obtain ⟨input,inside,rfl⟩ := List.mem_map.mp mem
        exact held input inside⟩
    rw [alarmsBeats,timerAfter,idle,calmedLeft calmed,all]
    cases (bytes i during).length with
    | zero => rfl
    | succ n => exact (heldBeats (by decide) n).2
  · rw [alarmsBeats,bytes,List.filterMap_cons_some read,List.filterMap_nil,List.map_singleton,calm]
    rfl
  · have one : (bytes i (before ++ [a])).map alarming = (bytes i before).map alarming ++ [false] := by
      rw [bytes,List.filterMap_append,List.filterMap_cons_some read,List.filterMap_nil,List.map_append,List.map_singleton,calm]
      rfl
    rw [timerAfter,one,leftAppend]
    rfl

end AccessControl.AlarmCadence
