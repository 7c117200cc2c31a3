import AccessControl.EventShell
import AccessControl.RemoteControl

/-! The buffers of an event report: where its name is looked up, where the pieces of its command
are written, and how long its log line says it is. -/
namespace AccessControl.EventBounds
open BitMask DoorTable Numeral Traced EventSend EventShell
open RemoteControl (hex)

/- What each event writes to the log. -/
def accessFor : Bytes := ascii ['A','C','C','E','S','S',' ','F','O','R',' ']
def doorMaskNote (mask : Mask) : Bytes := ascii [' ','(','d','o','o','r','_','m','a','s','k','=','0','x'] ++ hex mask.toNat ++ ascii [')']
def deniedNote : Event → Bytes
  | .authErrExpire .. => ascii [' ','e','x','p','i','r','e']
  | .authErrPin .. => ascii [' ','i','n','v','a','l','i','d',' ','p','i','n']
  | _ => []

def logLine (event : Event) (door : Option Bytes) : Bytes :=
  match event with
  | .authOk mask user card => accessFor ++ shown door ++ doorMaskNote mask ++ ascii [' ','G','R','A','N','T','E','D',' ','F','O','R',':',' '] ++
      shown user ++ ascii [' ','(','c','a','r','d','=','0','x'] ++ shown card ++ ascii [')','\n']
  | .authErr (some user) card | .authErrExpire (some user) card | .authErrPin (some user) card =>
      accessFor ++ shown door ++ ascii [' ','D','E','N','I','E','D',' ','F','O','R',':',' '] ++ user ++
      ascii [' ','(','c','a','r','d','=','0','x'] ++ shown card ++ ascii [')'] ++ deniedNote event ++ ascii ['\n']
  | .authErr none card | .authErrExpire none card | .authErrPin none card =>
      accessFor ++ shown door ++ ascii [' ','D','E','N','I','E','D',' ','F','O','R',':',' ','c','a','r','d','=','0','x'] ++ shown card ++ ascii ['\n']
  | .manualOpen => ascii ['M','A','N','U','A','L',' ','O','P','E','N',' '] ++ shown door ++ ascii ['\n']
  | .doorUnlock mask => ascii ['D','O','O','R',' ','U','N','L','O','C','K',' '] ++ shown door ++ doorMaskNote mask ++ ascii ['\n']
  | .doorLock mask => ascii ['D','O','O','R',' ','L','O','C','K',' '] ++ shown door ++ doorMaskNote mask ++ ascii ['\n']
  | .doorIsOpen => ascii ['D','O','O','R',' ','I','S',' ','O','P','E','N',' '] ++ shown door ++ ascii ['\n']
  | .doorIsClose => ascii ['D','O','O','R',' ','I','S',' ','C','L','O','S','E',' '] ++ shown door ++ ascii ['\n']
  | .doorIsUnlock => ascii ['D','O','O','R',' ','I','S',' ','U','N','L','O','C','K',' '] ++ shown door ++ ascii ['\n']
  | .doorIsLock => ascii ['D','O','O','R',' ','I','S',' ','L','O','C','K',' '] ++ shown door ++ ascii ['\n']
  | .doorEmergencyActive => ascii ['D','O','O','R',' ','E','M','E','R','G','E','N','C','Y',' ','O','P','E','N',' ','I','S',' ','A','C','T','I','V','E',' '] ++
      shown door ++ ascii ['\n']
  | .doorEmergencyInactive => ascii ['D','O','O','R',' ','E','M','E','R','G','E','N','C','Y',' ','O','P','E','N',' ','I','S',' ','I','N','A','C','T','I','V','E',' '] ++
      shown door ++ ascii ['\n']
  | .doorOpenAlarm mask => ascii ['D','O','O','R',' ','O','P','E','N',' ','A','L','A','R','M',' ','F','O','R',' '] ++ shown door ++
      ascii [' ','(','m','a','s','k','=','0','x'] ++ hex mask.toNat ++ ascii [')','\n']
  | .remoteCtrl type action arg => ascii ['R','E','M','O','T','E',' ','C','O','N','T','R','O','L',' ','F','O','R',' '] ++ shown door ++
      ascii [':',' '] ++ shown type ++ ascii [' '] ++ shown action ++ ascii [' '] ++ shown arg ++ ascii ['\n']

/- A use while the command is built, and the length `tcpSend` is given for its 256 bytes. -/
inductive Use where
  | event (use : EventSend.Use)
  | tcpSend (len : Nat)
  deriving DecidableEq, Repr

/- `vsnprintf` returns the length of the whole line, cut off or not. -/
def remotePrintf (line : Bytes) : Trace Use Unit := note (.tcpSend line.length)

def lprint (logHost logPort : Option Bytes) (line : Bytes) : Trace Use Unit :=
  if logHost.isSome ∧ logPort.isSome then remotePrintf line else return ()

/- The whole of `sendEvent`: each branch of its `switch` logs first. -/
def sendEvent (logHost logPort eventHost past : Option Bytes) (event : Event) (door : Option Bytes) : Trace Use (Option Bytes) := do
  let text ← lift .event (greeting past event eventHost)
  if bufSize ≤ text.length then return none
  else do
    lprint logHost logPort (logLine event door)
    let text ← lift .event (details event door text)
    if bufSize ≤ text.length then return none
    else do
      let text ← lift .event (append text closing)
      return if bufSize ≤ text.length ∨ eventHost = none then none else some text

/- Names within the table, offsets and rooms within the buffer, and a length it has. -/
def Inside : Use → Prop
  | .event (.name index) => index < eventNames.length
  | .event (.append offset room) => offset ≤ bufSize ∧ 0 ≤ room
  | .event (.search _) => True
  | .tcpSend len => len ≤ bufSize

def remote : Event → Bool
  | .remoteCtrl .. => true
  | _ => false

/- What stands in the buffer when the details begin, and their first piece where a second one follows. -/
def opened (past : Option Bytes) (event : Event) : Option Bytes → Bytes
  | none => []
  | some host => opening ++ http ++ host ++ eventQuery ++ (nameOf past event).getD []

def firstPiece (event : Event) (door : Option Bytes) : Bytes :=
  match event with
  | .authOk mask _ _ => maskText mask door
  | .authErr user _ | .authErrExpire user _ | .authErrPin user _ => if user.isSome then userArg user else []
  | _ => []

/- The event has a name, and the first piece and the line for the log fit where they are written. -/
structure Fits (logHost logPort eventHost past : Option Bytes) (event : Event) (door : Option Bytes) : Prop where
  name : eventHost.isSome → remote event = false
  piece : (opened past event eventHost).length < bufSize → (opened past event eventHost ++ firstPiece event door).length ≤ bufSize
  line : (opened past event eventHost).length < bufSize → logHost.isSome ∧ logPort.isSome → (logLine event door).length ≤ bufSize

section
variable {logHost logPort eventHost past door : Option Bytes} {event : Event} {text piece : Bytes}

theorem loggedValue (logHost logPort eventHost past : Option Bytes) (event : Event) (door : Option Bytes) :
    (sendEvent logHost logPort eventHost past event door).value = (EventSend.sendEvent eventHost past event door).value := by
  have logged : ∀ line, (lprint logHost logPort line).value = some () := by
    intro line
    unfold lprint remotePrintf
    split <;> rfl
  unfold sendEvent EventSend.sendEvent
  rw [valueBind,valueBind,valueLift]
  congr 1
  funext text
  split
  · rfl
  · rw [valueBind,valueBind,logged,Option.bind_some,valueBind,valueLift]
    congr 1
    funext text
    split
    · rfl
    · rw [valueBind,valueBind,valueLift]
      rfl

/- The table has a name for every event but the last one. -/
theorem nameIndex (event : Event) : eventType event < eventNames.length ↔ remote event = false := by
  have entries : eventNames.length = 14 := rfl
  rw [entries]
  cases event <;> simp [eventType,remote]

theorem greeted (known : eventHost.isSome → remote event = false) :
    (greeting past event eventHost).value = some (opened past event eventHost) ∧
      Every (fun u => Inside (.event u)) (greeting past event eventHost) := by
  cases eventHost with
  | none => exact ⟨rfl,everyPure _⟩
  | some host =>
    have index := (nameIndex event).mpr (known rfl)
    obtain ⟨name,place⟩ : ∃ name, eventNames[eventType event]? = some name := ⟨_,List.getElem?_eq_getElem index⟩
    have found : (use (.name (eventType event)) ((eventNames[eventType event]?).or past) : Trace EventSend.Use Bytes).value = some name := by
      rw [place]
      rfl
    unfold greeting
    rw [valueBind,everyGiven found,found,Option.bind_some]
    refine ⟨?_,(everyUse _ _).mpr index,?_⟩
    · rw [appendValue (Nat.zero_le _),List.nil_append]
      unfold opened nameOf
      rw [place]
      rfl
    · exact everyBind.mpr ⟨(everyUse _ _).mpr ⟨Nat.zero_le _,by decide⟩,fun _ _ => everyPure _⟩

/- One append is inside just when it begins inside. -/
theorem appendInside : Every (fun u => Inside (.event u)) (append text piece) ↔ text.length ≤ bufSize := by
  unfold append
  rw [everyBind,everyUse]
  refine (and_iff_left fun _ _ => everyPure _).trans ?_
  exact ⟨fun inside => inside.1,fun start => ⟨start,by omega⟩⟩

theorem appendMaskInside (mask : Mask) (start : text.length ≤ bufSize) : Every (fun u => Inside (.event u)) (appendMask mask door text) := by
  unfold appendMask
  refine everyBind.mpr ⟨(everyUse _ _).mpr trivial,fun name _ => ?_⟩
  split
  · exact appendInside.mpr start
  · exact everyPure _

theorem appendUserInside (user : Option Bytes) (start : text.length ≤ bufSize) : Every (fun u => Inside (.event u)) (appendUser user text) := by
  unfold appendUser
  split
  · exact appendInside.mpr start
  · exact everyPure _

/- Where the details have two pieces the second begins behind the first. -/
theorem detailsInside (start : text.length < bufSize) :
    Every (fun u => Inside (.event u)) (details event door text) ↔ (text ++ firstPiece event door).length ≤ bufSize := by
  have err : ∀ user card, Every (fun u => Inside (.event u)) (do let text ← appendUser user text; append text (cardArg card)) ↔
      (text ++ if user.isSome then userArg user else []).length ≤ bufSize := by
    intro user card
    rw [everyGiven (appendUserValue user start.le),and_iff_right (appendUserInside user start.le),appendInside]
  have plain : (text ++ []).length ≤ bufSize := by
    rw [List.append_nil]
    exact start.le
  unfold details
  cases event <;> dsimp only [firstPiece]
  case authOk mask user card =>
    rw [everyBind,and_iff_right (appendMaskInside mask start.le)]
    cases door with
    | none =>
      -- The search through a null text is the last use of all.
      refine iff_of_true (fun out given => ?_) plain
      exact absurd (appendMaskGrows given).2 (by simp)
    | some name =>
      rw [appendMaskValue mask start.le rfl]
      simp only [Option.some.injEq,forall_eq',appendInside]
  case authErr user card => exact err user card
  case authErrExpire user card => exact err user card
  case authErrPin user card => exact err user card
  case doorUnlock mask => exact iff_of_true (appendMaskInside mask start.le) plain
  case doorLock mask => exact iff_of_true (appendMaskInside mask start.le) plain
  case remoteCtrl type action arg => exact iff_of_true (appendInside.mpr start.le) plain
  all_goals exact iff_of_true (everyPure _) plain

theorem lprintInside (line : Bytes) : Every Inside (lprint logHost logPort line) ↔
    (logHost.isSome ∧ logPort.isSome → line.length ≤ bufSize) := by
  unfold lprint
  split
  · rename_i logs
    rw [remotePrintf,everyNote]
    exact ⟨fun room _ => room,fun room => room logs⟩
  · rename_i silent
    exact iff_of_true (everyPure _) fun logs => absurd logs silent

/- A report stays inside its buffers just when its event has a name and its pieces fit. -/
theorem formatBounded (logHost logPort eventHost past : Option Bytes) (event : Event) (door : Option Bytes) :
    Every Inside (sendEvent logHost logPort eventHost past event door) ↔ Fits logHost logPort eventHost past event door := by
  by_cases known : eventHost.isSome → remote event = false
  · obtain ⟨value,inside⟩ := greeted known
    have head : (lift Use.event (greeting past event eventHost)).value = some (opened past event eventHost) := value
    have fits : Fits logHost logPort eventHost past event door ↔ ((opened past event eventHost).length < bufSize →
        (opened past event eventHost ++ firstPiece event door).length ≤ bufSize ∧
        (logHost.isSome ∧ logPort.isSome → (logLine event door).length ≤ bufSize)) :=
      ⟨fun h short => ⟨h.piece short,h.line short⟩,fun h => ⟨known,fun short => (h short).1,fun short => (h short).2⟩⟩
    rw [fits,sendEvent,everyGiven head,everyLift,and_iff_right inside]
    by_cases long : bufSize ≤ (opened past event eventHost).length
    · rw [if_pos long]
      exact iff_of_true (everyPure _) fun short => absurd short (by omega)
    · have start : (opened past event eventHost).length < bufSize := not_le.mp long
      have logged : (lprint logHost logPort (logLine event door)).value = some () := by
        unfold lprint remotePrintf
        split <;> rfl
      rw [if_neg long,forall_prop_of_true start,everyGiven logged,lprintInside,everyBind,everyLift,detailsInside start,and_comm]
      refine and_congr_left fun _ => and_iff_left fun text _ => ?_
      split
      · exact everyPure _
      · rename_i room
        exact everyBind.mpr ⟨(everyLift _ _).mpr (appendInside.mpr (by omega)),fun _ _ => everyPure _⟩
  · obtain ⟨hosted,nameless⟩ := Classical.not_imp.mp known
    obtain ⟨host,rfl⟩ := Option.isSome_iff_exists.mp hosted
    refine iff_of_false (fun each => ?_) (fun fits => known fits.name)
    have inside : Every (fun u => Inside (.event u)) (greeting past event (some host)) := (everyLift _ _).mp (everyBind.mp each).1
    have looked := (everyBind.mp inside).1
    rw [everyUse] at looked
    exact nameless ((nameIndex event).mp looked)

end

def longName : Bytes := List.replicate 251 0x61

/- A remote command has no name; a user of 251 letters pushes the card behind the buffer; and a
line of 257 bytes is sent from a buffer of 256. -/
theorem reportStrays :
    ¬ Every Inside (sendEvent none none (some (ascii ['h'])) none (.remoteCtrl (some (ascii ['g','e','t'])) none none) none) ∧
    ¬ Every Inside (sendEvent none none none none (.authErr (some longName) (some (ascii ['0','0']))) (some (ascii ['A']))) ∧
    ¬ Every Inside (sendEvent (some (ascii ['h'])) (some (ascii ['1'])) none none .manualOpen (some longName)) := by
  refine ⟨fun each => ?_,fun each => ?_,fun each => ?_⟩
  · exact absurd (((formatBounded ..).mp each).name rfl) (by decide)
  · exact absurd (((formatBounded ..).mp each).piece (by decide)) (by decide +kernel)
  · exact absurd (((formatBounded ..).mp each).line (by decide) (by decide)) (by decide +kernel)

end AccessControl.EventBounds
