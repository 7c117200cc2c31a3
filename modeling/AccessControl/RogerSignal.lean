import AccessControl.EpsoCommands
import AccessControl.EpsoReads
import AccessControl.OsdpSignal
import AccessControl.ReaderRoger

/-! The lamp and the buzzer of a Roger reader. Each command is an exchange that passes no buffer,
so that a driver which is answered never comes back; what it had sent by then is what this is about. -/
namespace AccessControl.RogerSignal
open BitMask DoorTable Traced Epso EpsoRoundTrip EpsoLoops EpsoCommands ReaderRoger
open OsdpSignal (isCase signalCode)

def ledCmd : Byte := 0xe8
def ledRed : Byte := 0x4
def ledGreen : Byte := 0xa
def ledOrange : Byte := 0xd
def ledDefault : Byte := 0x0
def beepOn : Byte := 0xb1
def beepOff : Byte := 0xb0
def beepLen : Byte := 62

/- A use of the exchange, or a pause. -/
inductive Step where
  | exchange (use : Use)
  | sleep (seconds : Nat)
  deriving DecidableEq, Repr

/- What the calls of `write` return, and what the line has for the reads. -/
structure Wire where
  written : List Int
  line : List Arrival

section
variable (fuel : Nat) (reader : Reader)

def send (func data : Byte) (w : Wire) : Trace Step Wire := do
  let (_,_,line) ← lift .exchange (epsoWriteRead fuel (w.written.headD (-1)) reader.address func data none 0 w.line)
  return ⟨w.written.tail,line⟩

def led (color : Byte) (w : Wire) : Trace Step Wire := send fuel reader ledCmd color w

/- `init_reader`, once its port is open. -/
def initReader (w : Wire) : Trace Step Wire := do
  let w ← send fuel reader beepOn beepLen w
  let w ← led fuel reader ledDefault w
  send fuel reader beepOff beepLen w

def readerSignal (unsignedChar : Bool) (signal : Byte) (w : Wire) : Trace Step Wire :=
  let is := isCase unsignedChar signal
  if is .ok then do
    let w ← led fuel reader ledGreen w
    note (.sleep 3)
    led fuel reader ledDefault w
  else if is .doorOpen then led fuel reader ledGreen w
  else if is .doorLock then led fuel reader ledDefault w
  else if is .err || is .errAuth || is .errComm then do
    let w ← led fuel reader ledRed w
    let w ← send fuel reader beepOn beepLen w
    note (.sleep 1)
    let w ← send fuel reader beepOff beepLen w
    led fuel reader ledDefault w
  else if is .errUsage then do
    let w ← send fuel reader beepOn beepLen w
    note (.sleep 1)
    send fuel reader beepOff beepLen w
  else if is .pin then led fuel reader ledOrange w
  else return w

/- A reader from its start, with the signals that are sent to it. -/
def serve (unsignedChar : Bool) (signals : List Signal) (w : Wire) : Trace Step Wire := do
  let w ← initReader fuel reader w
  signals.foldlM (fun w signal => readerSignal fuel reader unsignedChar (signalCode signal) w) w

end

/- What a reader is told: the function and its data. -/
abbrev Command := Byte × Byte

/- What a signal is to show; a blocked door shows nothing. -/
def shown : Signal → List Command
  | .ok => [(ledCmd,ledGreen),(ledCmd,ledDefault)]
  | .doorOpen => [(ledCmd,ledGreen)]
  | .doorLock => [(ledCmd,ledDefault)]
  | .err => [(ledCmd,ledRed),(beepOn,beepLen),(beepOff,beepLen),(ledCmd,ledDefault)]
  | .errAuth => [(ledCmd,ledRed),(beepOn,beepLen),(beepOff,beepLen),(ledCmd,ledDefault)]
  | .errComm => [(ledCmd,ledRed),(beepOn,beepLen),(beepOff,beepLen),(ledCmd,ledDefault)]
  | .errUsage => [(beepOn,beepLen),(beepOff,beepLen)]
  | .pin => [(ledCmd,ledOrange)]
  | .pinQuiet => []
  | .blocked => []
  | .unblocked => []

def greeted : List Command := [(beepOn,beepLen),(ledCmd,ledDefault),(beepOff,beepLen)]

/- What is left of the line behind reads that give nothing and the failure of one. -/
def unread : List Arrival → Option (List Arrival)
  | .bytes [] :: line => unread line
  | .readError :: line => some line
  | _ => none

/- What is left of the line behind an exchange to which nothing came; none where something did. -/
def unanswered : List Arrival → Option (List Arrival)
  | [] => some []
  | .quiet :: line => some line
  | .selectError :: line => some line
  | line => unread line

/- How many of the commands go out: those before the first that is answered, and that one. -/
def reached : List Command → List Arrival → Nat × Option (List Arrival)
  | [], line => (0,some line)
  | _ :: commands, line => match unanswered line with
    | none => (1,none)
    | some rest => ((reached commands rest).1 + 1,(reached commands rest).2)

def frameOf : Step → Option Bytes
  | .exchange (.write frame) => some frame
  | _ => none

def frames {α : Type} (x : Trace Step α) : List Bytes := x.uses.filterMap frameOf

/- Nothing but the request is written. -/
def Silent : Use → Prop
  | .write _ => False
  | _ => True

section
variable {fuel : Nat} {line rest : List Arrival}

/- Where the loop came to its end without a failure, the first byte of no buffer is looked at. -/
theorem answerNull (pos : Int) : (answer 0 fuel none pos).value = none ∧ Every Silent (answer 0 fuel none pos) := by
  have search : (skipZeros none fuel 0 pos).value = none ∧ Every Silent (skipZeros none fuel 0 pos) := by
    cases fuel with
    | zero => exact ⟨rfl,fun _ inside => absurd inside List.not_mem_nil⟩
    | succ fuel =>
      rw [skipZeros,valueBind,everyBind]
      exact ⟨rfl,(everyUse _ _).mpr trivial,fun _ value => by cases value⟩
  rw [answer,valueBind,everyBind,search.1]
  exact ⟨rfl,search.2,fun _ value => by cases value⟩

theorem unreadShorter (left : unread line = some rest) : rest.length ≤ line.length := by
  induction line with
  | nil => cases left
  | cons arrival line ih =>
    rw [List.length_cons]
    cases arrival with
    | bytes chunk =>
      cases chunk with
      | nil => exact Nat.le_succ_of_le (ih left)
      | cons b chunk => cases left
    | readError =>
      cases left
      exact Nat.le_succ _
    | quiet => cases left
    | selectError => cases left

theorem unansweredShorter (left : unanswered line = some rest) : rest.length ≤ line.length := by
  cases line with
  | nil =>
    cases left
    exact Nat.le_refl _
  | cons arrival line =>
    cases arrival with
    | bytes chunk => exact unreadShorter left
    | readError => exact unreadShorter left
    | quiet =>
      cases left
      exact Nat.le_succ _
    | selectError =>
      cases left
      exact Nat.le_succ _

/- How a loop over a line ends: by a failure, with what is left behind it, or not with a negative value. -/
def Received (left : Option (List Arrival)) (value : Option (Int × Receive)) : Prop :=
  match left with
  | some rest => ∃ ret s, value = some (ret,s) ∧ ret < 0 ∧ s.line = rest
  | none => ∀ ret s, value = some (ret,s) → 0 ≤ ret ∧ s.buf = none

theorem restUnread (enough : line.length < fuel) : Received (unread line) (readRest 0 fuel ⟨none,0,line⟩).value := by
  induction line generalizing fuel with
  | nil =>
    obtain ⟨fuel,rfl⟩ : ∃ k, fuel = k + 1 := ⟨fuel - 1,by omega⟩
    rw [quietRest (show Quiet [] by decide)]
    rintro ret s value
    cases value
    exact ⟨Int.le_refl 0,rfl⟩
  | cons arrival line ih =>
    obtain ⟨fuel,rfl⟩ : ∃ k, fuel = k + 1 := ⟨fuel - 1,by omega⟩
    rw [List.length_cons] at enough
    have ended : Quiet (arrival :: line) → Received none (readRest 0 (fuel + 1) ⟨none,0,arrival :: line⟩).value := by
      intro quiet
      rw [quietRest quiet]
      rintro ret s value
      cases value
      exact ⟨Int.le_refl 0,rfl⟩
    cases arrival with
    | bytes chunk =>
      cases chunk with
      | nil =>
        rw [nullTurn]
        exact ih (by omega)
      | cons b chunk =>
        have hangs : (readRest 0 (fuel + 1) ⟨none,0,[b :: chunk].map .bytes ++ line⟩).value = none := nullStuck (Nat.succ_pos _)
        intro ret s value
        exact absurd (hangs.symm.trans value) nofun
    | readError => exact ⟨_,_,EpsoReads.noticedTurn none line,by decide,rfl⟩
    | quiet => exact ended (show (0 : Int) ≤ 0 by decide)
    | selectError => exact ended (show (-1 : Int) ≤ 0 by decide)

theorem receiveUnanswered (enough : line.length < fuel) : Received (unanswered line) (receive 0 fuel none line).value := by
  have silent : Quiet line → unanswered line = some (select line).2 → Received (unanswered line) (receive 0 fuel none line).value := by
    intro quiet left
    obtain ⟨ret,negative,value⟩ := receiveQuiet 0 quiet none
    rw [left]
    exact ⟨ret,_,value fuel,negative,rfl⟩
  cases line with
  | nil => exact silent (show (0 : Int) ≤ 0 by decide) rfl
  | cons arrival line =>
    cases arrival with
    | bytes chunk =>
      rw [receiveRest]
      exact restUnread (Nat.lt_succ_of_lt enough)
    | readError => exact ⟨-21,⟨none,-1,line⟩,rfl,by decide,rfl⟩
    | quiet => exact silent (show (0 : Int) ≤ 0 by decide) rfl
    | selectError => exact silent (show (-1 : Int) ≤ 0 by decide) rfl

end

/- The request of a command, whatever `write` makes of it. -/
def request (address : Byte) (command : Command) : Bytes := (epsoWrite 0 address command.1 command.2).1

/- An exchange writes its request and nothing else, and ends where nothing comes. -/
theorem exchangeUnanswered (written : Int) (address func data : Byte) {fuel : Nat} {line : List Arrival} (enough : line.length < fuel) :
    (∃ rest, epsoWriteRead fuel written address func data none 0 line = (note (.write (request address (func,data))) >>= fun _ => rest) ∧
      Every Silent rest) ∧
    (epsoWriteRead fuel written address func data none 0 line).value.map (·.2.2) = unanswered line := by
  have came := receiveUnanswered enough
  constructor
  · refine ⟨_,rfl,everyBind.mpr ⟨receiveEvery (fun _ _ => trivial) none line,fun found value => ?_⟩⟩
    obtain ⟨ret,s⟩ := found
    dsimp only
    split
    · exact everyPure _
    · rename_i more
      have null : s.buf = none := by
        cases left : unanswered line with
        | none =>
          rw [left] at came
          exact (came ret s value).2
        | some rest =>
          rw [left] at came
          obtain ⟨ret',s',value',negative,_⟩ := came
          cases value.symm.trans value'
          exact absurd negative more
      rw [null]
      exact everyBind.mpr ⟨(answerNull _).2,fun _ _ => everyPure _⟩
  · unfold epsoWriteRead
    simp only [valueBind,valueNote,Option.bind_some]
    cases left : unanswered line with
    | none =>
      rw [left] at came
      cases value : (receive 0 fuel none line).value with
      | none => rfl
      | some found =>
        obtain ⟨ret,s⟩ := found
        obtain ⟨positive,null⟩ := came ret s value
        simp only [Option.bind_some,if_neg (Int.not_lt.mpr positive),null,valueBind,(answerNull s.pos).1,Option.bind_none,Option.map_none]
    | some rest =>
      rw [left] at came
      obtain ⟨ret,s,value,negative,same⟩ := came
      simp only [value,Option.bind_some,if_pos negative,valuePure,Option.map_some,same]

section
variable {α β : Type} {x : Trace Step α} {f : α → Trace Step β}

theorem framesSome {a : α} (value : x.value = some a) : frames (x >>= f) = frames x ++ frames (f a) := by
  rw [frames,bindSome value]
  exact List.filterMap_append

theorem framesNone (value : x.value = none) : frames (x >>= f) = frames x := by
  rw [frames,bindNone value,frames]

theorem framesSilent {y : Trace Use α} (silent : Every Silent y) : frames (lift .exchange y) = [] := by
  rw [frames,lift,List.filterMap_map,List.filterMap_eq_nil_iff]
  intro e inside
  cases e with
  | write frame => exact (silent _ inside).elim
  | _ => rfl

end

/- The commands of one list after those of another, where those were not answered. -/
theorem reachedAll {commands : List Command} {line rest : List Arrival} (through : (reached commands line).2 = some rest) :
    (reached commands line).1 = commands.length ∧ rest.length ≤ line.length := by
  induction commands generalizing line with
  | nil =>
    cases through
    exact ⟨rfl,Nat.le_refl _⟩
  | cons command commands ih =>
    rw [reached] at through ⊢
    cases left : unanswered line with
    | none =>
      rw [left] at through
      cases through
    | some next =>
      rw [left] at through
      obtain ⟨all,less⟩ := ih through
      exact ⟨congrArg (· + 1) all,Nat.le_trans less (unansweredShorter left)⟩

theorem reachedWithin (commands : List Command) (line : List Arrival) : (reached commands line).1 ≤ commands.length := by
  induction commands generalizing line with
  | nil => exact Nat.le_refl 0
  | cons command commands ih =>
    rw [reached,List.length_cons]
    cases unanswered line with
    | none => exact Nat.succ_le_succ (Nat.zero_le _)
    | some next => exact Nat.succ_le_succ (ih next)

theorem reachedAppend (commands others : List Command) (line : List Arrival) : reached (commands ++ others) line =
    match (reached commands line).2 with
    | none => reached commands line
    | some rest => (commands.length + (reached others rest).1,(reached others rest).2) := by
  induction commands generalizing line with
  | nil => simp [reached]
  | cons command commands ih =>
    rw [List.cons_append,reached,reached]
    cases left : unanswered line with
    | none => rfl
    | some next =>
      dsimp only
      rw [ih]
      cases through : (reached commands next).2 with
      | none => exact Prod.ext rfl through
      | some rest =>
        dsimp only
        rw [List.length_cons]
        exact Prod.ext (by dsimp only; omega) rfl

section
variable {fuel : Nat} {reader : Reader} {commands others : List Command}

/- A part of the driver that sends these commands, up to the first that is answered. -/
def Tells (fuel : Nat) (reader : Reader) (commands : List Command) (x : Wire → Trace Step Wire) : Prop :=
  ∀ w, w.line.length < fuel →
    frames (x w) = (commands.take (reached commands w.line).1).map (request reader.address) ∧
    (x w).value.map Wire.line = (reached commands w.line).2

theorem tellsSend (func data : Byte) : Tells fuel reader [(func,data)] (send fuel reader func data) := by
  intro w enough
  obtain ⟨⟨rest,shape,silent⟩,left⟩ := exchangeUnanswered (w.written.headD (-1)) reader.address func data enough
  have written : frames (lift Step.exchange (epsoWriteRead fuel (w.written.headD (-1)) reader.address func data none 0 w.line)) =
      [request reader.address (func,data)] := by
    rw [shape,liftBind,framesSome rfl,framesSilent silent]
    rfl
  rw [send]
  cases value : (epsoWriteRead fuel (w.written.headD (-1)) reader.address func data none 0 w.line).value with
  | none =>
    rw [value] at left
    rw [framesNone value,written,reached,← left,valueBind,valueLift,value]
    exact ⟨rfl,rfl⟩
  | some found =>
    rw [value] at left
    rw [framesSome value,written,reached,← left,valueBind,valueLift,value]
    exact ⟨rfl,rfl⟩

theorem tellsPure : Tells fuel reader [] pure := fun _ _ => ⟨rfl,rfl⟩

theorem tellsThen {x y : Wire → Trace Step Wire} (first : Tells fuel reader commands x) (second : Tells fuel reader others y) :
    Tells fuel reader (commands ++ others) fun w => x w >>= y := by
  intro w enough
  obtain ⟨sent,left⟩ := first w enough
  rw [reachedAppend]
  cases value : (x w).value with
  | none =>
    rw [value] at left
    rw [framesNone value,sent,valueBind,value,← left]
    exact ⟨congrArg (List.map _) (List.take_append_of_le_length (reachedWithin commands w.line)).symm,left⟩
  | some next =>
    rw [value] at left
    obtain ⟨all,less⟩ := reachedAll left.symm
    obtain ⟨later,rest⟩ := second next (Nat.lt_of_le_of_lt less enough)
    rw [framesSome value,sent,later,valueBind,value,← left,all,List.take_length]
    refine ⟨?_,rest⟩
    rw [← List.map_append]
    exact congrArg (List.map _) (List.take_length_add_append _).symm

theorem tellsPause {x : Wire → Trace Step Wire} (seconds : Nat) (tells : Tells fuel reader commands x) :
    Tells fuel reader commands fun w => note (.sleep seconds) >>= fun _ => x w := by
  intro w enough
  obtain ⟨sent,left⟩ := tells w enough
  rw [framesSome rfl,valueBind]
  exact ⟨sent,left⟩

theorem tellsSignal (unsignedChar : Bool) (signal : Signal) :
    Tells fuel reader (shown signal) (readerSignal fuel reader unsignedChar (signalCode signal)) := by
  have led : ∀ color, Tells fuel reader [(ledCmd,color)] (led fuel reader color) := fun color => tellsSend ledCmd color
  cases unsignedChar <;> cases signal with
  | ok => exact tellsThen (led ledGreen) (tellsPause 3 (led ledDefault))
  | doorOpen => exact led ledGreen
  | doorLock => exact led ledDefault
  | err | errAuth | errComm => exact tellsThen (led ledRed) (tellsThen (tellsSend beepOn beepLen) (tellsPause 1 (tellsThen (tellsSend beepOff beepLen) (led ledDefault))))
  | errUsage => exact tellsThen (tellsSend beepOn beepLen) (tellsPause 1 (tellsSend beepOff beepLen))
  | pin => exact led ledOrange
  | pinQuiet | blocked | unblocked => exact tellsPure

theorem tellsSignals (unsignedChar : Bool) (signals : List Signal) : Tells fuel reader (signals.flatMap shown)
    fun w => signals.foldlM (fun w signal => readerSignal fuel reader unsignedChar (signalCode signal) w) w := by
  induction signals with
  | nil => exact tellsPure
  | cons signal signals ih =>
    simp only [List.foldlM_cons,List.flatMap_cons]
    exact tellsThen (tellsSignal unsignedChar signal) ih

theorem tellsInit : Tells fuel reader greeted (initReader fuel reader) :=
  tellsThen (tellsSend beepOn beepLen) (tellsThen (tellsSend ledCmd ledDefault) (tellsSend beepOff beepLen))

end

/- From its start on, whatever signals a reader is sent: the driver sends just the commands they are
to show, in their order, and comes back from them where the line stays without an answer. The
first command that is answered is the last. -/
theorem signalsSent (unsignedChar : Bool) (reader : Reader) (signals : List Signal) (w : Wire) (more : Nat) :
    let commands := greeted ++ signals.flatMap shown
    let sent := commands.take (reached commands w.line).1
    let served := serve (w.line.length + 1 + more) reader unsignedChar signals w
    frames served = sent.map (request reader.address) ∧ served.value.map Wire.line = (reached commands w.line).2 ∧
      (reader.address.toNat < 100 → (frames served).map decode = sent.map fun command => some (reader.address,command)) := by
  intro commands sent served
  obtain ⟨written,left⟩ := tellsThen tellsInit (tellsSignals unsignedChar signals) w
    (show w.line.length < w.line.length + 1 + more by omega)
  refine ⟨written,left,fun short => ?_⟩
  have decoded : decode ∘ request reader.address = fun command => some (reader.address,command) := by
    funext command
    rw [Function.comp_apply,request,decodeShort short]
  rw [show frames served = sent.map (request reader.address) from written,List.map_map,decoded]

end AccessControl.RogerSignal
