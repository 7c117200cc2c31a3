import AccessControl.OsdpFrame
import AccessControl.ReaderIdesco

/-! Keys on an OSDP reader, poll after poll. What the driver hands over is what an abstract
keypad enters, however the keys are spread over the polls. -/
namespace AccessControl.PinEntry
open BitMask DoorTable CrcTable Traced OsdpPacket OsdpFrame ReaderIdesco

/- One key: `*` clears, `#` confirms, any other key is added; a full buffer is handed over first. -/
def enter (typed : Bytes) (key : Byte) : Bytes × List (Bytes × DataMode) :=
  if key = 0x7f then ([],[])
  else if key = 0x0d then ([],[(typed,.dataOk)])
  else if typed.length < maxPinLen then (typed ++ [key],[])
  else ([key],[(typed,.dataOutOfBuf)])

def entry : Bytes → Bytes → Bytes × List (Bytes × DataMode)
  | typed, [] => (typed,[])
  | typed, key :: keys =>
    let (now,pins) := enter typed key
    let (after,later) := entry now keys
    (after,pins ++ later)

theorem entryAppend (typed xs ys : Bytes) : entry typed (xs ++ ys) =
    ((entry (entry typed xs).1 ys).1,(entry typed xs).2 ++ (entry (entry typed xs).1 ys).2) := by
  induction xs generalizing typed with
  | nil => rfl
  | cons key xs ih => simp only [List.cons_append,entry,ih,List.append_assoc]

/- Plain keys that fit are typed one behind the other. -/
theorem entryTyped {keys : Bytes} (typed : Bytes) (plain : ∀ key ∈ keys, key ≠ 0x7f ∧ key ≠ 0x0d)
    (room : typed.length + keys.length ≤ maxPinLen) : entry typed keys = (typed ++ keys,[]) := by
  induction keys generalizing typed with
  | nil => rw [List.append_nil]; rfl
  | cons key keys ih =>
    rw [List.length_cons] at room
    have fits : typed.length < maxPinLen := by omega
    obtain ⟨star,hash⟩ := plain key List.mem_cons_self
    have added : enter typed key = (typed ++ [key],[]) := by
      rw [enter,if_neg star,if_neg hash,if_pos fits]
    have rest := ih (typed ++ [key]) (fun key mem => plain key (List.mem_cons_of_mem _ mem))
      (by rw [List.length_append,List.length_singleton]; omega)
    rw [entry,added]
    simp only [rest,List.append_assoc,List.singleton_append,List.nil_append]

theorem entryConfirmed {digits : Bytes} (plain : ∀ key ∈ digits, key ≠ 0x7f ∧ key ≠ 0x0d) (room : digits.length ≤ maxPinLen) :
    entry [] (digits ++ [0x0d]) = ([],[(digits,.dataOk)]) := by
  rw [entryAppend,entryTyped [] plain (by rw [List.length_nil]; omega)]
  rfl

/- What the reader answers to a poll, in its frame. -/
inductive Reply where
  | keypad (number : Byte) (keys : Bytes)
  | idle (data : Bytes)

def Reply.command : Reply → Byte
  | .keypad _ _ => osdpKPD
  | .idle _ => osdpACK
def Reply.data : Reply → Bytes
  | .keypad number keys => number :: BitVec.ofNat 8 keys.length :: keys
  | .idle data => data
def Reply.keys : Reply → Bytes
  | .keypad _ keys => keys
  | .idle _ => []

structure Poll where
  address : Byte
  reply : Reply
  fits : reply.data.length ≤ 56
  locals : Locals

def Poll.line (poll : Poll) : Line where
  read := some ⟨frame poll.address poll.reply.command poll.reply.data,by
    have fits := poll.fits
    rw [frameLength]
    unfold packetLen
    omega⟩
  reopened := none

/- The main loop polls with an input timeout of 0. -/
def polled (database : Database) : Reader → List Poll → Option (Reader × List Action)
  | reader, [] => some (reader,[])
  | reader, poll :: polls => do
    let (reader,actions) ← (getReaderData reader 0 database poll.line poll.locals).value
    let (reader,later) ← polled database reader polls
    return (reader,actions ++ later)

def callbacks : List Action → List Callback
  | [] => []
  | .processUserInfo callback :: actions => callback :: callbacks actions
  | _ :: actions => callbacks actions

theorem callbacksAppend (xs ys : List Action) : callbacks (xs ++ ys) = callbacks xs ++ callbacks ys := by
  induction xs with
  | nil => rfl
  | cons action xs ih => cases action <;> simp [callbacks,ih]

def handed (database : Database) (pins : List (Bytes × DataMode)) : List Callback :=
  pins.map fun pin => ⟨pin.1,.dataIsPin,pin.2,database⟩

def typed (reader : Reader) : Bytes := reader.pinBuf.take reader.pinBufPos

section
variable {reader : Reader} {database : Database} {res : Response} {keys : Bytes}

theorem typedLength (reader : Reader) : (typed reader).length = reader.pinBufPos := by
  have whole := reader.whole
  have inside := reader.inside
  rw [typed,List.length_take]
  omega

theorem keyPressed (reader : Reader) (database : Database) (key : Byte) :
    typed (keyPress reader database key).1 = (enter (typed reader) key).1 ∧
    callbacks (keyPress reader database key).2 = handed database (enter (typed reader) key).2 := by
  have whole := reader.whole
  unfold keyPress enter
  by_cases star : key = 0x7f
  · rw [if_pos star,if_pos star]
    exact ⟨rfl,rfl⟩
  · rw [if_neg star,if_neg star]
    by_cases hash : key = 0x0d
    · have kept : typed (endPin reader) = typed reader := List.take_set_of_le (le_refl _)
      rw [if_pos hash,if_pos hash]
      exact ⟨rfl,by rw [← kept]; rfl⟩
    · rw [if_neg hash,if_neg hash,typedLength]
      by_cases room : reader.pinBufPos < maxPinLen
      · rw [dif_pos room,if_pos room]
        refine ⟨?_,rfl⟩
        have inside : reader.pinBufPos < reader.pinBuf.length := by omega
        change (reader.pinBuf.set reader.pinBufPos key).take (reader.pinBufPos + 1) = typed reader ++ [key]
        rw [List.take_add_one,List.take_set_of_le (le_refl _),List.getElem?_set_self inside]
        rfl
      · rw [dif_neg room,if_neg room]
        refine ⟨?_,rfl⟩
        change (reader.pinBuf.set 0 key).take 1 = [key]
        cases buf : reader.pinBuf with
        | nil =>
          rw [buf] at whole
          contradiction
        | cons b rest => rfl

/- One turn of the loop over a keypad payload. -/
def pressKey (inputTimeout : Int) (database : Database) (state : Reader × List Action) (key : Byte) : Reader × List Action :=
  let (reader,calls) := keyPress state.1 database key
  ({reader with codeTimeout := inputTimeout},state.2 ++ calls)

theorem pressedEntry (inputTimeout : Int) (database : Database) (state : Reader × List Action) (keys : Bytes) :
    typed (keys.foldl (pressKey inputTimeout database) state).1 = (entry (typed state.1) keys).1 ∧
    callbacks (keys.foldl (pressKey inputTimeout database) state).2 =
      callbacks state.2 ++ handed database (entry (typed state.1) keys).2 := by
  induction keys generalizing state with
  | nil => exact ⟨rfl,(List.append_nil _).symm⟩
  | cons key keys ih =>
    obtain ⟨next,calls⟩ := keyPressed state.1 database key
    obtain ⟨after,later⟩ := ih (pressKey inputTimeout database state key)
    have now : typed (pressKey inputTimeout database state key).1 = (enter (typed state.1) key).1 := next
    have called : callbacks (pressKey inputTimeout database state key).2 =
        callbacks state.2 ++ handed database (enter (typed state.1) key).2 := by
      rw [← calls,← callbacksAppend]
      rfl
    rw [List.foldl_cons,after,later,now,called,entry,List.append_assoc,handed,handed,handed,← List.map_append]
    exact ⟨rfl,rfl⟩

theorem keypadPressed (inputTimeout : Int) (payload : Handed osdpKPD keys res) :
    (keypad reader inputTimeout database res).value = some (keys.foldl (pressKey inputTimeout database) (reader,[])) := by
  have size := res.payload.size
  have taken := congrArg List.length payload.bytes
  rw [List.length_take] at taken
  have turn : ∀ i (state : Reader × List Action), (do
      let value ← load .payload res.payload i
      return pressKey inputTimeout database state value : Trace Use (Reader × List Action)).value =
      if i < packetLen then some (pressKey inputTimeout database state (res.payload.at i)) else none := by
    intro i state
    rw [valueBind,loadValue]
    split <;> rfl
  have loop := valueUp (f := fun i state => pressKey inputTimeout database state (res.payload.at i)) turn keys.length 0 (reader,[])
    (Nat.zero_le _)
  rw [if_pos (show 0 + keys.length ≤ packetLen by omega)] at loop
  have folded := upInvariant (fun i state => state = (keys.take i).foldl (pressKey inputTimeout database) (reader,[]))
    (f := fun i state => pressKey inputTimeout database state (res.payload.at i)) (k := keys.length) (i := 0) (s := (reader,[])) rfl ?_
  · rw [folded,Nat.zero_add,List.take_length] at loop
    unfold keypad
    rw [payload.length]
    exact loop
  · intro i state _ small same
    have inside : i < keys.length := by omega
    have key : res.payload.at i = keys[i] := by
      have at' := congrArg (fun bytes => bytes[i]?) payload.bytes
      rw [List.getElem?_take_of_lt inside,List.getElem?_eq_getElem inside,List.getElem?_eq_getElem (show i < _ by omega)] at at'
      rw [Buffer.at,List.getD_eq_getElem _ _ (by omega)]
      exact Option.some.inj at'
    rw [same,key,← List.take_append_getElem inside,List.foldl_append]
    rfl

theorem acknowledgeIdle (reader : Reader) (database : Database) :
    typed (acknowledge reader 0 database).1 = typed reader ∧ (acknowledge reader 0 database).2 = [] := by
  unfold acknowledge
  split
  · split
    · exact ⟨rfl,rfl⟩
    · exact ⟨rfl,rfl⟩
  · exact ⟨rfl,rfl⟩

end

/- The answers that carry keys or none: a keypad's, an acknowledge, a refusal. -/
inductive Keyed : Byte → Bytes → Bytes → Prop where
  | keypad (number : Byte) (keys : Bytes) : Keyed osdpKPD (number :: BitVec.ofNat 8 keys.length :: keys) keys
  | ack (data : Bytes) : Keyed osdpACK data []
  | nack (data : Bytes) : Keyed osdpNACK data []

theorem keyedCarried {command : Byte} {data keys : Bytes} (keyed : Keyed command data keys) : Carried command data keys := by
  cases keyed with
  | keypad number keys => exact .keypad number keys
  | ack data => exact .ack data
  | nack data => exact .nack data

/- One poll enters the keys of its answer. -/
theorem keyedEntered (reader : Reader) (database : Database) {address command : Byte} {data keys : Bytes} (keyed : Keyed command data keys)
    (fits : data.length ≤ 56) (short : (frame address command data).length ≤ packetLen) (reopened : Option Int) (locals : Locals) :
    ∃ after actions, (getReaderData reader 0 database ⟨some ⟨frame address command data,short⟩,reopened⟩ locals).value = some (after,actions) ∧
      typed after = (entry (typed reader) keys).1 ∧
      callbacks actions = handed database (entry (typed reader) keys).2 := by
  obtain ⟨request,filled,_⟩ := fillBuilds locals.packet reader.address osdpPOLL (show ([] : Bytes).length ≤ 56 by decide)
  obtain ⟨packet,got,front⟩ : ∃ packet, recvPacket (some ⟨frame address command data,short⟩) locals.answer = (true,packet) ∧
      frame address command data <+: packet.data.bytes := ⟨_,rfl,List.prefix_append ..⟩
  obtain ⟨res,parsed,payload⟩ := frameParses (keyedCarried keyed) fits front locals.res
  have code := payload.code
  unfold getReaderData
  rw [valueBind,filled,Option.bind_some,got]
  dsimp only
  rw [if_pos rfl,valueBind,parsed,Option.bind_some,valueBind]
  cases keyed with
  | keypad number keys =>
    obtain ⟨typing,called⟩ := pressedEntry 0 database (reader,[]) keys
    obtain ⟨kept,none⟩ := acknowledgeIdle (keys.foldl (pressKey 0 database) (reader,[])).1 database
    have other : ¬ res.response = osdpRAW := by rw [code]; decide
    rw [react,if_neg other,if_pos code,valueBind,keypadPressed 0 payload]
    refine ⟨_,_,rfl,kept.trans typing,?_⟩
    change callbacks ((keys.foldl (pressKey 0 database) (reader,[])).2 ++ (acknowledge _ 0 database).2) = _
    rw [none,List.append_nil,called]
    rfl
  | ack data =>
    obtain ⟨kept,none⟩ := acknowledgeIdle reader database
    have other : ¬ res.response = osdpRAW ∧ ¬ res.response = osdpKPD := by rw [code]; decide
    rw [react,if_neg other.1,if_neg other.2,if_pos code]
    refine ⟨_,_,rfl,kept,?_⟩
    change callbacks (acknowledge reader 0 database).2 = _
    rw [none]
    rfl
  | nack data =>
    have other : ¬ res.response = osdpRAW ∧ ¬ res.response = osdpKPD ∧ ¬ res.response = osdpACK := by rw [code]; decide
    rw [react,if_neg other.1,if_neg other.2.1,if_neg other.2.2]
    exact ⟨_,_,rfl,rfl,rfl⟩

theorem replyKeyed (reply : Reply) : Keyed reply.command reply.data reply.keys := by
  cases reply with
  | keypad number keys => exact .keypad number keys
  | idle data => exact .ack data

theorem pollEntered (reader : Reader) (database : Database) (poll : Poll) :
    ∃ after actions, (getReaderData reader 0 database poll.line poll.locals).value = some (after,actions) ∧
      typed after = (entry (typed reader) poll.reply.keys).1 ∧
      callbacks actions = handed database (entry (typed reader) poll.reply.keys).2 :=
  keyedEntered reader database (replyKeyed poll.reply) poll.fits _ none poll.locals

/- The driver over any polls is the abstract keypad over their keys. -/
theorem pollsEntered (reader : Reader) (database : Database) (polls : List Poll) :
    ∃ after actions, polled database reader polls = some (after,actions) ∧
      typed after = (entry (typed reader) (polls.flatMap fun poll => poll.reply.keys)).1 ∧
      callbacks actions = handed database (entry (typed reader) (polls.flatMap fun poll => poll.reply.keys)).2 := by
  induction polls generalizing reader with
  | nil => exact ⟨reader,[],rfl,rfl,rfl⟩
  | cons poll polls ih =>
    obtain ⟨next,actions,value,typing,called⟩ := pollEntered reader database poll
    obtain ⟨after,later,rest,typing',called'⟩ := ih next
    refine ⟨after,actions ++ later,?_,?_,?_⟩
    · simp only [polled,value,rest,Option.bind_eq_bind,Option.bind_some]
      rfl
    · rw [List.flatMap_cons,entryAppend,typing',typing]
    · rw [List.flatMap_cons,entryAppend,callbacksAppend,called,called',typing,handed,handed,handed,← List.map_append]

end AccessControl.PinEntry
