import AccessControl.PinEntry

/-! The PIN buffer of the OSDP driver as the C code has it: a position that nothing holds
inside and an array that every use indexes. The code keeps the position inside, so that it is
the driver over the reader with its invariant, however the keys are packed into replies. -/
namespace AccessControl.KeyPacking
open BitMask DoorTable CrcTable Traced OsdpPacket OsdpFrame ReaderIdesco PinEntry

structure RawReader where
  serial : Int
  useRs485Te : Bool
  address : Byte
  pinBuf : Bytes
  pinBufPos : Int
  codeTimeout : Int
  whole : pinBuf.length = maxPinLen + 1

/- A use of the protocol's buffers, an index of `pin_buf`, and how much of it is handed over. -/
inductive RawUse where
  | osdp (use : Use)
  | pinBuf (index : Int)
  | handed (len : Int)
  deriving DecidableEq, Repr

def InPin : RawUse → Prop
  | .osdp _ => True
  | .pinBuf index => 0 ≤ index ∧ index ≤ maxPinLen
  | .handed len => 0 ≤ len ∧ len ≤ maxPinLen

/- What `malloc` left in the rest of the reader. -/
def initReader (memory : RawReader) (serial : Int) (useRs485Te : Bool) (address : Byte) : RawReader :=
  {memory with serial := serial, useRs485Te := useRs485Te, address := address, pinBuf := memory.pinBuf.set 0 0, pinBufPos := 0,
               whole := by rw [List.length_set]; exact memory.whole}

def setPin (reader : RawReader) (index : Int) (value : Byte) : Trace RawUse RawReader :=
  use (.pinBuf index) (if 0 ≤ index ∧ index ≤ maxPinLen then
    some {reader with pinBuf := reader.pinBuf.set index.toNat value, whole := by rw [List.length_set]; exact reader.whole}
  else none)

def handOver (reader : RawReader) (mode : DataMode) (database : Database) : Trace RawUse Action :=
  use (.handed reader.pinBufPos) (if 0 ≤ reader.pinBufPos ∧ reader.pinBufPos ≤ maxPinLen + 1 then
    some (.processUserInfo ⟨reader.pinBuf.take reader.pinBufPos.toNat,.dataIsPin,mode,database⟩)
  else none)

def rawKey (reader : RawReader) (database : Database) (value : Byte) : Trace RawUse (RawReader × List Action) :=
  if value = 0x7f then return ({reader with pinBufPos := 0},[])
  else if value = 0x0d then do
    let reader ← setPin reader reader.pinBufPos 0
    let call ← handOver reader .dataOk database
    return ({reader with pinBufPos := 0},[call])
  else if reader.pinBufPos = maxPinLen then do
    let call ← handOver reader .dataOutOfBuf database
    let reader ← setPin {reader with pinBufPos := 0} 0 value
    return ({reader with pinBufPos := reader.pinBufPos + 1},[call])
  else do
    let reader ← setPin reader reader.pinBufPos value
    return ({reader with pinBufPos := reader.pinBufPos + 1},[])

def rawKeypad (reader : RawReader) (inputTimeout : Int) (database : Database) (res : Response) : Trace RawUse (RawReader × List Action) :=
  forUp (fun i state => do
    let value ← lift .osdp (load .payload res.payload i)
    let (reader,calls) ← rawKey state.1 database value
    return ({reader with codeTimeout := inputTimeout},state.2 ++ calls)) res.payloadlen.toNat 0 (reader,[])

def rawAcknowledge (reader : RawReader) (inputTimeout : Int) (database : Database) : Trace RawUse (RawReader × List Action) :=
  if 0 < reader.pinBufPos then
    if 0 < reader.codeTimeout then return ({reader with codeTimeout := reader.codeTimeout - 1},[])
    else if inputTimeout ≠ 0 then do
      let call ← handOver reader .dataTimeout database
      return ({reader with pinBufPos := 0},[call])
    else return (reader,[])
  else return (reader,[])

def rawCard (reader : RawReader) (database : Database) (res : Response) : Trace RawUse (RawReader × List Action) :=
  if cardIdOffset < res.payloadlen.toNat then do
    let data ← lift .osdp (forUp (fun i data => do
      let b ← load .payload res.payload (cardIdOffset + i)
      return data ++ [b]) (res.payloadlen.toNat - cardIdOffset) 0 [])
    return ({reader with pinBufPos := 0},[.processUserInfo ⟨data,.dataIsCard,.dataOk,database⟩])
  else return ({reader with pinBufPos := 0},[])

def rawReact (reader : RawReader) (inputTimeout : Int) (database : Database) (res : Response) : Trace RawUse (RawReader × List Action) :=
  if res.response = osdpRAW then rawCard reader database res
  else if res.response = osdpKPD then do
    let (reader,calls) ← rawKeypad reader inputTimeout database res
    let (reader,late) ← rawAcknowledge reader inputTimeout database
    return (reader,calls ++ late)
  else if res.response = osdpACK then rawAcknowledge reader inputTimeout database
  else return (reader,[])

def rawGetReaderData (reader : RawReader) (inputTimeout : Int) (database : Database) (line : Line) (locals : Locals) :
    Trace RawUse (RawReader × List Action) := do
  let packet ← lift .osdp (fillPacket locals.packet reader.address osdpPOLL [])
  let sent := Action.sendPacket (packet.data.bytes.take packet.len.toNat)
  let (ok,answer) := recvPacket line.read locals.answer
  if ok then
    let (_,_,res) ← lift .osdp (processPacket answer locals.res)
    let (reader,actions) ← rawReact reader inputTimeout database res
    return (reader,sent :: actions)
  else
    match line.reopened with
    | none => return (reader,[sent,.tcflush])
    | some serial => return ({reader with serial := serial},[sent,.tcflush,.portsetup])

/- The raw reader of one that keeps its invariant. -/
def raw (reader : Reader) : RawReader where
  serial := reader.serial
  useRs485Te := reader.useRs485Te
  address := reader.address
  pinBuf := reader.pinBuf
  pinBufPos := reader.pinBufPos
  codeTimeout := reader.codeTimeout
  whole := reader.whole

/- The same values under `f`, and no use of the PIN buffer outside it. -/
structure Refines {α β : Type} (f : β → α) (x : Trace RawUse α) (y : Trace Use β) : Prop where
  value : x.value = y.value.map f
  inside : Every InPin x

section
variable {α β γ δ : Type} {f : β → α} {g : δ → γ}

theorem refinesPure {a : α} {b : β} (same : a = f b) : Refines f (pure a) (pure b) := by
  subst same
  exact ⟨rfl,everyPure _⟩

theorem refinesLift (y : Trace Use β) : Refines id (lift .osdp y) y :=
  ⟨by rw [valueLift,Option.map_id]; rfl,(everyLift _ _).mpr fun _ _ => trivial⟩

theorem refinesBind {x : Trace RawUse α} {y : Trace Use β} {k : α → Trace RawUse γ} {h : β → Trace Use δ}
    (first : Refines f x y) (rest : ∀ b, Refines g (k (f b)) (h b)) : Refines g (x >>= k) (y >>= h) := by
  constructor
  · rw [valueBind,valueBind,first.value]
    cases y.value with
    | none => rfl
    | some b => exact (rest b).value
  · refine everyBind.mpr ⟨first.inside,fun a given => ?_⟩
    rw [first.value] at given
    obtain ⟨b,_,rfl⟩ := Option.map_eq_some_iff.mp given
    exact (rest b).inside

/- Where the other driver computes without uses. -/
theorem refinesAfter {x : Trace RawUse α} {b : β} {k : α → Trace RawUse γ} {y : Trace Use δ} (first : Refines f x (pure b))
    (rest : Refines g (k (f b)) y) : Refines g (x >>= k) y := by
  have given : x.value = some (f b) := first.value
  constructor
  · rw [valueBind,given]
    exact rest.value
  · exact (everyGiven given).mpr ⟨first.inside,rest.inside⟩

/- A use of the PIN buffer that stays inside it is no use of the other driver. -/
theorem refinesUse {e : RawUse} {value : Option α} {a : α} {k : α → Trace RawUse γ} {y : Trace Use δ} (given : value = some a)
    (inside : InPin e) (rest : Refines g (k a) y) : Refines g (use e value >>= k) y := by
  constructor
  · rw [valueBind,valueUse,given]
    exact rest.value
  · exact (everyGiven (x := use e value) given).mpr ⟨(everyUse _ _).mpr inside,rest.inside⟩

theorem refinesUp {body : Nat → α → Trace RawUse α} {turn : Nat → β → Trace Use β} (each : ∀ i b, Refines f (body i (f b)) (turn i b))
    (k i : Nat) (b : β) : Refines f (forUp body k i (f b)) (forUp turn k i b) := by
  induction k generalizing i b with
  | zero => exact refinesPure rfl
  | succ k ih => exact refinesBind (each i b) (ih (i + 1))

end

/- One level up: the raw reader beside the same actions. -/
def rawly (state : Reader × List Action) : RawReader × List Action := (raw state.1,state.2)

section
variable (reader : Reader) (inputTimeout : Int) (database : Database)

theorem positionInside : 0 ≤ (reader.pinBufPos : Int) ∧ (reader.pinBufPos : Int) ≤ maxPinLen :=
  ⟨Int.natCast_nonneg _,Int.ofNat_le.mpr reader.inside⟩

theorem handRefines {γ δ : Type} {g : δ → γ} {mode : DataMode} {k : Action → Trace RawUse γ} {y : Trace Use δ}
    (rest : Refines g (k (pinInfo reader mode database)) y) : Refines g (handOver (raw reader) mode database >>= k) y := by
  have inside := positionInside reader
  have within' : 0 ≤ (raw reader).pinBufPos ∧ (raw reader).pinBufPos ≤ maxPinLen + 1 := ⟨inside.1,Int.le_trans inside.2 (by decide)⟩
  exact refinesUse (if_pos within') inside rest

theorem keyRefines (value : Byte) : Refines rawly (rawKey (raw reader) database value)
    (pure (keyPress reader database value)) := by
  have inside := positionInside reader
  unfold rawKey keyPress
  split
  · exact refinesPure rfl
  · split
    · refine refinesUse (if_pos inside) inside ?_
      exact handRefines (endPin reader) database (refinesPure rfl)
    · have full : (raw reader).pinBufPos = maxPinLen ↔ ¬ reader.pinBufPos < maxPinLen := by
        have bound := reader.inside
        change (reader.pinBufPos : Int) = maxPinLen ↔ _
        omega
      by_cases room : reader.pinBufPos < maxPinLen
      · rw [if_neg (fun last => full.mp last room),dif_pos room]
        exact refinesUse (if_pos inside) inside (refinesPure rfl)
      · rw [if_pos (full.mpr room),dif_neg room]
        refine handRefines reader database ?_
        have first : (0 : Int) ≤ 0 ∧ (0 : Int) ≤ maxPinLen := ⟨le_refl _,by decide⟩
        exact refinesUse (if_pos first) first (refinesPure rfl)

theorem acknowledgeRefines : Refines rawly (rawAcknowledge (raw reader) inputTimeout database)
    (pure (acknowledge reader inputTimeout database)) := by
  have some' : 0 < (raw reader).pinBufPos ↔ 0 < reader.pinBufPos := Int.natCast_pos
  unfold rawAcknowledge acknowledge
  by_cases entered : 0 < reader.pinBufPos
  · rw [if_pos (some'.mpr entered),if_pos entered]
    by_cases waiting : 0 < reader.codeTimeout
    · rw [if_pos (show 0 < (raw reader).codeTimeout from waiting),if_pos waiting]
      exact refinesPure rfl
    · rw [if_neg (show ¬ 0 < (raw reader).codeTimeout from waiting),if_neg waiting]
      split
      · exact handRefines reader database (refinesPure rfl)
      · exact refinesPure rfl
  · rw [if_neg (fun h => entered (some'.mp h)),if_neg entered]
    exact refinesPure rfl

theorem keypadRefines (res : Response) : Refines rawly (rawKeypad (raw reader) inputTimeout database res)
    (keypad reader inputTimeout database res) := by
  refine refinesUp (f := rawly) (fun i state => ?_) _ _ (reader,[])
  refine refinesBind (refinesLift _) fun value => ?_
  exact refinesAfter (keyRefines state.1 database value) (refinesPure rfl)

theorem cardRefines (res : Response) : Refines rawly (rawCard (raw reader) database res) (card reader database res) := by
  unfold rawCard card
  split
  · exact refinesBind (refinesLift _) fun data => refinesPure rfl
  · exact refinesPure rfl

theorem reactRefines (res : Response) : Refines rawly (rawReact (raw reader) inputTimeout database res)
    (react reader inputTimeout database res) := by
  unfold rawReact react
  split
  · exact cardRefines reader database res
  · split
    · refine refinesBind (keypadRefines reader inputTimeout database res) fun state => ?_
      exact refinesAfter (acknowledgeRefines state.1 inputTimeout database) (refinesPure rfl)
    · split
      · exact acknowledgeRefines reader inputTimeout database
      · exact refinesPure rfl

/- One poll of the C code is one poll of the driver, inside the PIN buffer. -/
theorem pollRefines (line : Line) (locals : Locals) : Refines rawly (rawGetReaderData (raw reader) inputTimeout database line locals)
    (getReaderData reader inputTimeout database line locals) := by
  unfold rawGetReaderData getReaderData
  refine refinesBind (refinesLift _) fun packet => ?_
  generalize recvPacket line.read locals.answer = got
  obtain ⟨ok,answer⟩ := got
  dsimp only
  split
  · refine refinesBind (refinesLift _) fun parsed => ?_
    exact refinesBind (reactRefines reader inputTimeout database parsed.2.2) fun state => refinesPure rfl
  · cases line.reopened <;> exact refinesPure rfl

end

/- One poll whose answer carries keys or none. -/
structure Exchange where
  address : Byte
  command : Byte
  data : Bytes
  keys : Bytes
  keyed : Keyed command data keys
  fits : data.length ≤ 56
  locals : Locals

def Exchange.line (exchange : Exchange) : Line where
  read := some ⟨frame exchange.address exchange.command exchange.data,by
    have fits := exchange.fits
    rw [frameLength]
    unfold packetLen
    omega⟩
  reopened := none

def keysOf (exchanges : List Exchange) : Bytes := exchanges.flatMap Exchange.keys

def rawPolled (database : Database) : RawReader → List Exchange → Trace RawUse (RawReader × List Action)
  | reader, [] => return (reader,[])
  | reader, exchange :: exchanges => do
    let (reader,actions) ← rawGetReaderData reader 0 database exchange.line exchange.locals
    let (reader,later) ← rawPolled database reader exchanges
    return (reader,actions ++ later)

/- The C code over any such polls enters their keys, and stays inside the buffer. -/
theorem rawEntered (reader : Reader) (database : Database) (exchanges : List Exchange) :
    ∃ after actions, (rawPolled database (raw reader) exchanges).value = some (raw after,actions) ∧
      Every InPin (rawPolled database (raw reader) exchanges) ∧
      typed after = (entry (typed reader) (keysOf exchanges)).1 ∧
      callbacks actions = handed database (entry (typed reader) (keysOf exchanges)).2 := by
  induction exchanges generalizing reader with
  | nil => exact ⟨reader,[],rfl,everyPure _,rfl,rfl⟩
  | cons exchange exchanges ih =>
    obtain ⟨next,actions,value,typing,called⟩ := keyedEntered reader database exchange.keyed exchange.fits _ none exchange.locals
    obtain ⟨after,later,rest,inside,typing',called'⟩ := ih next
    have poll := pollRefines reader 0 database exchange.line exchange.locals
    have given : (rawGetReaderData (raw reader) 0 database exchange.line exchange.locals).value = some (raw next,actions) := by
      rw [poll.value]
      exact congrArg (Option.map rawly) value
    have first : rawPolled database (raw reader) (exchange :: exchanges) =
        rawGetReaderData (raw reader) 0 database exchange.line exchange.locals >>= fun out =>
          rawPolled database out.1 exchanges >>= fun last => pure (last.1,out.2 ++ last.2) := rfl
    have lasts : (rawPolled database (raw next) exchanges >>= fun last => (pure (last.1,actions ++ last.2) : Trace RawUse _)).value =
        some (raw after,actions ++ later) := by rw [valueBind,rest,Option.bind_some,valuePure]
    rw [first]
    refine ⟨after,actions ++ later,?_,?_,?_,?_⟩
    · rw [valueBind,given,Option.bind_some]
      exact lasts
    · exact (everyGiven given).mpr ⟨poll.inside,everyBind.mpr ⟨inside,fun _ _ => everyPure _⟩⟩
    · rw [keysOf,List.flatMap_cons,entryAppend,typing']
      exact congrArg (fun typing => (entry typing (keysOf exchanges)).1) typing
    · rw [keysOf,List.flatMap_cons,entryAppend,callbacksAppend,called,called',typing,handed,handed,handed,← List.map_append]
      rfl

/- Two ways to pack one sequence of keys, with acknowledges and refusals among them, make the same calls and end the same. -/
theorem packingFree (reader : Reader) (database : Database) {packed single : List Exchange} (same : keysOf packed = keysOf single) :
    ∃ after actions after' actions', (rawPolled database (raw reader) packed).value = some (after,actions) ∧
      (rawPolled database (raw reader) single).value = some (after',actions') ∧
      callbacks actions = callbacks actions' ∧ after.pinBufPos = after'.pinBufPos ∧
      after.pinBuf.take after.pinBufPos.toNat = after'.pinBuf.take after'.pinBufPos.toNat ∧
      (0 ≤ after.pinBufPos ∧ after.pinBufPos ≤ maxPinLen) ∧ Every InPin (rawPolled database (raw reader) packed) := by
  obtain ⟨after,actions,value,inside,typing,called⟩ := rawEntered reader database packed
  obtain ⟨after',actions',value',_,typing',called'⟩ := rawEntered reader database single
  have keys : typed after = typed after' := by rw [typing,typing',same]
  have position : after.pinBufPos = after'.pinBufPos := by rw [← typedLength after,← typedLength after',keys]
  refine ⟨_,actions,_,actions',value,value',?_,?_,keys,positionInside after,inside⟩
  · rw [called,called',same]
  · exact congrArg Nat.cast position

def zeroLocals : Locals := ⟨⟨0,clear⟩,⟨0,clear⟩,⟨0,0,clear⟩⟩

/- A keypad's answer with few enough keys, and the two that carry none. -/
def keypadReply (keys : Bytes) (few : keys.length ≤ 54) : Exchange :=
  ⟨0x7f,osdpKPD,_,keys,.keypad 0 keys,by rw [List.length_cons,List.length_cons]; omega,zeroLocals⟩
def ackReply : Exchange := ⟨0x7f,osdpACK,[],[],.ack [],by decide,zeroLocals⟩
def nackReply : Exchange := ⟨0x7f,osdpNACK,[0x03],[],.nack _,by decide,zeroLocals⟩

def freshReader : Reader := ⟨3,false,0x7f,List.replicate 29 0,0,0,rfl,Nat.zero_le _⟩

/- `12#` in one reply, and key by key with a refusal and an acknowledge between. -/
def together : List Exchange := [keypadReply [0x31,0x32,0x0d] (by decide)]
def apart : List Exchange :=
  [keypadReply [0x31] (by decide),nackReply,keypadReply [0x32] (by decide),ackReply,keypadReply [0x0d] (by decide)]

def noUsers : Database := fun _ => ⟨0,[]⟩

theorem packedOnce : ∃ after actions after' actions',
    (rawPolled noUsers (raw freshReader) together).value = some (after,actions) ∧
    (rawPolled noUsers (raw freshReader) apart).value = some (after',actions') ∧
    callbacks actions = callbacks actions' ∧ after.pinBufPos = after'.pinBufPos := by
  have same : keysOf together = keysOf apart := rfl
  obtain ⟨after,actions,after',actions',value,value',calls,position,_⟩ := packingFree freshReader noUsers same
  exact ⟨after,actions,after',actions',value,value',calls,position⟩

end AccessControl.KeyPacking
