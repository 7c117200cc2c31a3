import AccessControl.FactorOrder
import AccessControl.PinEntry
import AccessControl.StaleResponse

/-! The controller with the OSDP drivers of its readers, down to the bytes of every poll, and
the same site with keypads and cards in their place. A run over the lines is a run of the site. -/
namespace AccessControl.WiredSite
open BitMask DoorTable CrcTable Gpio DoorController RemoteControl Traced OsdpPacket OsdpFrame ReaderIdesco ControllerCalls FactorOrder
open PinEntry (entry handed typed keyedEntered)

variable {n : Nat} (cfg : Config n)

/- What a reader answers to a poll: nothing that is taken for an answer, or a reply. -/
inductive ReaderAnswer where
  | silence
  | reply (command : Byte) (payload : Bytes)
  deriving DecidableEq, Repr

/- The bytes on the line bear an answer. A frame that is refused, for its CRC or its length, bears
none where the response it leaves is none to act on. Where it is one, what comes of it is up to the
response of an earlier poll, and that is no answer here; nor is a frame that cannot be parsed at all. -/
inductive Heard (line : Line) (locals : Locals) : ReaderAnswer → Prop where
  | silence (unheard : (recvPacket line.read locals.answer).1 = false) : Heard line locals .silence
  | refused {packet : Packet} {res : Response} (got : (recvPacket line.read locals.answer).1 = true)
      (parsed : (processPacket (recvPacket line.read locals.answer).2 locals.res).value = some (false,packet,res))
      (idle : ¬ StaleResponse.Acted res.response) : Heard line locals .silence
  | known {address command : Byte} {data payload : Bytes} (carried : Carried command data payload) (room : data.length ≤ 56)
      (short : (frame address command data).length ≤ packetLen) (read : line.read = some ⟨frame address command data,short⟩) :
      Heard line locals (.reply command payload)
  | unknown {address command : Byte} {data : Bytes} (other : ¬ Known command) (room : data.length ≤ 56)
      (short : (frame address command data).length ≤ packetLen) (read : line.read = some ⟨frame address command data,short⟩) :
      Heard line locals (.reply command [])

structure Visit where
  line : Line
  locals : Locals
  database : Database
  answer : ReaderAnswer
  heard : Heard line locals answer

structure Plant (n : Nat) where
  control : State n
  drivers : ReaderId n → Reader

/- The reader of a port that opened, in memory as `malloc` found it. -/
structure Heap where
  pinBuf : Bytes
  codeTimeout : Int
  whole : pinBuf.length = ReaderIdesco.maxPinLen + 1

def initReader (readerSerial : Int) (useRs485Te : Bool) (readerAddress : Byte) (heap : Heap) : Reader where
  serial := readerSerial
  useRs485Te := useRs485Te
  address := readerAddress
  pinBuf := heap.pinBuf.set 0 0
  pinBufPos := 0
  codeTimeout := heap.codeTimeout
  whole := by rw [List.length_set]; exact heap.whole
  inside := Nat.zero_le _

/- The countdown of a reader runs out with this pass. -/
def expires (s : State n) (r : ReaderId n) : Bool :=
  decide (0 < (s.doorReader r).twoFactorTimer ∧ (s.doorReader r).twoFactorTimer - 1 ≤ 0)

def twoFactorTimer (r : ReaderId n) (p : Plant n) : Plant n :=
  ⟨DoorController.twoFactorTimer r p.control,
    if expires p.control r then Function.update p.drivers r (clearReaderData (p.drivers r)) else p.drivers⟩

/- The callbacks of a driver, in their order. -/
def processed (r : ReaderId n) (actions : List Action) (s : State n) : State n :=
  (PinEntry.callbacks actions).foldl (fun s cb => processUserInfo cfg r cb s) s

def getReaderData (r : ReaderId n) (visit : Visit) (p : Plant n) : Option (Plant n) :=
  if ((cfg r.door).reader r.side).present then do
    let (reader,actions) ← (ReaderIdesco.getReaderData (p.drivers r) 0 visit.database visit.line visit.locals).value
    some ⟨processed cfg r actions p.control,Function.update p.drivers r reader⟩
  else some p

/- What one turn of the main loop meets on the lines and on the board. -/
structure Round (n : Nat) where
  visits : ReaderId n → Visit
  reading : Reading
  inputVal : Fin n → Byte

def doorTurn (round : Round n) (p : Plant n) (i : Fin n) : Option (Plant n) := do
  let p : Plant n := ⟨lockTimer cfg i p.control,p.drivers⟩
  let p := twoFactorTimer ⟨i,.B⟩ (twoFactorTimer ⟨i,.A⟩ p)
  let p ← getReaderData cfg ⟨i,.A⟩ (round.visits ⟨i,.A⟩) p
  getReaderData cfg ⟨i,.B⟩ (round.visits ⟨i,.B⟩) p

def mainLoop (round : Round n) (p : Plant n) : Option (Plant n) := do
  let p ← (List.finRange n).foldlM (doorTurn cfg round) p
  return ⟨checkInputs cfg round.reading round.inputVal p.control,p.drivers⟩

inductive Cycle (n : Nat) where
  | mainLoop (round : Round n)
  | checkNetwork (datagram : Bytes) (db : Sqlite)

def cycle (p : Plant n) : Cycle n → Option (Plant n)
  | .mainLoop round => mainLoop cfg round p
  | .checkNetwork datagram db => some ⟨checkNetwork cfg datagram db p.control,p.drivers⟩

def run (p : Plant n) (cycles : List (Cycle n)) : Option (Plant n) := cycles.foldlM (cycle cfg) p

/- The site as its users see it: the controller, and the keys that each keypad holds. -/
structure Site (n : Nat) where
  control : State n
  typed : ReaderId n → Bytes

/- A card breaks off the entry of a PIN; keys go on with it. -/
def told (typed : Bytes) (database : Database) : ReaderAnswer → Bytes × List Callback
  | .silence => (typed,[])
  | .reply command payload =>
    if command = osdpRAW then
      ([],if cardIdOffset < payload.length then [⟨payload.drop cardIdOffset,.dataIsCard,.dataOk,database⟩] else [])
    else if command = osdpKPD then ((entry typed payload).1,handed database (entry typed payload).2)
    else (typed,[])

/- The keys that stand when the reader is asked: none where its countdown ran out. -/
def standing (site : Site n) (r : ReaderId n) : Bytes := if expires site.control r then [] else site.typed r

def answered (site : Site n) (round : Round n) (r : ReaderId n) : Bytes × List Callback :=
  told (standing site r) (round.visits r).database (round.visits r).answer

/- A pass of the main loop in which each reader hands over what its users entered. -/
def entered (site : Site n) (round : Round n) : Pass n where
  readerData r := (answered site round r).2
  reading := round.reading
  inputVal := round.inputVal

def siteCycle (site : Site n) : Cycle n → Site n
  | .mainLoop round => ⟨DoorController.mainLoop cfg (entered site round) site.control,fun r =>
      if ((cfg r.door).reader r.side).present then (answered site round r).1 else standing site r⟩
  | .checkNetwork datagram db => ⟨checkNetwork cfg datagram db site.control,site.typed⟩

/- A plant and the site it is. -/
def plain (p : Plant n) : Site n := ⟨p.control,fun r => typed (p.drivers r)⟩

section
variable {reader : Reader} {database : Database} {line : Line} {locals : Locals} {res : Response}

/- What a poll does with a frame that came. -/
theorem framePolled (line : Line) (reader : Reader) (database : Database) {ok : Bool} {p : Packet} (got : (recvPacket line.read locals.answer).1 = true)
    (parsed : (processPacket (recvPacket line.read locals.answer).2 locals.res).value = some (ok,p,res)) :
    ∃ sent, (ReaderIdesco.getReaderData reader 0 database line locals).value =
      (react reader 0 database res).value.bind fun state => some (state.1,.sendPacket sent :: state.2) := by
  obtain ⟨poll,filled,_⟩ := fillBuilds locals.packet reader.address osdpPOLL (show ([] : Bytes).length ≤ 56 by decide)
  refine ⟨poll.data.bytes.take poll.len.toNat,?_⟩
  unfold ReaderIdesco.getReaderData
  rw [valueBind,filled,Option.bind_some]
  dsimp only
  rw [if_pos got,valueBind,parsed,Option.bind_some,valueBind]
  rfl

theorem bytesLoaded (payload : Buffer) {count : Nat} (room : cardIdOffset + count ≤ packetLen) :
    (forUp (fun i data => do
      let b ← load .payload payload (cardIdOffset + i)
      return data ++ [b]) count 0 ([] : Bytes)).value = some ((payload.bytes.drop cardIdOffset).take count) := by
  have size := payload.size
  have turn : ∀ i (data : Bytes), (do
      let b ← load .payload payload (cardIdOffset + i)
      return data ++ [b] : Trace Use Bytes).value = if i < packetLen - cardIdOffset then some (data ++ [payload.at (cardIdOffset + i)]) else none := by
    intro i data
    rw [valueBind,loadValue]
    by_cases inside : cardIdOffset + i < packetLen
    · rw [if_pos inside,if_pos (by omega)]
      rfl
    · rw [if_neg inside,if_neg (by omega)]
      rfl
  have loop := upInvariant (fun i data => data = (payload.bytes.drop cardIdOffset).take i)
    (f := fun i data => data ++ [payload.at (cardIdOffset + i)]) (k := count) (i := 0) (s := []) rfl ?_
  · rw [valueUp (f := fun i data => data ++ [payload.at (cardIdOffset + i)]) turn count 0 [] (Nat.zero_le _),if_pos (by omega),loop,
      Nat.zero_add]
  · intro i data _ small same
    have inside : i < (payload.bytes.drop cardIdOffset).length := by rw [List.length_drop]; omega
    have value : payload.at (cardIdOffset + i) = (payload.bytes.drop cardIdOffset)[i] := by
      rw [Buffer.at,List.getD_eq_getElem _ _ (by omega),List.getElem_drop]
    rw [same,value,List.take_append_getElem inside]

/- A card goes to the controller as it stands behind the four bytes of its header. -/
theorem cardTold {payload : Bytes} (reader : Reader) (database : Database) (holds : Handed osdpRAW payload res) :
    (card reader database res).value = some (clearPin reader,if cardIdOffset < payload.length then
      [.processUserInfo ⟨payload.drop cardIdOffset,.dataIsCard,.dataOk,database⟩] else []) := by
  have size := res.payload.size
  have length := congrArg List.length holds.bytes
  rw [List.length_take] at length
  unfold card
  rw [holds.length]
  by_cases long : cardIdOffset < payload.length
  · have copied : (res.payload.bytes.drop cardIdOffset).take (payload.length - cardIdOffset) = payload.drop cardIdOffset := by
      rw [← List.drop_take,holds.bytes]
    rw [if_pos long,if_pos long,valueBind,bytesLoaded res.payload (by omega),copied]
    rfl
  · rw [if_neg long,if_neg long]
    rfl

theorem recvFrame {address command : Byte} {data : Bytes} (short : (frame address command data).length ≤ packetLen) (answer : Packet) :
    ∃ packet, recvPacket (some ⟨frame address command data,short⟩) answer = (true,packet) ∧ frame address command data <+: packet.data.bytes :=
  ⟨_,rfl,List.prefix_append ..⟩

/- A reply whose code no branch of the driver names. -/
theorem unknownParses {address command : Byte} {data : Bytes} {packet : Packet} (other : ¬ Known command) (room : data.length ≤ 56)
    (front : frame address command data <+: packet.data.bytes) (response : Response) :
    ∃ after, (processPacket packet response).value = some (false,OsdpPacket.processed packet,after) ∧ after.response = command := by
  have sizes : Sizes packet := by
    unfold Sizes packetLen
    rw [frameDeclared front room]
    omega
  have code := frameCommand front
  have bare : ¬ Carries (packet.data.at 5) := by
    rw [code]
    exact fun carries => other (carries.elim (fun e => .inr (.inr (.inl e))) fun e => .inr (.inr (.inr (.inr e))))
  have keyless : packet.data.at 5 ≠ osdpKPD := by
    rw [code]
    exact fun e => other (.inr (.inr (.inr (.inl e))))
  have value := processValue packet response
  rw [if_pos sizes,if_pos (frameChecked front room),replyValue _ sizes.2] at value
  dsimp only at value
  rw [if_neg bare,if_neg keyless,code,decide_eq_false other] at value
  exact ⟨_,value,rfl⟩

/- One poll: what the driver makes of the line is what the answer on it tells. -/
theorem pollTold (reader : Reader) (database : Database) {answer : ReaderAnswer} (heard : Heard line locals answer) :
    ∃ after actions, (ReaderIdesco.getReaderData reader 0 database line locals).value = some (after,actions) ∧
      typed after = (told (typed reader) database answer).1 ∧ PinEntry.callbacks actions = (told (typed reader) database answer).2 := by
  cases heard with
  | silence unheard =>
    obtain ⟨poll,filled,_⟩ := fillBuilds locals.packet reader.address osdpPOLL (show ([] : Bytes).length ≤ 56 by decide)
    have deaf : ¬ (recvPacket line.read locals.answer).1 = true := by rw [unheard]; exact Bool.false_ne_true
    unfold ReaderIdesco.getReaderData
    rw [valueBind,filled,Option.bind_some]
    dsimp only
    rw [if_neg deaf]
    cases line.reopened with
    | none => exact ⟨_,_,rfl,rfl,rfl⟩
    | some serial => exact ⟨_,_,rfl,rfl,rfl⟩
  | refused got parsed idle =>
    obtain ⟨sent,value⟩ := framePolled line reader database got parsed
    rw [StaleResponse.reactIdle idle] at value
    exact ⟨_,_,value,rfl,rfl⟩
  | @known address command data payload carried room short read =>
    obtain ⟨heard,reopened⟩ := line
    obtain rfl : heard = _ := read
    have entering : ∀ {keys}, PinEntry.Keyed command data keys →
        ∃ after actions, (ReaderIdesco.getReaderData reader 0 database ⟨some ⟨frame address command data,short⟩,reopened⟩ locals).value =
          some (after,actions) ∧ typed after = (entry (typed reader) keys).1 ∧
          PinEntry.callbacks actions = handed database (entry (typed reader) keys).2 :=
      fun keyed => keyedEntered reader database keyed room short reopened locals
    obtain ⟨packet,got,front⟩ := recvFrame short locals.answer
    obtain ⟨res,parsed,holds⟩ := frameParses carried room front locals.res
    have received : (recvPacket (some ⟨frame address command data,short⟩) locals.answer).1 = true := by rw [got]
    obtain ⟨sent,value⟩ := framePolled ⟨some ⟨frame address command data,short⟩,reopened⟩ reader database received
      (by rw [got]; exact parsed)
    cases carried with
    | raw =>
      rw [react,if_pos holds.code,cardTold reader database holds] at value
      refine ⟨_,_,value,rfl,?_⟩
      change PinEntry.callbacks (.sendPacket sent :: (if cardIdOffset < data.length then _ else [])) =
        if cardIdOffset < data.length then _ else []
      split <;> rfl
    | com =>
      have idle : ¬ StaleResponse.Acted res.response := by rw [holds.code]; decide
      rw [StaleResponse.reactIdle idle] at value
      exact ⟨_,_,value,rfl,rfl⟩
    | ack => exact entering (.ack data)
    | nack => exact entering (.nack data)
    | keypad number => exact entering (.keypad number payload)
  | @unknown address command data other room short read =>
    obtain ⟨packet,got,front⟩ := recvFrame short locals.answer
    obtain ⟨res,parsed,code⟩ := unknownParses other room front locals.res
    have received : (recvPacket line.read locals.answer).1 = true := by rw [read,got]
    obtain ⟨sent,value⟩ := framePolled _ reader database received (by rw [read,got]; exact parsed)
    have idle : ¬ StaleResponse.Acted res.response := by
      rw [code]
      exact fun acted => other (StaleResponse.actedKnown acted)
    have plain : told (typed reader) database (.reply command []) = (typed reader,[]) := by
      have raw : command ≠ osdpRAW := fun e => other (.inr (.inr (.inl e)))
      have keypad : command ≠ osdpKPD := fun e => other (.inr (.inr (.inr (.inl e))))
      rw [told,if_neg raw,if_neg keypad]
    rw [StaleResponse.reactIdle idle] at value
    rw [plain]
    exact ⟨_,_,value,rfl,rfl⟩

end

section
variable (round : Round n) {p : Plant n} {r : ReaderId n}

theorem pollRefines (r : ReaderId n) (visit : Visit) (p : Plant n) (pass : Pass n)
    (hands : pass.readerData r = (told (typed (p.drivers r)) visit.database visit.answer).2) :
    ∃ after, getReaderData cfg r visit p = some after ∧ after.control = DoorController.getReaderData cfg pass r p.control ∧
      typed (after.drivers r) = (if ((cfg r.door).reader r.side).present then (told (typed (p.drivers r)) visit.database visit.answer).1
        else typed (p.drivers r)) ∧
      ∀ q, q ≠ r → after.drivers q = p.drivers q := by
  obtain ⟨reader,actions,value,typing,called⟩ := pollTold (p.drivers r) visit.database visit.heard
  unfold getReaderData DoorController.getReaderData
  by_cases present : ((cfg r.door).reader r.side).present = true
  · rw [if_pos present,if_pos present,if_pos present,value,hands,← called]
    refine ⟨_,rfl,rfl,?_,fun q ne => Function.update_of_ne ne ..⟩
    rw [← typing]
    exact congrArg typed (Function.update_self ..)
  · rw [if_neg present,if_neg present,if_neg present]
    exact ⟨p,rfl,rfl,rfl,fun _ _ => rfl⟩

end

end AccessControl.WiredSite
