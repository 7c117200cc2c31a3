import AccessControl.OsdpFrame
import AccessControl.ReaderIdesco

/-! A frame that the parser refuses, seen from the driver. A wrong CRC leaves the response
as it was, and the driver acts on it once more; an unknown code names no branch. -/
namespace AccessControl.StaleResponse
open BitMask DoorTable CrcTable Traced OsdpPacket OsdpFrame ReaderIdesco

variable {reader : Reader} {inputTimeout : Int} {database : Database} {res : Response} {packet : Packet}

/- No callback, and the pin entry as it was. -/
def Unaffected (reader : Reader) (run : Trace Use (Reader × List Action)) : Prop :=
  ∃ after actions, run.value = some (after,actions) ∧ (∀ callback, Action.processUserInfo callback ∉ actions) ∧
    after.pinBuf = reader.pinBuf ∧ after.pinBufPos = reader.pinBufPos ∧ after.codeTimeout = reader.codeTimeout

/- The codes on which the driver acts. -/
def Acted (code : Byte) : Prop := code = osdpRAW ∨ code = osdpKPD ∨ code = osdpACK
instance (code) : Decidable (Acted code) := by unfold Acted; infer_instance

/- The parser refuses for one of two reasons, and says which in the response it leaves. -/
theorem refusedCases {p : Packet} {r : Response} (refused : (processPacket packet res).value = some (false,p,r)) :
    ¬ Checked packet.data ∧ r = res ∨ Checked packet.data ∧ ¬ Known r.response := by
  have cases' := processCases packet res
  rw [refused] at cases'
  generalize outcome : some (false,p,r) = value at cases'
  cases cases' with
  | wrongCrc sizes wrong =>
    cases outcome
    exact .inl ⟨wrong,rfl⟩
  | plain sizes checked bare other =>
    obtain ⟨unknown,rest⟩ := Prod.mk.inj (Option.some.inj outcome)
    obtain ⟨_,rfl⟩ := Prod.mk.inj rest
    exact .inr ⟨checked,of_decide_eq_false unknown.symm⟩
  | _ => cases outcome

theorem actedKnown {code : Byte} (acted : Acted code) : Known code := by
  unfold Acted at acted
  unfold Known
  tauto

theorem reactIdle (idle : ¬ Acted res.response) : react reader inputTimeout database res = pure (reader,[]) := by
  unfold Acted at idle
  have raw : res.response ≠ osdpRAW := fun e => idle (.inl e)
  have keypad : res.response ≠ osdpKPD := fun e => idle (.inr (.inl e))
  have ack : res.response ≠ osdpACK := fun e => idle (.inr (.inr e))
  rw [react,if_neg raw,if_neg keypad,if_neg ack]

/- With the pin entry begun and a countdown that the poll's own cannot be mistaken for,
every branch that acts leaves a mark. -/
def entering (inputTimeout : Int) : Reader where
  serial := 0
  useRs485Te := false
  address := 0x7f
  pinBuf := List.replicate (maxPinLen + 1) 0
  pinBufPos := 1
  codeTimeout := if inputTimeout = 1 ∨ inputTimeout = 2 then 3 else 1
  whole := List.length_replicate ..
  inside := by decide

theorem enteringTimeout (inputTimeout : Int) : 0 < (entering inputTimeout).codeTimeout ∧
    (entering inputTimeout).codeTimeout ≠ inputTimeout ∧ (entering inputTimeout).codeTimeout ≠ inputTimeout - 1 := by
  unfold entering
  dsimp only
  split <;> omega

theorem cardAffects {after : Reader} {actions : List Action} (value : (card reader database res).value = some (after,actions)) :
    after.pinBufPos = 0 := by
  unfold card at value
  split at value
  · rw [valueBind] at value
    obtain ⟨data,_,rest⟩ := Option.bind_eq_some_iff.mp value
    cases rest
    rfl
  · cases value
    rfl

theorem acknowledgeTimeout (reader inputTimeout database) : (acknowledge reader inputTimeout database).1.codeTimeout = reader.codeTimeout ∨
    (acknowledge reader inputTimeout database).1.codeTimeout = reader.codeTimeout - 1 := by
  unfold acknowledge
  split
  · split
    · exact .inr rfl
    · split
      · exact .inl rfl
      · exact .inl rfl
  · exact .inl rfl

theorem acknowledgeCounts (inputTimeout database) (position : 0 < reader.pinBufPos) (running : 0 < reader.codeTimeout) :
    (acknowledge reader inputTimeout database).1.codeTimeout = reader.codeTimeout - 1 := by
  rw [acknowledge,if_pos position,if_pos running]

/- A keypad reply sets the countdown with each key; without keys it touches nothing. -/
theorem keypadTimeout {after : Reader} {actions : List Action}
    (value : (keypad reader inputTimeout database res).value = some (after,actions)) :
    after = reader ∨ after.codeTimeout = inputTimeout := by
  unfold keypad at value
  refine forUpInvariant (fun _ (state : Reader × List Action) => state.1 = reader ∨ state.1.codeTimeout = inputTimeout)
    ?_ value (.inl rfl)
  intro i state next taken _
  rw [valueBind] at taken
  obtain ⟨key,_,rest⟩ := Option.bind_eq_some_iff.mp taken
  cases rest
  exact .inr rfl

theorem reactAffects (acted : Acted res.response) {after : Reader} {actions : List Action}
    (value : (react (entering inputTimeout) inputTimeout database res).value = some (after,actions)) :
    after.pinBufPos ≠ (entering inputTimeout).pinBufPos ∨ after.codeTimeout ≠ (entering inputTimeout).codeTimeout := by
  obtain ⟨running,other,less⟩ := enteringTimeout inputTimeout
  have begun : 0 < (entering inputTimeout).pinBufPos := show 0 < 1 by decide
  have counts := acknowledgeCounts inputTimeout database begun running
  unfold react at value
  by_cases raw : res.response = osdpRAW
  · rw [if_pos raw] at value
    left
    rw [cardAffects value]
    exact fun e => absurd begun (by omega)
  · by_cases isKeypad : res.response = osdpKPD
    · rw [if_neg raw,if_pos isKeypad,valueBind] at value
      obtain ⟨⟨typed,calls⟩,first,rest⟩ := Option.bind_eq_some_iff.mp value
      have last : (acknowledge typed inputTimeout database).1 = after := congrArg Prod.fst (Option.some.inj rest)
      right
      rw [← last]
      rcases keypadTimeout first with same | set
      · rw [same,counts]
        omega
      · rcases acknowledgeTimeout typed inputTimeout database with e | e <;> omega
    · have ack : res.response = osdpACK := (acted.resolve_left raw).resolve_left isKeypad
      rw [if_neg raw,if_neg isKeypad,if_pos ack] at value
      right
      have same := congrArg Prod.fst (Option.some.inj value)
      rw [show after = _ from same.symm,counts]
      omega

section
variable {line : Line} {locals : Locals} {p : Packet} {r : Response} (got : (recvPacket line.read locals.answer).1 = true)
  (refused : (processPacket (recvPacket line.read locals.answer).2 locals.res).value = some (false,p,r))

include got refused in
/- Behind a refused frame the driver reacts to the response as it stands. -/
theorem refusedReacts (reader : Reader) (inputTimeout : Int) (database : Database) :
    ∃ sent, (getReaderData reader inputTimeout database line locals).value =
      (react reader inputTimeout database r).value.bind (fun state => some (state.1,Action.sendPacket sent :: state.2)) := by
  obtain ⟨poll,filled,_⟩ := fillBuilds locals.packet reader.address osdpPOLL (show ([] : Bytes).length ≤ 56 by decide)
  refine ⟨poll.data.bytes.take poll.len.toNat,?_⟩
  unfold getReaderData
  rw [valueBind,filled,Option.bind_some]
  dsimp only
  rw [if_pos got,valueBind,refused,Option.bind_some,valueBind]
  rfl

include got refused in
theorem refusedLeaves (reader : Reader) (inputTimeout : Int) (database : Database) :
    Unaffected reader (getReaderData reader inputTimeout database line locals) ↔ Unaffected reader (react reader inputTimeout database r) := by
  obtain ⟨sent,run⟩ := refusedReacts got refused reader inputTimeout database
  unfold Unaffected
  rw [run]
  constructor
  · rintro ⟨after,actions,value,silent,same⟩
    obtain ⟨⟨reacted,calls⟩,first,rest⟩ := Option.bind_eq_some_iff.mp value
    cases rest
    exact ⟨reacted,calls,first,fun callback inside => silent callback (List.mem_cons_of_mem _ inside),same⟩
  · rintro ⟨after,actions,value,silent,same⟩
    rw [value,Option.bind_some]
    refine ⟨after,_,rfl,fun callback inside => ?_,same⟩
    exact silent callback ((List.mem_cons.mp inside).resolve_left nofun)

theorem idleLeaves (reader : Reader) (inputTimeout : Int) (database : Database) (idle : ¬ Acted res.response) :
    Unaffected reader (react reader inputTimeout database res) := by
  rw [reactIdle idle]
  exact ⟨reader,[],rfl,fun _ inside => absurd inside List.not_mem_nil,rfl,rfl,rfl⟩

/- A refused frame has no effect, for every reader, just when it is refused for its code or
the response of the earlier poll names none of the driver's branches. -/
theorem refusedUnaffected (inputTimeout : Int) (database : Database) (line : Line) (locals : Locals)
    (got : (recvPacket line.read locals.answer).1 = true) {p : Packet} {r : Response}
    (refused : (processPacket (recvPacket line.read locals.answer).2 locals.res).value = some (false,p,r)) :
    (∀ reader, Unaffected reader (getReaderData reader inputTimeout database line locals)) ↔
      Checked (recvPacket line.read locals.answer).2.data ∨ ¬ Acted locals.res.response := by
  simp only [refusedLeaves got refused]
  rcases refusedCases refused with ⟨unchecked,rfl⟩ | ⟨checked,unknown⟩
  · refine ⟨fun unaffected => .inr fun acted => ?_,fun holds reader => idleLeaves reader inputTimeout database (holds.resolve_left unchecked)⟩
    obtain ⟨after,actions,value,_,_,position,countdown⟩ := unaffected (entering inputTimeout)
    exact (reactAffects acted value).elim (fun ne => ne position) (fun ne => ne countdown)
  · refine ⟨fun _ => .inl checked,fun _ reader => idleLeaves reader inputTimeout database fun acted => unknown (actedKnown acted)⟩

/- Nothing is entered, or the time for it is neither counted nor limited. -/
def Calm (reader : Reader) (inputTimeout : Int) : Prop := reader.pinBufPos = 0 ∨ reader.codeTimeout ≤ 0 ∧ inputTimeout = 0

theorem acknowledgeLeaves (reader : Reader) (inputTimeout : Int) (database : Database) :
    Unaffected reader (pure (acknowledge reader inputTimeout database)) ↔ Calm reader inputTimeout := by
  unfold Unaffected Calm acknowledge
  simp only [valuePure,Option.some.injEq]
  constructor
  · rintro ⟨after,actions,value,silent,_,_,countdown⟩
    by_cases entered : 0 < reader.pinBufPos
    · rw [if_pos entered] at value
      by_cases running : 0 < reader.codeTimeout
      · rw [if_pos running] at value
        cases value
        exact absurd countdown (by dsimp only; omega)
      · rw [if_neg running] at value
        refine .inr ⟨not_lt.mp running,?_⟩
        by_contra limited
        rw [if_pos limited] at value
        cases value
        exact silent _ List.mem_cons_self
    · exact .inl (Nat.eq_zero_of_not_pos entered)
  · intro calm
    refine ⟨reader,[],?_,fun _ inside => absurd inside List.not_mem_nil,rfl,rfl,rfl⟩
    rcases calm with zero | ⟨stopped,unlimited⟩
    · rw [if_neg (by omega)]
    · rw [if_neg (not_lt.mpr stopped),if_neg (not_not.mpr unlimited),ite_self]

theorem cardLeaves (reader : Reader) (database : Database) :
    Unaffected reader (card reader database res) ↔ res.payloadlen.toNat ≤ cardIdOffset ∧ reader.pinBufPos = 0 := by
  unfold Unaffected card
  constructor
  · rintro ⟨after,actions,value,silent,_,position,_⟩
    split at value
    · rw [valueBind] at value
      obtain ⟨data,_,rest⟩ := Option.bind_eq_some_iff.mp value
      cases rest
      exact absurd List.mem_cons_self (silent _)
    · rename_i short
      cases value
      exact ⟨not_lt.mp short,position.symm⟩
  · rintro ⟨short,zero⟩
    rw [if_neg (not_lt.mpr short)]
    exact ⟨_,_,rfl,fun _ inside => absurd inside List.not_mem_nil,rfl,zero.symm,rfl⟩

include got refused in
/- What a stale response without keys does to one reader: a card short of its format is harmless where no
PIN is begun, an acknowledge where the reader is calm. -/
theorem staleLeaves (unchecked : ¬ Checked (recvPacket line.read locals.answer).2.data)
    (keyless : locals.res.response = osdpKPD → locals.res.payloadlen = 0) (reader : Reader) (inputTimeout : Int) (database : Database) :
    Unaffected reader (getReaderData reader inputTimeout database line locals) ↔ ¬ Acted locals.res.response ∨
      (if locals.res.response = osdpRAW then locals.res.payloadlen.toNat ≤ cardIdOffset ∧ reader.pinBufPos = 0
        else Calm reader inputTimeout) := by
  obtain rfl : r = locals.res := by
    rcases refusedCases refused with ⟨_,same⟩ | ⟨checked,_⟩
    · exact same
    · exact absurd checked unchecked
  rw [refusedLeaves got refused]
  by_cases acted : Acted locals.res.response
  · rw [or_iff_right (not_not.mpr acted),react]
    by_cases raw : locals.res.response = osdpRAW
    · rw [if_pos raw,if_pos raw]
      exact cardLeaves reader database
    · rw [if_neg raw,if_neg raw]
      by_cases keys : locals.res.response = osdpKPD
      · have none : keypad reader inputTimeout database locals.res = pure (reader,[]) := by
          unfold keypad
          rw [keyless keys]
          rfl
        rw [if_pos keys,none]
        exact acknowledgeLeaves reader inputTimeout database
      · rw [if_neg keys,if_pos ((acted.resolve_left raw).resolve_left keys)]
        exact acknowledgeLeaves reader inputTimeout database
  · exact iff_of_true (idleLeaves reader inputTimeout database acted) (.inl acted)

end

def quiet : Database := fun _ => ⟨0,[]⟩

/- The card of the poll before is still in the response. -/
def cardBefore : Locals := ⟨⟨0,clear⟩,⟨0,clear⟩,osdpRAW,6,((clear.set 4 0xaa).set 5 0xbb)⟩

/- A reply code that the parser does not know, under a right CRC. -/
def unknownReply : Line := ⟨some ⟨[0x53,0x7f,0x08,0x00,0x04,0x00,0x32,0xBE],by decide⟩,none⟩

set_option maxRecDepth 10000 in
theorem unknownReplyUnaffected : Unaffected (entering 0) (getReaderData (entering 0) 0 quiet unknownReply cardBefore) := by
  have checked : Checked (recvPacket unknownReply.read cardBefore.answer).2.data := by decide
  exact (refusedUnaffected 0 quiet unknownReply cardBefore (by decide) (by rfl)).mpr (.inl checked) (entering 0)

/- An acknowledge whose CRC is noise: the card is handed over again. -/
def noise : Line := ⟨some ⟨[0x53,0x7f,0x08,0x00,0x04,0x40,0x00,0x00],by decide⟩,none⟩

set_option maxRecDepth 10000 in
theorem noiseReplaysCard : (recvPacket noise.read cardBefore.answer).1 = true ∧
    (∃ p r, (processPacket (recvPacket noise.read cardBefore.answer).2 cardBefore.res).value = some (false,p,r)) ∧
    (∃ after sent, (getReaderData (entering 0) 0 quiet noise cardBefore).value =
      some (after,[.sendPacket sent,.processUserInfo ⟨[0xaa,0xbb],.dataIsCard,.dataOk,quiet⟩])) ∧
    ¬ Unaffected (entering 0) (getReaderData (entering 0) 0 quiet noise cardBefore) := by
  have replayed : ∃ after sent, (getReaderData (entering 0) 0 quiet noise cardBefore).value =
      some (after,[.sendPacket sent,.processUserInfo ⟨[0xaa,0xbb],.dataIsCard,.dataOk,quiet⟩]) := ⟨_,_,by rfl⟩
  refine ⟨by decide,⟨_,_,by rfl⟩,replayed,?_⟩
  rintro ⟨after,actions,value,silent,_⟩
  obtain ⟨_,_,called⟩ := replayed
  rw [called] at value
  cases value
  exact silent _ (List.mem_cons_of_mem _ List.mem_cons_self)

end AccessControl.StaleResponse
