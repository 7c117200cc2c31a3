import AccessControl.LockSteps

/-! A group of doors that no other door names as its partner, and whose wires no other door has:
what there is to see of it, and that nothing of it changes by whatever the other doors do. -/
namespace AccessControl.DoorGroup
open BitMask DoorTable Gpio DoorController RemoteControl Run LockSteps

variable {n : Nat}

/- What can be seen and heard at the doors of a group: their lamps, and the wires they have. -/
inductive Seen (n : Nat) where
  | signal (signal : Signal) (reader : ReaderId n)
  | clear (reader : ReaderId n)
  | drive (operation : DoorOperations) (mask : Mask)
  deriving DecidableEq, Repr

section
variable (group : Fin n → Bool) (wires : Mask)

def seen : Effect n → Option (Seen n)
  | .readerSignal signal r => if group r.door then some (.signal signal r) else none
  | .clearReaderData r => if group r.door then some (.clear r) else none
  | .setDoorState operation mask => if mask &&& wires = 0 then none else some (.drive operation (mask &&& wires))
  | _ => none

/- Two states that a group cannot tell apart. -/
structure Alike (s t : State n) : Prop where
  doors : ∀ i, group i = true → s.doors i = t.doors i
  seen : s.log.filterMap (seen group wires) = t.log.filterMap (seen group wires)

/- No door outside the group reaches into it. -/
structure Enclosed (cfg : Config n) : Prop where
  wires : ∀ i, group i = false → outputs cfg i &&& wires = 0
  partner : ∀ i p, group i = false → (cfg i).airLockPartnerLocal = some p → group p = false

end

/- The door that a datagram is for. -/
def addressee (cfg : Config n) (datagram : Bytes) : Option (Fin n) :=
  let w := words datagram
  match w.cmd, w.door, w.arg1 with
  | some _, some door, some _ => getDoorByName cfg door
  | _, _, _ => none

/- What a step of the program brings to the doors of a group. -/
inductive Part (n : Nat) where
  | mainLoop (readerData : ReaderId n → List Callback) (input : Fin n → Byte)
  | checkNetwork (door : Fin n) (datagram : Bytes) (db : Sqlite)
  | processUserInfo (reader : ReaderId n) (callback : Callback)
  | checkInputs (input : Fin n → Byte)

section
variable (cfg : Config n) (group : Fin n → Bool)

def inputs (reading : Reading) (inputVal : Fin n → Byte) (i : Fin n) : Byte :=
  if group i then getInputState reading inputVal (~~~(~~~0#32 <<< n)) i else 0

def part : Step n → Option (Part n)
  | .mainLoop pass => some (.mainLoop (fun r => if group r.door then pass.readerData r else []) (inputs group pass.reading pass.inputVal))
  | .checkNetwork datagram db => ((addressee cfg datagram).filter group).map fun i => .checkNetwork i datagram db
  | .processUserInfo r cb => if group r.door then some (.processUserInfo r cb) else none
  | .checkInputs reading inputVal => some (.checkInputs (inputs group reading inputVal))

inductive Brings : Step n → Part n → Prop where
  | mainLoop {pass : Pass n} {data : ReaderId n → List Callback} {input : Fin n → Byte}
      (given : (fun r => if group r.door then pass.readerData r else []) = data) (lines : inputs group pass.reading pass.inputVal = input) :
      Brings (.mainLoop pass) (.mainLoop data input)
  | checkNetwork {i : Fin n} {datagram : Bytes} {db : Sqlite} (mine : (addressee cfg datagram).filter group = some i) :
      Brings (.checkNetwork datagram db) (.checkNetwork i datagram db)
  | processUserInfo {r : ReaderId n} {cb : Callback} (own : group r.door = true) : Brings (.processUserInfo r cb) (.processUserInfo r cb)
  | checkInputs {reading : Reading} {inputVal : Fin n → Byte} {input : Fin n → Byte} (lines : inputs group reading inputVal = input) :
      Brings (.checkInputs reading inputVal) (.checkInputs input)

theorem brings {cfg : Config n} {group : Fin n → Bool} {a : Step n} {brought : Part n} (mine : part cfg group a = some brought) :
    Brings cfg group a brought := by
  cases a with
  | mainLoop pass =>
    obtain rfl := Option.some.inj mine
    exact .mainLoop rfl rfl
  | checkNetwork datagram db =>
    obtain ⟨i,asked,rfl⟩ := Option.map_eq_some_iff.mp mine
    exact .checkNetwork asked
  | processUserInfo r cb =>
    obtain ⟨own,same⟩ := Option.ite_none_right_eq_some.mp mine
    cases same
    exact .processUserInfo own
  | checkInputs reading inputVal =>
    obtain rfl := Option.some.inj mine
    exact .checkInputs rfl

/- The rows of the table that are for the group, with their doors. -/
def rowPart (row : StateRow) : Option (Fin n × StateRow) := ((getDoorByName cfg row.door).filter group).map fun i => (i,row)

end

section
variable {group : Fin n → Bool} {wires : Mask} {s t u : State n}

theorem Alike.refl (s : State n) : Alike group wires s s := ⟨fun _ _ => rfl,rfl⟩
theorem Alike.symm (h : Alike group wires s t) : Alike group wires t s := ⟨fun i own => (h.doors i own).symm,h.seen.symm⟩
theorem Alike.trans (first : Alike group wires s t) (second : Alike group wires t u) : Alike group wires s u :=
  ⟨fun i own => (first.doors i own).trans (second.doors i own),first.seen.trans second.seen⟩

theorem Alike.reader (h : Alike group wires s t) {r : ReaderId n} (own : group r.door = true) : s.doorReader r = t.doorReader r :=
  congrArg (fun d : Door => d.reader r.side) (h.doors r.door own)

theorem emitAlike (h : Alike group wires s t) {e e' : Effect n} (same : seen group wires e = seen group wires e') :
    Alike group wires (s.emit e) (t.emit e') := by
  refine ⟨h.doors,?_⟩
  rw [emitLog,emitLog,List.filterMap_cons,List.filterMap_cons,same,h.seen]

theorem emitSame (h : Alike group wires s t) (e : Effect n) : Alike group wires (s.emit e) (t.emit e) := emitAlike h rfl

theorem emitUnseen {e : Effect n} (unseen : seen group wires e = none) (s : State n) : Alike group wires (s.emit e) s :=
  ⟨fun _ _ => rfl,List.filterMap_cons_none unseen⟩

theorem updateAlike (h : Alike group wires s t) (i : Fin n) {f g : Door → Door}
    (same : group i = true → f (s.doors i) = g (t.doors i)) : Alike group wires (s.update i f) (t.update i g) := by
  refine ⟨fun j own => ?_,h.seen⟩
  rw [updateDoor,updateDoor]
  split
  · rename_i here
    subst here
    exact same own
  · exact h.doors j own

theorem updateSame (h : Alike group wires s t) (i : Fin n) (f : Door → Door) : Alike group wires (s.update i f) (t.update i f) :=
  updateAlike h i fun own => congrArg f (h.doors i own)

theorem updateOutside {i : Fin n} (out : group i = false) (f : Door → Door) (s : State n) : Alike group wires (s.update i f) s := by
  refine ⟨fun j own => updateOther s f ?_,rfl⟩
  rintro rfl
  exact Bool.false_ne_true (out.symm.trans own)

theorem readerAlike (h : Alike group wires s t) (r : ReaderId n) (f : DoorReader → DoorReader) :
    Alike group wires (s.setReader r f) (t.setReader r f) := updateSame h r.door _

theorem readerOutside {r : ReaderId n} (out : group r.door = false) (f : DoorReader → DoorReader) (s : State n) :
    Alike group wires (s.setReader r f) s := updateOutside out _ s

theorem eventUnseen (cfg : Config n) (i event) (s : State n) : Alike group wires (sendEvent cfg i event s) s := emitUnseen (e := .sendEvent event _) rfl s

theorem signalUnseen {r : ReaderId n} (out : group r.door = false) (signal) (s : State n) :
    Alike group wires (s.emit (.readerSignal signal r)) s := by
  refine emitUnseen ?_ s
  rw [seen,out]
  rfl

end

/- A door outside the group, or one of its readers, whatever it does. -/
section
variable {cfg : Config n} {group : Fin n → Bool} {wires : Mask}

theorem doorSignalOutside {i : Fin n} (out : group i = false) (signal) (s : State n) : Alike group wires (doorSignal cfg i signal s) s := by
  unfold doorSignal
  split <;> split
  · exact (signalUnseen (r := ⟨i,.B⟩) out signal _).trans (signalUnseen (r := ⟨i,.A⟩) out signal s)
  · exact signalUnseen (r := ⟨i,.A⟩) out signal s
  · exact signalUnseen (r := ⟨i,.B⟩) out signal s
  · exact .refl s

theorem statusOutside {i : Fin n} (out : group i = false) (s : State n) : Alike group wires (signalDoorStatus cfg i s) s := by
  unfold signalDoorStatus
  split <;> exact doorSignalOutside out _ s

section
variable (enclosed : Enclosed group wires cfg)
include enclosed

theorem airLockOutside {i : Fin n} (out : group i = false) (mask) (s : State n) : Alike group wires (airLockOnPartner cfg i mask s) s := by
  unfold airLockOnPartner
  cases partner : (cfg i).airLockPartnerLocal with
  | none => exact .refl s
  | some p =>
    refine (statusOutside out _).trans ?_
    have far := enclosed.partner i p out partner
    split
    · split
      · exact updateOutside far _ s
      · exact .refl s
    · exact updateOutside far _ s

theorem driveOutside {i : Fin n} (out : group i = false) (operation) {mask : Mask}
    (own : ∀ k, mask.getLsbD k = true → (outputs cfg i).getLsbD k = true) (s : State n) :
    Alike group wires (s.emit (.setDoorState operation mask)) s := by
  have none' : mask &&& wires = 0 := by
    apply BitVec.eq_of_getLsbD_eq
    intro k _
    refine Eq.trans ?_ BitVec.getLsbD_zero.symm
    rw [BitVec.getLsbD_and]
    cases bit : mask.getLsbD k with
    | false => rfl
    | true => rw [disjointBit (enclosed.wires i out) (own k bit),Bool.and_false]
  refine emitUnseen ?_ s
  rw [seen,if_pos none']

theorem unlockOutside {i : Fin n} (out : group i = false) (mask) (s : State n) : Alike group wires (unlockDoor cfg i mask s).1 s := by
  have own : ∀ k, (unlockMask cfg i mask (s.doors i)).getLsbD k = true → (outputs cfg i).getLsbD k = true := by
    intro k bit
    obtain ⟨low,high,_,full,_⟩ := (unlockMaskBit ..).mp bit
    exact (outputsBit ..).mpr ⟨low,high,full⟩
  have called : Alike group wires (s.emit (.unlockDoor i mask (unlockMask cfg i mask (s.doors i)) s.doors)) s :=
    emitUnseen (e := .unlockDoor i mask _ s.doors) rfl s
  unfold unlockDoor
  dsimp only
  split
  · refine (doorSignalOutside out _ _).trans ((updateOutside out _ _).trans ((eventUnseen cfg i _ _).trans ?_))
    exact (driveOutside enclosed out _ own _).trans ((airLockOutside enclosed out _ _).trans called)
  · exact called

theorem lockOutside {i : Fin n} (out : group i = false) (mask) (s : State n) : Alike group wires (lockDoor cfg i mask s).1 s := by
  have own : ∀ k, (lockMask cfg i mask (s.doors i)).getLsbD k = true → (outputs cfg i).getLsbD k = true := by
    intro k bit
    obtain ⟨low,high,_,full,_⟩ := (lockMaskBit ..).mp bit
    exact (outputsBit ..).mpr ⟨low,high,full⟩
  unfold lockDoor
  dsimp only
  split
  · refine (doorSignalOutside out _ _).trans ((eventUnseen cfg i _ _).trans ?_)
    exact (airLockOutside enclosed out _ _).trans (driveOutside enclosed out _ own s)
  · exact .refl s

theorem tickOutside {i : Fin n} (out : group i = false) (s : State n) : Alike group wires (lockTimer cfg i s) s := by
  rcases lockTimerCases cfg i s with ⟨_,same⟩ | ⟨_,_,same⟩ | ⟨_,_,same⟩ <;> rw [same]
  · exact .refl s
  · exact updateOutside out _ s
  · exact (lockOutside enclosed out _ _).trans (updateOutside out _ s)

theorem senseOutside {i : Fin n} (out : group i = false) (diff input) (s : State n) : Alike group wires (inputSense cfg i diff input s) s := by
  have event : ∀ e (s : State n), Alike group wires (sendEvent cfg i e s) s := eventUnseen cfg i
  have emergency : Alike group wires (inputEmergency cfg i diff input s) s := by
    unfold inputEmergency
    split
    · split
      · exact (airLockOutside enclosed out _ _).trans (event _ s)
      · exact event _ s
    · exact .refl s
  have close : ∀ s : State n, Alike group wires (inputDoorClose cfg i diff input s) s := by
    intro s
    unfold inputDoorClose
    split
    · split <;> exact (airLockOutside enclosed out _ _).trans (event _ s)
    · exact .refl s
  have lock : ∀ s : State n, Alike group wires (inputDoorLock cfg i diff input s) s := by
    intro s
    unfold inputDoorLock
    split
    · split <;> exact event _ s
    · exact .refl s
  unfold inputSense
  exact (updateOutside out _ _).trans ((lock _).trans ((close _).trans emergency))

omit enclosed in
theorem alarmOutside {i : Fin n} (out : group i = false) (input) (s : State n) : Alike group wires (inputAlarm cfg i input s) s := by
  unfold inputAlarm
  dsimp only
  split
  · split
    · exact updateOutside out _ s
    · split
      · exact (updateOutside out _ _).trans ((eventUnseen cfg i _ _).trans (updateOutside out _ s))
      · exact updateOutside out _ s
  · exact updateOutside out _ s

theorem checkDoorOutside {i : Fin n} (out : group i = false) (input) (s : State n) : Alike group wires (checkDoorInputs cfg i input s) s := by
  have pressed : ∀ diff, Alike group wires (inputManualOpen cfg i diff input s) s := by
    intro diff
    unfold inputManualOpen
    split
    · exact (unlockOutside enclosed out 1 _).trans (eventUnseen cfg i _ s)
    · exact .refl s
  unfold checkDoorInputs
  refine (alarmOutside out _ _).trans ?_
  split
  · exact (senseOutside enclosed out _ _ _).trans (pressed _)
  · exact .refl s

end

section
variable {r : ReaderId n} (out : group r.door = false)
include out

theorem resetOutside (s : State n) : Alike group wires (resetDoorAuth r s) s :=
  (readerOutside out _ _).trans (emitUnseen (e := .resetDoorAuth r) rfl s)

theorem timerOutside (s : State n) : Alike group wires (twoFactorTimer r s) s := by
  have noted : Alike group wires (s.emit (.twoFactorTimer r)) s := emitUnseen (e := .twoFactorTimer r) rfl s
  have dropped : ∀ s : State n, Alike group wires (s.emit (.clearReaderData r)) s := by
    intro s
    refine emitUnseen ?_ s
    rw [seen,out]
    rfl
  unfold twoFactorTimer
  dsimp only
  split
  · split
    · exact (signalUnseen out _ _).trans ((dropped _).trans ((resetOutside out _).trans ((readerOutside out _ _).trans noted)))
    · exact (signalUnseen out _ _).trans ((readerOutside out _ _).trans noted)
  · exact noted

omit out in
theorem askUnseen (database) (r : ReaderId n) (query) (s : State n) : Alike group wires (ask database r query s).1 s := by
  have events : ∀ (es : List (Event × Option Bytes)) (s : State n), Alike group wires (es.foldl (fun s e => s.emit (.sendEvent e.1 e.2)) s) s :=
    fun es s => foldlInvariant (Alike group wires · s) (fun t e _ reached => (emitUnseen (e := .sendEvent e.1 e.2) rfl t).trans reached) (.refl s)
  exact (emitUnseen (e := .access r query _) rfl _).trans (events _ s)

theorem startOutside (s : State n) : Alike group wires (startTwoFactor r s) s := by
  unfold startTwoFactor
  split
  · exact (readerOutside out _ _).trans (signalUnseen out _ s)
  · exact .refl s

theorem authMaskOutside (database) (s : State n) : Alike group wires (authMask cfg database r s).1 s := by
  have access : ∀ mode, Alike group wires (getAccessMask cfg database r mode s).1 s := fun mode => askUnseen database r _ s
  have stop : ∀ s : State n, Alike group wires (stopTwoFactor r s) s := fun s => readerOutside out _ s
  have switched := authMaskSwitched cfg database r s
  generalize authMask cfg database r s = found at switched ⊢
  cases switched with
  | nothing => exact .refl s
  | waiting => exact startOutside out s
  | access mode => exact access mode
  | stopped mode => exact (stop _).trans (access mode)
  | denied mode => exact (startOutside out _).trans (access mode)
  | keys =>
    have key : Alike group wires (checkKeyAccess database r s).1 s := askUnseen database r _ s
    have cleared := (readerOutside out (fun reader => {reader with card2Len := 0}) _).trans ((stop _).trans key)
    exact cleared

theorem processOutside (enclosed : Enclosed group wires cfg) (cb) (s : State n) : Alike group wires (processUserInfo cfg r cb s) s := by
  have noted : Alike group wires (s.emit (.processUserInfo r cb)) s := emitUnseen (e := .processUserInfo r cb) rfl s
  have judged : ∀ (database) (s : State n), Alike group wires (authorise cfg database r s) s := by
    intro database s
    have asked : Alike group wires (authMask cfg database r s).1 s := authMaskOutside out database s
    unfold authorise
    dsimp only
    split
    · exact (resetOutside out _).trans ((unlockOutside enclosed out _ _).trans asked)
    · split
      · exact (resetOutside out _).trans ((signalUnseen out _ _).trans asked)
      · exact asked
  unfold processUserInfo
  dsimp only
  split
  · rcases storeCases cfg r cb (s.emit (.processUserInfo r cb)) with ⟨signal,_,refused⟩ | ⟨_,f,stored,_⟩
    · rw [refused]
      exact (signalUnseen out _ _).trans ((resetOutside out _).trans noted)
    · rw [stored]
      exact (judged _ _).trans ((readerOutside out f _).trans noted)
  · exact (signalUnseen out _ _).trans noted

end

theorem turnOutside (enclosed : Enclosed group wires cfg) {i : Fin n} (out : group i = false) (pass : Pass n) (s : State n) :
    Alike group wires (doorTurn cfg pass s i) s := by
  have data : ∀ side (s : State n), Alike group wires (getReaderData cfg pass ⟨i,side⟩ s) s := by
    intro side s
    unfold getReaderData
    split
    · exact foldlInvariant (Alike group wires · s)
        (fun t cb _ reached => (processOutside (r := ⟨i,side⟩) out enclosed cb t).trans reached) (.refl s)
    · exact .refl s
  have counts : ∀ side (s : State n), Alike group wires (twoFactorTimer ⟨i,side⟩ s) s := fun side s => timerOutside out s
  exact (data .B _).trans ((data .A _).trans ((counts .B _).trans ((counts .A _).trans (tickOutside enclosed out s))))

end

/- The commands. A reply and the table go past the doors. -/
section
variable {group : Fin n → Bool} {wires : Mask} {s t : State n}

theorem sendUnseen (reply) (s : State n) : Alike group wires (sendto reply s) s := emitUnseen (e := .sendto reply) rfl s

theorem settledUnseen (ok : Prop) [Decidable ok] (s : State n) : Alike group wires (if ok then sendto rOk s else sendto rErr s) s := by
  split <;> exact sendUnseen _ s

theorem dbUnseen (door state arg action done) (s : State n) : Alike group wires (dbSetUnset door state arg action done s).1 s := by
  unfold dbSetUnset
  dsimp only
  split
  · split <;> exact ⟨fun _ _ => rfl,rfl⟩
  · exact .refl s

theorem dbReturns (door state arg action done) (s : State n) : (dbSetUnset door state arg action done s).2 = if done then 0 else 2 := by
  unfold dbSetUnset
  dsimp only
  split
  · split <;> rfl
  · rfl

theorem rowUnseen (door clear mode arg2 db) (s : State n) : Alike group wires (setRow door clear mode arg2 db s).1 s :=
  (dbUnseen door mode arg2 .dbSet db.second _).trans (dbUnseen door clear arg2 .dbUnset db.first s)

theorem rowReturns (door clear mode arg2 db) (s : State n) :
    (setRow door clear mode arg2 db s).2 = (if db.first then 0 else 2) + if db.second then 0 else 2 := by
  unfold setRow
  dsimp only
  rw [dbReturns,dbReturns]

theorem getUnseen (db i door arg1) (s : State n) : Alike group wires (getCommand db i door arg1 s) s := by
  have replied : ∀ text, Alike group wires (replyText text s) s := by
    intro text
    unfold replyText
    split <;> exact sendUnseen _ s
  unfold getCommand
  split
  · exact replied _
  · split
    · exact replied _
    · exact sendUnseen _ s

section
variable {cfg : Config n} {i : Fin n}

theorem setOutside (enclosed : Enclosed group wires cfg) (out : group i = false) (db door arg1 arg2) (s : State n) :
    Alike group wires (setCommand cfg db i door arg1 arg2 s) s := by
  have stored : ∀ {clear mode} {u : State n}, Alike group wires u s →
      Alike group wires (signalDoorStatus cfg i (setRow door clear mode arg2 db u).1) s :=
    fun h => (statusOutside out _).trans ((rowUnseen ..).trans h)
  unfold setCommand
  dsimp only
  split
  · have taken : Alike group wires (setUnlock cfg i arg2 s) s := by
      unfold setUnlock
      exact (updateOutside out _ _).trans ((unlockOutside enclosed out _ _).trans (updateOutside out _ s))
    exact (settledUnseen _ _).trans (stored taken)
  · split
    · have taken : Alike group wires (setLock cfg i arg2 s) s := by
        unfold setLock
        exact (updateOutside out _ _).trans ((lockOutside enclosed out _ _).trans (updateOutside out _ s))
      exact (settledUnseen _ _).trans (stored taken)
    · exact sendUnseen _ s

theorem unsetOutside (out : group i = false) (db door arg1 arg2) (s : State n) :
    Alike group wires (unsetCommand cfg db i door arg1 arg2 s) s := by
  have gone : Alike group wires (dbSetUnset door arg1 arg2 .dbUnset db.first s).1 s := dbUnseen door arg1 arg2 .dbUnset db.first s
  unfold unsetCommand
  dsimp only
  split
  · refine (sendUnseen _ _).trans ?_
    split
    · exact (statusOutside out _).trans ((updateOutside out _ _).trans gone)
    · exact gone
  · exact (sendUnseen _ _).trans gone

theorem doOutside (enclosed : Enclosed group wires cfg) (out : group i = false) (arg1 arg2) (s : State n) :
    Alike group wires (doCommand cfg i arg1 arg2 s) s := by
  have replied : ∀ (done : Prop) [Decidable done] {u : State n}, Alike group wires u s →
      Alike group wires (if done then signalDoorStatus cfg i (sendto rOk u) else sendto rErr u) s := by
    intro done _ u h
    split
    · exact (statusOutside out _).trans ((sendUnseen _ _).trans h)
    · exact (sendUnseen _ _).trans h
  unfold doCommand
  dsimp only
  split
  · exact replied _ (unlockOutside enclosed out _ s)
  · split
    · exact replied _ (lockOutside enclosed out _ s)
    · split
      · exact (sendUnseen _ _).trans (updateOutside out _ s)
      · split
        · exact (sendUnseen _ _).trans (updateOutside out _ s)
        · exact sendUnseen _ s

theorem commandOutside (enclosed : Enclosed group wires cfg) (out : group i = false) (db cmd door arg1 argX) (s : State n) :
    Alike group wires (command cfg db i cmd door arg1 argX s) s := by
  unfold command
  dsimp only
  split
  · exact getUnseen db i door arg1 s
  · split
    · exact setOutside enclosed out db door arg1 _ s
    · split
      · exact unsetOutside out db door arg1 _ s
      · split
        · exact doOutside enclosed out arg1 _ s
        · exact sendUnseen _ s

end

theorem networkCases (group : Fin n → Bool) (wires : Mask) (cfg : Config n) (datagram : Bytes) (db : Sqlite) :
    addressee cfg datagram = none ∧ (∀ s, Alike group wires (checkNetwork cfg datagram db s) s) ∨
    ∃ i cmd door arg1, addressee cfg datagram = some i ∧
      ((words datagram).cmd = some cmd ∧ (words datagram).door = some door ∧ (words datagram).arg1 = some arg1) ∧
      ∀ s, ∃ u, Alike group wires u s ∧ checkNetwork cfg datagram db s = command cfg db i cmd door arg1 ((words datagram).argX.map toInt) u := by
  have noted : ∀ event door (s : State n), Alike group wires (s.emit (.sendEvent event door)) s :=
    fun event door s => emitUnseen (e := .sendEvent event door) rfl s
  by_cases nonempty : datagram = []
  · subst nonempty
    exact .inl ⟨rfl,fun s => .refl s⟩
  · simp only [checkNetwork,addressee,if_neg nonempty]
    generalize words datagram = w
    obtain ⟨cmd,door,arg1,argX⟩ := w
    cases cmd with
    | none => exact .inl ⟨rfl,fun s => (sendUnseen _ _).trans (noted _ _ s)⟩
    | some cmd =>
      cases door with
      | none => exact .inl ⟨rfl,fun s => (sendUnseen _ _).trans (noted _ _ s)⟩
      | some door =>
        cases arg1 with
        | none => exact .inl ⟨rfl,fun s => (sendUnseen _ _).trans (noted _ _ s)⟩
        | some arg1 =>
          dsimp only
          cases found : getDoorByName cfg door with
          | none => exact .inl ⟨rfl,fun s => (sendUnseen _ _).trans (noted _ _ s)⟩
          | some i => exact .inr ⟨i,cmd,door,arg1,rfl,⟨rfl,rfl,rfl⟩,fun s => ⟨_,noted _ _ s,rfl⟩⟩

theorem networkOutside {cfg : Config n} (enclosed : Enclosed group wires cfg) {datagram : Bytes} {db : Sqlite}
    (other : (addressee cfg datagram).filter group = none) (s : State n) : Alike group wires (checkNetwork cfg datagram db s) s := by
  rcases networkCases group wires cfg datagram db with ⟨_,passed⟩ | ⟨i,cmd,door,arg1,found,_,ran⟩
  · exact passed s
  · obtain ⟨u,before,same⟩ := ran s
    have out : group i = false := by simpa [found,Option.filter] using other
    rw [same]
    exact (commandOutside enclosed out db cmd door arg1 _ u).trans before

theorem rowOutside {cfg : Config n} (enclosed : Enclosed group wires cfg) {row : StateRow} (other : rowPart cfg group row = none) (s : State n) :
    Alike group wires (restoreRow cfg s row) s := by
  unfold restoreRow
  cases found : getDoorByName cfg row.door with
  | none => exact .refl s
  | some i =>
    have out : group i = false := by simpa [rowPart,found,Option.filter] using other
    refine (statusOutside out _).trans ?_
    split
    · exact (updateOutside out _ _).trans (unlockOutside enclosed out _ s)
    · split
      · exact (updateOutside out _ _).trans (lockOutside enclosed out _ s)
      · exact .refl s

theorem stepOutside {cfg : Config n} (enclosed : Enclosed group wires cfg) {a : Step n} (other : part cfg group a = none) (s : State n) :
    Alike group wires (step cfg s a) s := by
  cases a with
  | mainLoop pass => cases other
  | checkNetwork datagram db => exact networkOutside enclosed (Option.map_eq_none_iff.mp other) s
  | processUserInfo r cb =>
    have out : group r.door = false := by simpa [part] using other
    exact processOutside out enclosed cb s
  | checkInputs reading inputVal => cases other

end
end AccessControl.DoorGroup
