import AccessControl.DoorGroup

/-! Doors that have nothing to do with one another. A group that no other door reaches into goes its
own way, whatever the rest of the site is and whatever happens there. -/
namespace AccessControl.Independence
open BitMask DoorTable Gpio DoorController RemoteControl Run LockSteps DoorGroup

variable {n : Nat}

/- A door of the group, or one of its readers, in two sites that agree about the group. -/
section
variable {cfg cfg' : Config n} {group : Fin n → Bool} {wires : Mask} {s t : State n}

def AlikeWith (group : Fin n → Bool) (wires : Mask) (found found' : State n × Mask) : Prop :=
  Alike group wires found.1 found'.1 ∧ found.2 = found'.2

inductive AlikeStored (group : Fin n → Bool) (wires : Mask) : Except (State n) (State n) → Except (State n) (State n) → Prop where
  | error {u v : State n} (h : Alike group wires u v) : AlikeStored group wires (.error u) (.error v)
  | ok {u v : State n} (h : Alike group wires u v) : AlikeStored group wires (.ok u) (.ok v)

theorem eventAlike (h : Alike group wires s t) (i event) : Alike group wires (sendEvent cfg i event s) (sendEvent cfg' i event t) :=
  (eventUnseen cfg i event s).trans (h.trans (eventUnseen cfg' i event t).symm)

section
variable (agree : ∀ i, group i = true → cfg i = cfg' i)
include agree

section
variable {i : Fin n} (own : group i = true)
include own

theorem doorSignalAlike (h : Alike group wires s t) (signal) : Alike group wires (doorSignal cfg i signal s) (doorSignal cfg' i signal t) := by
  unfold doorSignal
  rw [agree i own]
  split <;> split
  · exact emitSame (emitSame h _) _
  · exact emitSame h _
  · exact emitSame h _
  · exact h

theorem statusAlike (h : Alike group wires s t) : Alike group wires (signalDoorStatus cfg i s) (signalDoorStatus cfg' i t) := by
  unfold signalDoorStatus
  rw [h.doors i own]
  split <;> exact doorSignalAlike agree own h _

theorem airLockAlike (h : Alike group wires s t) (mask) : Alike group wires (airLockOnPartner cfg i mask s) (airLockOnPartner cfg' i mask t) := by
  unfold airLockOnPartner
  rw [agree i own]
  cases (cfg' i).airLockPartnerLocal with
  | none => exact h
  | some p =>
    refine statusAlike agree own ?_
    rw [h.doors i own]
    split
    · split
      · exact updateSame h p _
      · exact h
    · refine updateAlike h p fun inside => ?_
      rw [agree p inside,h.doors p inside]

theorem unlockAlike (h : Alike group wires s t) (mask) : AlikeWith group wires (unlockDoor cfg i mask s) (unlockDoor cfg' i mask t) := by
  have result : unlockMask cfg i mask (s.doors i) = unlockMask cfg' i mask (t.doors i) := by
    rw [unlockMask,unlockMask,agree i own,h.doors i own]
  unfold unlockDoor
  rw [result]
  generalize unlockMask cfg' i mask (t.doors i) = mask'
  have called : Alike group wires (s.emit (.unlockDoor i mask mask' s.doors)) (t.emit (.unlockDoor i mask mask' t.doors)) := emitAlike h rfl
  dsimp only
  split
  · have driven := emitSame (airLockAlike agree own called (-1)) (.setDoorState .doUnlock mask')
    exact ⟨doorSignalAlike agree own (updateSame (eventAlike driven i _) i _) _,rfl⟩
  · exact ⟨called,rfl⟩

theorem lockAlike (h : Alike group wires s t) (mask) : AlikeWith group wires (lockDoor cfg i mask s) (lockDoor cfg' i mask t) := by
  have result : lockMask cfg i mask (s.doors i) = lockMask cfg' i mask (t.doors i) := by
    rw [lockMask,lockMask,agree i own,h.doors i own]
  unfold lockDoor
  rw [result]
  dsimp only
  split
  · have driven := airLockAlike agree own (emitSame h (.setDoorState .doLock (lockMask cfg' i mask (t.doors i)))) 0
    exact ⟨doorSignalAlike agree own (eventAlike driven i _) _,rfl⟩
  · exact ⟨h,rfl⟩

theorem tickAlike (h : Alike group wires s t) : Alike group wires (lockTimer cfg i s) (lockTimer cfg' i t) := by
  have less := updateSame h i fun d => {d with doorLockTimer := d.doorLockTimer - 1}
  unfold lockTimer
  dsimp only
  rw [h.doors i own,less.doors i own,agree i own]
  split
  · split
    · exact (lockAlike agree own less _).1
    · exact less
  · exact h

theorem senseAlike (h : Alike group wires s t) (diff input) : Alike group wires (inputSense cfg i diff input s) (inputSense cfg' i diff input t) := by
  have emergency : Alike group wires (inputEmergency cfg i diff input s) (inputEmergency cfg' i diff input t) := by
    unfold inputEmergency
    split
    · split
      · exact airLockAlike agree own (eventAlike h i _) _
      · exact eventAlike h i _
    · exact h
  have close : ∀ {s t : State n}, Alike group wires s t → Alike group wires (inputDoorClose cfg i diff input s) (inputDoorClose cfg' i diff input t) := by
    intro s t h
    unfold inputDoorClose
    split
    · split <;> exact airLockAlike agree own (eventAlike h i _) _
    · exact h
  have lock : ∀ {s t : State n}, Alike group wires s t → Alike group wires (inputDoorLock cfg i diff input s) (inputDoorLock cfg' i diff input t) := by
    intro s t h
    unfold inputDoorLock
    split
    · split <;> exact eventAlike h i _
    · exact h
  unfold inputSense
  exact updateSame (lock (close emergency)) i _

omit agree in
theorem alarmAlike (h : Alike group wires s t) (input) : Alike group wires (inputAlarm cfg i input s) (inputAlarm cfg' i input t) := by
  have less := updateSame h i fun d => {d with alarmTimers := d.alarmTimers - 1}
  unfold inputAlarm
  dsimp only
  rw [h.doors i own,less.doors i own]
  split
  · split
    · exact updateSame h i _
    · split
      · exact updateSame (eventAlike less i _) i _
      · exact less
  · exact updateSame h i _

theorem checkDoorAlike (h : Alike group wires s t) (input) : Alike group wires (checkDoorInputs cfg i input s) (checkDoorInputs cfg' i input t) := by
  have pressed : ∀ diff, Alike group wires (inputManualOpen cfg i diff input s) (inputManualOpen cfg' i diff input t) := by
    intro diff
    unfold inputManualOpen
    split
    · exact (unlockAlike agree own (eventAlike h i _) 1).1
    · exact h
  unfold checkDoorInputs
  dsimp only
  refine alarmAlike own ?_ _
  rw [h.doors i own]
  split
  · exact senseAlike agree own (pressed _) _ _
  · exact h

end

section
variable {r : ReaderId n} (own : group r.door = true)

omit agree in
theorem resetAlike (h : Alike group wires s t) (r : ReaderId n) : Alike group wires (resetDoorAuth r s) (resetDoorAuth r t) :=
  readerAlike (emitSame h _) r _

omit agree in
include own in
theorem timerAlike (h : Alike group wires s t) : Alike group wires (twoFactorTimer r s) (twoFactorTimer r t) := by
  have noted := emitSame h (.twoFactorTimer r)
  have less := readerAlike noted r fun reader => {reader with twoFactorTimer := reader.twoFactorTimer - 1}
  unfold twoFactorTimer
  dsimp only
  rw [noted.reader own,less.reader own]
  split
  · split
    · exact emitSame (emitSame (resetAlike less r) _) _
    · exact emitSame less _
  · exact noted

omit agree in
theorem askAlike (h : Alike group wires s t) (database) (r : ReaderId n) (query) :
    AlikeWith group wires (ask database r query s) (ask database r query t) :=
  ⟨(askUnseen database r query s).trans (h.trans (askUnseen database r query t).symm),rfl⟩

omit agree in
include own in
theorem startAlike (h : Alike group wires s t) : Alike group wires (startTwoFactor r s) (startTwoFactor r t) := by
  unfold startTwoFactor
  rw [h.reader own]
  split
  · exact readerAlike (emitSame h _) r _
  · exact h

include own

theorem storeAlike (h : Alike group wires s t) (cb) : AlikeStored group wires (storeCredential cfg r cb s) (storeCredential cfg' r cb t) := by
  unfold storeCredential
  dsimp only
  rw [h.reader own,agree r.door own]
  cases cb.dataMode with
  | dataOk =>
    cases cb.dataType with
    | dataIsPin =>
      dsimp only
      split
      · exact .error (emitSame (resetAlike h r) _)
      · split
        · exact .error (emitSame (resetAlike h r) _)
        · exact .ok (readerAlike h r _)
    | dataIsCard =>
      dsimp only
      split
      · exact .error (emitSame (resetAlike h r) _)
      · split
        · split
          · exact .error (emitSame (resetAlike h r) _)
          · exact .ok (readerAlike h r _)
        · exact .ok (readerAlike h r _)
  | dataOutOfBuf => exact .error (emitSame (resetAlike h r) _)
  | dataTimeout => exact .error (emitSame (resetAlike h r) _)

theorem authMaskAlike (h : Alike group wires s t) (database) : AlikeWith group wires (authMask cfg database r s) (authMask cfg' database r t) := by
  have access : ∀ mode, AlikeWith group wires (getAccessMask cfg database r mode s) (getAccessMask cfg' database r mode t) := by
    intro mode
    unfold getAccessMask
    dsimp only
    rw [h.reader own,agree r.door own]
    exact askAlike h database r _
  have key : AlikeWith group wires (checkKeyAccess database r s) (checkKeyAccess database r t) := by
    unfold checkKeyAccess
    dsimp only
    rw [h.reader own]
    exact askAlike h database r _
  have stop : ∀ {s t : State n}, Alike group wires s t → Alike group wires (stopTwoFactor r s) (stopTwoFactor r t) := fun h => readerAlike h r _
  unfold authMask
  dsimp only
  rw [h.reader own,agree r.door own]
  split
  · split
    · exact access _
    · split
      · exact access _
      · exact ⟨h,rfl⟩
  · split
    · split
      · exact access _
      · exact ⟨h,rfl⟩
    · split
      · split
        · exact access _
        · exact ⟨h,rfl⟩
      · split
        · split
          · exact ⟨stop (access _).1,(access _).2⟩
          · split
            · rw [(access modeCardAndPin).2]
              split
              · exact ⟨stop (access _).1,rfl⟩
              · exact ⟨startAlike own (access _).1,rfl⟩
            · exact ⟨startAlike own h,rfl⟩
        · split
          · split
            · have cleared := readerAlike (stop key.1) r fun reader => {reader with card2Len := 0}
              exact ⟨cleared,key.2⟩
            · exact ⟨startAlike own h,rfl⟩
          · exact ⟨h,rfl⟩

theorem processAlike (h : Alike group wires s t) (cb) : Alike group wires (processUserInfo cfg r cb s) (processUserInfo cfg' r cb t) := by
  have judged : ∀ {s t : State n}, Alike group wires s t → Alike group wires (authorise cfg cb.database r s) (authorise cfg' cb.database r t) := by
    intro s t h
    obtain ⟨asked,mask⟩ := authMaskAlike agree own h cb.database
    unfold authorise
    dsimp only
    rw [mask,asked.reader own]
    split
    · exact resetAlike (unlockAlike agree own asked _).1 r
    · split
      · exact resetAlike (emitSame asked _) r
      · exact asked
  have noted := emitSame h (.processUserInfo r cb)
  have stored := storeAlike agree own noted cb
  unfold processUserInfo
  dsimp only
  rw [agree r.door own]
  split
  · revert stored
    generalize storeCredential cfg r cb _ = first
    generalize storeCredential cfg' r cb _ = second
    intro stored
    cases stored with
    | error h => exact h
    | ok h => exact judged h
  · exact emitSame noted _

end
end
end

section
variable {group : Fin n → Bool} {wires : Mask} {s t : State n}

section
variable {cfg cfg' : Config n} (agree : ∀ i, group i = true → cfg i = cfg' i) {i : Fin n} (own : group i = true)
include agree own

theorem setAlike (h : Alike group wires s t) (db door arg1 arg2) :
    Alike group wires (setCommand cfg db i door arg1 arg2 s) (setCommand cfg' db i door arg1 arg2 t) := by
  have stored : ∀ {clear mode} {u v : State n}, Alike group wires u v →
      Alike group wires (signalDoorStatus cfg i (setRow door clear mode arg2 db u).1) (signalDoorStatus cfg' i (setRow door clear mode arg2 db v).1) :=
    fun h => statusAlike agree own ((rowUnseen ..).trans (h.trans (rowUnseen ..).symm))
  have settled : ∀ {u v : State n}, Alike group wires u v → ∀ ok : Prop, [Decidable ok] →
      Alike group wires (if ok then sendto rOk u else sendto rErr u) (if ok then sendto rOk v else sendto rErr v) :=
    fun h ok _ => (settledUnseen ok _).trans (h.trans (settledUnseen ok _).symm)
  have cleared := updateSame h i fun d => {d with admDisableMask := 0, airLockMask := 0}
  unfold setCommand
  dsimp only
  rw [rowReturns,rowReturns,rowReturns,rowReturns]
  split
  · have taken : Alike group wires (setUnlock cfg i arg2 s) (setUnlock cfg' i arg2 t) := by
      unfold setUnlock
      exact updateSame (unlockAlike agree own cleared arg2).1 i _
    exact settled (stored taken) _
  · split
    · have taken : Alike group wires (setLock cfg i arg2 s) (setLock cfg' i arg2 t) := by
        unfold setLock
        exact updateSame (lockAlike agree own cleared arg2).1 i _
      exact settled (stored taken) _
    · exact emitSame h _

theorem unsetAlike (h : Alike group wires s t) (db door arg1 arg2) :
    Alike group wires (unsetCommand cfg db i door arg1 arg2 s) (unsetCommand cfg' db i door arg1 arg2 t) := by
  have gone := (dbUnseen door arg1 arg2 .dbUnset db.first s).trans (h.trans (dbUnseen door arg1 arg2 .dbUnset db.first t).symm)
  unfold unsetCommand
  dsimp only
  rw [dbReturns,dbReturns]
  split
  · refine emitSame ?_ _
    split
    · exact statusAlike agree own (updateSame gone i _)
    · exact gone
  · exact emitSame gone _

theorem doAlike (h : Alike group wires s t) (arg1 arg2) : Alike group wires (doCommand cfg i arg1 arg2 s) (doCommand cfg' i arg1 arg2 t) := by
  obtain ⟨opened,opens⟩ := unlockAlike agree own h arg2
  obtain ⟨locked,locks⟩ := lockAlike agree own h arg2
  unfold doCommand
  dsimp only
  rw [opens,locks]
  split
  · split
    · exact statusAlike agree own (emitSame opened _)
    · exact emitSame opened _
  · split
    · split
      · exact statusAlike agree own (emitSame locked _)
      · exact emitSame locked _
    · split
      · exact emitSame (updateSame h i _) _
      · split
        · exact emitSame (updateSame h i _) _
        · exact emitSame h _

theorem commandAlike (h : Alike group wires s t) (db cmd door arg1 argX) :
    Alike group wires (command cfg db i cmd door arg1 argX s) (command cfg' db i cmd door arg1 argX t) := by
  unfold command
  dsimp only
  split
  · exact (getUnseen db i door arg1 s).trans (h.trans (getUnseen db i door arg1 t).symm)
  · split
    · exact setAlike agree own h db door arg1 _
    · split
      · exact unsetAlike agree own h db door arg1 _
      · split
        · exact doAlike agree own h arg1 _
        · exact emitSame h _

end

theorem rowOf {cfg : Config n} {row : StateRow} {found : Fin n × StateRow} (mine : rowPart cfg group row = some found) :
    getDoorByName cfg row.door = some found.1 ∧ group found.1 = true ∧ row = found.2 := by
  obtain ⟨i,inside,rfl⟩ := Option.map_eq_some_iff.mp mine
  obtain ⟨here,own⟩ := Option.filter_eq_some_iff.mp inside
  exact ⟨here,own,rfl⟩

section
variable {cfg cfg' : Config n} (agree : ∀ i, group i = true → cfg i = cfg' i)
include agree

theorem networkAlike (h : Alike group wires s t) {i : Fin n} {datagram : Bytes} {db : Sqlite}
    (mine : (addressee cfg datagram).filter group = some i) (mine' : (addressee cfg' datagram).filter group = some i) :
    Alike group wires (checkNetwork cfg datagram db s) (checkNetwork cfg' datagram db t) := by
  obtain ⟨found,own⟩ := Option.filter_eq_some_iff.mp mine
  obtain ⟨found',_⟩ := Option.filter_eq_some_iff.mp mine'
  rcases networkCases group wires cfg datagram db with ⟨none',_⟩ | ⟨j,cmd,door,arg1,here,⟨first,second,third⟩,ran⟩
  · rw [none'] at found
    cases found
  rcases networkCases group wires cfg' datagram db with ⟨none',_⟩ | ⟨k,cmd',door',arg1',here',⟨first',second',third'⟩,ran'⟩
  · rw [none'] at found'
    cases found'
  obtain rfl := Option.some.inj (here.symm.trans found)
  obtain rfl := Option.some.inj (here'.symm.trans found')
  obtain rfl := Option.some.inj (first.symm.trans first')
  obtain rfl := Option.some.inj (second.symm.trans second')
  obtain rfl := Option.some.inj (third.symm.trans third')
  obtain ⟨u,before,same⟩ := ran s
  obtain ⟨v,before',same'⟩ := ran' t
  rw [same,same']
  exact commandAlike agree own (before.trans (h.trans before'.symm)) db cmd door arg1 _

theorem rowAlike (h : Alike group wires s t) {row row' : StateRow} {found : Fin n × StateRow} (mine : rowPart cfg group row = some found)
    (mine' : rowPart cfg' group row' = some found) : Alike group wires (restoreRow cfg s row) (restoreRow cfg' t row') := by
  obtain ⟨here,own,rfl⟩ := rowOf mine
  obtain ⟨here',_,rfl⟩ := rowOf mine'
  unfold restoreRow
  rw [here,here']
  refine statusAlike agree own ?_
  split
  · exact updateSame (unlockAlike agree own h _).1 _ _
  · split
    · exact updateSame (lockAlike agree own h _).1 _ _
    · exact h

omit agree in
/- The doors of the group take their turns in the same order, whatever comes between them. -/
theorem loopAlike {f g : State n → Fin n → State n} (outside : ∀ s i, group i = false → Alike group wires (f s i) s)
    (outside' : ∀ s i, group i = false → Alike group wires (g s i) s)
    (body : ∀ i, group i = true → ∀ {s t : State n}, Alike group wires s t → Alike group wires (f s i) (g t i)) (h : Alike group wires s t) :
    Alike group wires ((List.finRange n).foldl f s) ((List.finRange n).foldl g t) := by
  have out : ∀ i, (if group i then some i else none) = none → group i = false := by
    intro i other
    cases own : group i with
    | false => rfl
    | true => simp [own] at other
  have own : ∀ i j, (if group i then some i else none) = some j → group j = true ∧ i = j := by
    intro i j mine
    obtain ⟨inside,same⟩ := Option.ite_none_right_eq_some.mp mine
    cases same
    exact ⟨inside,rfl⟩
  refine foldlAlike (p := fun i => if group i then some i else none) (q := fun i => if group i then some i else none) ?_ ?_ ?_ rfl h
  · intro s t i other related
    exact (outside s i (out i other)).trans related
  · intro s t i other related
    exact related.trans (outside' t i (out i other)).symm
  · intro s t i j k mine mine' related
    obtain ⟨inside,rfl⟩ := own i k mine
    obtain ⟨_,rfl⟩ := own j _ mine'
    exact body _ inside related

theorem turnAlike {pass pass' : Pass n} {i : Fin n} (own : group i = true) (data : ∀ side, pass.readerData ⟨i,side⟩ = pass'.readerData ⟨i,side⟩)
    (h : Alike group wires s t) : Alike group wires (doorTurn cfg pass s i) (doorTurn cfg' pass' t i) := by
  have deliver : ∀ side {s t : State n}, Alike group wires s t →
      Alike group wires (getReaderData cfg pass ⟨i,side⟩ s) (getReaderData cfg' pass' ⟨i,side⟩ t) := by
    intro side s t h
    unfold getReaderData
    rw [agree i own,data side]
    split
    · refine foldlAlike (p := some) (q := some) (fun _ _ cb none' => absurd none' (Option.some_ne_none cb))
        (fun _ _ cb none' => absurd none' (Option.some_ne_none cb)) ?_ rfl h
      intro s t x y cb mine mine' related
      obtain rfl := Option.some.inj mine
      obtain rfl := Option.some.inj mine'
      exact processAlike (r := ⟨i,side⟩) agree own related _
    · exact h
  have counts : ∀ side {s t : State n}, Alike group wires s t → Alike group wires (twoFactorTimer ⟨i,side⟩ s) (twoFactorTimer ⟨i,side⟩ t) :=
    fun side s t h => timerAlike own h
  exact deliver .B (deliver .A (counts .B (counts .A (tickAlike agree own h))))

section
variable (enclosed : Enclosed group wires cfg) (enclosed' : Enclosed group wires cfg')
include enclosed enclosed'

theorem inputsAlike (h : Alike group wires s t) {reading reading' : Reading} {inputVal inputVal' : Fin n → Byte}
    (lines : inputs group reading inputVal = inputs group reading' inputVal') :
    Alike group wires (checkInputs cfg reading inputVal s) (checkInputs cfg' reading' inputVal' t) := by
  refine loopAlike (fun s i out => checkDoorOutside enclosed out _ s) (fun s i out => checkDoorOutside enclosed' out _ s) ?_ h
  intro i own s t h
  have line := congrFun lines i
  simp only [inputs,own,if_true] at line
  rw [line]
  exact checkDoorAlike agree own h _

theorem stepAlike (h : Alike group wires s t) {a b : Step n} {brought : Part n} (mine : part cfg group a = some brought)
    (mine' : part cfg' group b = some brought) : Alike group wires (step cfg s a) (step cfg' t b) := by
  have first := brings mine
  have second := brings mine'
  cases first with
  | mainLoop given lines =>
    cases second with
    | mainLoop given' lines' =>
      refine inputsAlike agree enclosed enclosed' ?_ (lines.trans lines'.symm)
      refine loopAlike (fun s i out => turnOutside enclosed out _ s) (fun s i out => turnOutside enclosed' out _ s) ?_ h
      intro i own s t h
      refine turnAlike agree own (fun side => ?_) h
      have same := congrFun (given.trans given'.symm) ⟨i,side⟩
      simp only [own,if_true] at same
      exact same
  | checkNetwork asked =>
    cases second with
    | checkNetwork asked' => exact networkAlike agree h asked asked'
  | processUserInfo own =>
    cases second with
    | processUserInfo _ => exact processAlike agree own h _
  | checkInputs lines =>
    cases second with
    | checkInputs lines' => exact inputsAlike agree enclosed enclosed' h (lines.trans lines'.symm)

end

end

/- What a group shows, from the start of the program and over any run, is made by the rows of the
table, the cards, the keys, the lines and the commands that are its own: two sites that agree
about the doors of the group, and bring the same to them in the same order, cannot be told apart there. -/
theorem groupAlone {cfg cfg' : Config n} (agree : ∀ i, group i = true → cfg i = cfg' i) (enclosed : Enclosed group wires cfg)
    (enclosed' : Enclosed group wires cfg') {rows rows' : List StateRow} {steps steps' : List (Step n)}
    (restored : rows.filterMap (rowPart cfg group) = rows'.filterMap (rowPart cfg' group))
    (brought : steps.filterMap (part cfg group) = steps'.filterMap (part cfg' group)) :
    Alike group wires (steps.foldl (step cfg) (start cfg rows)) (steps'.foldl (step cfg') (start cfg' rows')) := by
  have begin' : Alike group wires (initial rows) (initial rows') := ⟨fun _ _ => rfl,rfl⟩
  have started : Alike group wires (start cfg rows) (start cfg' rows') := by
    refine foldlAlike ?_ ?_ ?_ restored begin'
    · exact fun s t row other related => (rowOutside enclosed other s).trans related
    · exact fun s t row other related => related.trans (rowOutside enclosed' other t).symm
    · exact fun s t row row' found mine mine' related => rowAlike agree related mine mine'
  refine foldlAlike ?_ ?_ ?_ brought started
  · exact fun s t a other related => (stepOutside enclosed other s).trans related
  · exact fun s t a other related => related.trans (stepOutside enclosed' other t).symm
  · exact fun s t a b found mine mine' related => stepAlike agree enclosed enclosed' related mine mine'

end

/- A card at B, a command for B and a row of B are nothing to A, though B is its partner; nor is B. -/
def onlyA : Fin 2 → Bool := fun i => i == doorA
def bareB : Config 2 := fun i => if i = doorA then airlock i else ⟨ascii ['C'],fun _ => ⟨false,0⟩,0,0,none⟩
def cardB : Step 2 := .processUserInfo ⟨Fin.last 1,.A⟩ ⟨[0x07],.dataIsCard,.dataOk,fun _ => ⟨1,[]⟩⟩
def quiet : Step 2 := .mainLoop (quietPass 0x0c)
def heldA : StateRow := ⟨ascii ['A'],wUnlock,1⟩
def heldB : StateRow := ⟨ascii ['B'],wLock,1⟩
def busy : List (Step 2) := [quiet,.checkNetwork doUnlockB ⟨true,true⟩,cardB,.checkNetwork unsetUnlockA ⟨true,true⟩,quiet]
def calm : List (Step 2) := [quiet,.checkNetwork unsetUnlockA ⟨true,true⟩,quiet]

theorem busyCalm : Alike onlyA 1 (busy.foldl (step airlock) (start airlock [heldB,heldA])) (calm.foldl (step bareB) (start bareB [heldA])) := by
  have agree : ∀ i, onlyA i = true → airlock i = bareB i := by
    intro i own
    have here : i = doorA := by simpa [onlyA] using own
    rw [bareB,if_pos here]
  refine groupAlone agree ⟨by decide,by decide⟩ ⟨by decide,by decide⟩ (by decide) ?_
  have first : addressee airlock doUnlockB = some 1 := by decide
  have second : addressee airlock unsetUnlockA = some doorA := by decide
  have third : addressee bareB unsetUnlockA = some doorA := by decide
  simp only [busy,calm,quiet,cardB,List.filterMap_cons,List.filterMap_nil,part,first,second,third]
  rfl

end AccessControl.Independence
