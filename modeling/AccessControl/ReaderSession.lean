import AccessControl.LockActs

/-! What a reader was given since its last reset, read off the log: each delivery with
its age in passes. Everything outside the reader's own calls leaves it alone. -/
namespace AccessControl.ReaderSession
open BitMask DoorTable Gpio DoorController RemoteControl Run LockSteps LockActs

variable {n : Nat} (cfg : Config n) {s t u : State n} {r : ReaderId n}

structure Delivery where
  age : Nat
  callback : Callback

/- Newest first; each call of `two_factor_timer` on the reader is one pass. -/
def session (r : ReaderId n) : List (Effect n) → List Delivery
  | [] => []
  | .resetDoorAuth q :: older => if q = r then [] else session r older
  | .processUserInfo q cb :: older =>
    if q = r ∧ cb.dataMode = .dataOk then ⟨0,cb⟩ :: session r older else session r older
  | .twoFactorTimer q :: older =>
    if q = r then (session r older).map (fun d => {d with age := d.age + 1}) else session r older
  | _ :: older => session r older

/- The credentials of a session in the order they came; an empty one is none. -/
def given (data : List Bytes) : List Bytes := data.filter (· ≠ [])
def credentials (type : DataType) (session : List Delivery) : List Bytes :=
  given ((session.reverse.filter (fun d => d.callback.dataType == type)).map (fun d => d.callback.data))
def cards := credentials .dataIsCard
def pins := credentials .dataIsPin

@[simp] theorem givenEmpty : given [[]] = [] := rfl

theorem givenBefore (data : Bytes) : given [data,[]] = given [data] := by
  have append : given ([data] ++ [[]]) = given [data] ++ given [[]] := List.filter_append ..
  rw [givenEmpty,List.append_nil] at append
  exact append

theorem givenSelf {data : List Bytes} (all : ∀ x ∈ data, x ≠ []) : given data = data :=
  List.filter_eq_self.mpr (fun x inside => by simpa using all x inside)

theorem credentialsCons (type) (d : Delivery) (older) : credentials type (d :: older) =
    credentials type older ++ if d.callback.dataType = type then given [d.callback.data] else [] := by
  unfold credentials given
  rw [List.reverse_cons,List.filter_append,List.map_append,List.filter_append]
  by_cases same : d.callback.dataType = type <;> simp [same]

theorem credentialsAged (type) (ds : List Delivery) :
    credentials type (ds.map (fun d => {d with age := d.age + 1})) = credentials type ds := by
  unfold credentials given
  rw [← List.map_reverse,List.filter_map (p := fun d : Delivery => d.callback.dataType == type),List.map_map]
  rfl

/- Effects that no session sees. -/
def Inert : Effect n → Prop
  | .resetDoorAuth .. => False
  | .processUserInfo .. => False
  | .twoFactorTimer .. => False
  | _ => True

theorem sessionInert {a b : List (Effect n)} (h : Grows Inert a b) (r : ReaderId n) : session r b = session r a := by
  refine growsKeeps (fun e log inert => ?_) h
  cases e <;> first | exact inert.elim | rfl

/- Steps that touch no reader and no session. -/
structure Aside (s t : State n) : Prop where
  reader : ∀ r, t.doorReader r = s.doorReader r
  log : Grows Inert s.log t.log

theorem Aside.refl (s : State n) : Aside s s := ⟨fun _ => rfl,growsRefl _⟩
theorem Aside.trans (first : Aside s t) (second : Aside t u) : Aside s u :=
  ⟨fun r => (second.reader r).trans (first.reader r),growsTrans first.log second.log⟩

theorem asideEmit {e : Effect n} (s : State n) (inert : Inert e) : Aside s (s.emit e) :=
  ⟨fun _ => rfl,growsCons inert _⟩

theorem asideUpdate {i : Fin n} {f : Door → Door} (same : ∀ d, (f d).reader = d.reader) : Aside s (s.update i f) := by
  refine ⟨fun r => ?_,by simp⟩
  rw [State.doorReader,updateDoor]
  split
  · rw [same]
    rfl
  · rfl

theorem asideSignal (i signal) (s : State n) : Aside s (doorSignal cfg i signal s) := by
  have emit : ∀ (q : ReaderId n) (s : State n), Aside s (s.emit (.readerSignal signal q)) := by
    intro q s
    exact asideEmit s trivial
  unfold doorSignal
  split <;> split
  · exact (emit _ s).trans (emit _ _)
  · exact emit _ s
  · exact emit _ s
  · exact .refl s

theorem asideStatus (i) (s : State n) : Aside s (signalDoorStatus cfg i s) := by
  unfold signalDoorStatus
  split <;> exact asideSignal cfg i _ s

theorem asideEvent (i event) (s : State n) : Aside s (sendEvent cfg i event s) := asideEmit s trivial

theorem asideAirLock (i mask) (s : State n) : Aside s (airLockOnPartner cfg i mask s) := by
  unfold airLockOnPartner
  cases (cfg i).airLockPartnerLocal with
  | none => exact .refl s
  | some partner =>
    refine Aside.trans ?_ (asideStatus cfg i _)
    split
    · split
      · exact asideUpdate (fun _ => rfl)
      · exact .refl s
    · exact asideUpdate (fun _ => rfl)

theorem asideUnlock (i mask) (s : State n) : Aside s (unlockDoor cfg i mask s).1 := by
  have called : Aside s (s.emit (.unlockDoor i mask (unlockMask cfg i mask (s.doors i)) s.doors)) := asideEmit s trivial
  have drives : ∀ (result : Mask) (s : State n), Aside s (s.emit (.setDoorState .doUnlock result)) :=
    fun _ s => asideEmit s trivial
  have timed : ∀ s : State n, Aside s (s.update i (fun d => {d with doorLockTimer := doorOpenTime})) :=
    fun _ => asideUpdate (fun _ => rfl)
  unfold unlockDoor
  dsimp only
  split
  · have blocked := called.trans (asideAirLock cfg i (-1) _)
    have sent := (blocked.trans (drives (unlockMask cfg i mask (s.doors i)) _)).trans
      (asideEvent cfg i (.doorUnlock (unlockMask cfg i mask (s.doors i))) _)
    exact (sent.trans (timed _)).trans (asideSignal cfg i .doorOpen _)
  · exact called

theorem asideLock (i mask) (s : State n) : Aside s (lockDoor cfg i mask s).1 := by
  have drives : Aside s (s.emit (.setDoorState .doLock (lockMask cfg i mask (s.doors i)))) := asideEmit s trivial
  unfold lockDoor
  dsimp only
  split
  · have blocked := drives.trans (asideAirLock cfg i 0 _)
    exact (blocked.trans (asideEvent cfg i (.doorLock _) _)).trans (asideSignal cfg i .doorLock _)
  · exact .refl s

theorem asideTick (i : Fin n) (s : State n) : Aside s (lockTimer cfg i s) := by
  have counted : Aside s (ticked i s) := by
    unfold ticked
    exact asideUpdate (fun _ => rfl)
  rcases lockTimerCases cfg i s with ⟨_,same⟩ | ⟨_,_,same⟩ | ⟨_,_,same⟩ <;> rw [same]
  · exact .refl s
  · exact counted
  · exact counted.trans (asideLock cfg i _ _)

theorem asideSense (i diff input) (s : State n) : Aside s (inputSense cfg i diff input s) := by
  have emergency : Aside s (inputEmergency cfg i diff input s) := by
    unfold inputEmergency
    split
    · split
      · exact (asideEvent cfg i .doorEmergencyActive s).trans (asideAirLock cfg i (-1) _)
      · exact asideEvent cfg i .doorEmergencyInactive s
    · exact .refl s
  have close : ∀ s : State n, Aside s (inputDoorClose cfg i diff input s) := by
    intro s
    unfold inputDoorClose
    split
    · split
      · exact (asideEvent cfg i .doorIsClose s).trans (asideAirLock cfg i 0 _)
      · exact (asideEvent cfg i .doorIsOpen s).trans (asideAirLock cfg i (-1) _)
    · exact .refl s
  have lock : ∀ s : State n, Aside s (inputDoorLock cfg i diff input s) := by
    intro s
    unfold inputDoorLock
    split
    · split
      · exact asideEvent cfg i .doorIsLock s
      · exact asideEvent cfg i .doorIsUnlock s
    · exact .refl s
  have stored : ∀ s : State n, Aside s (s.update i (fun d => {d with lastInput := input})) :=
    fun _ => asideUpdate (fun _ => rfl)
  exact ((emergency.trans (close _)).trans (lock _)).trans (stored _)

theorem asideAlarm (i input) (s : State n) : Aside s (inputAlarm cfg i input s) := by
  have timers : ∀ (f : Door → Int) (s : State n), Aside s (s.update i (fun d => {d with alarmTimers := f d})) :=
    fun _ _ => asideUpdate (fun _ => rfl)
  unfold inputAlarm
  dsimp only
  split
  · split
    · exact timers (fun _ => alarmResendTimer) s
    · split
      · exact (timers (fun d => d.alarmTimers - 1) s).trans
          ((asideEvent cfg i _ _).trans (timers (fun _ => alarmResendTimer) _))
      · exact timers (fun d => d.alarmTimers - 1) s
  · exact timers (fun _ => 0) s

theorem asideInputs (reading inputVal) (s : State n) : Aside s (checkInputs cfg reading inputVal s) := by
  refine foldlInvariant (Aside s) ?_ (.refl s)
  intro t i _ before
  refine before.trans ?_
  unfold checkDoorInputs
  dsimp only
  refine Aside.trans ?_ (asideAlarm cfg i _ _)
  split
  · refine Aside.trans ?_ (asideSense cfg i _ _ _)
    unfold inputManualOpen
    split
    · exact (asideEvent cfg i .manualOpen t).trans (asideUnlock cfg i 1 _)
    · exact .refl t
  · exact .refl t

theorem asideRestore (row) (s : State n) : Aside s (restoreRow cfg s row) := by
  have written : ∀ (i : Fin n) (s : State n), Aside s (s.update i (fun d => {d with admDisableMask := row.arg})) :=
    fun _ _ => asideUpdate (fun _ => rfl)
  unfold restoreRow
  cases getDoorByName cfg row.door with
  | none => exact .refl s
  | some i =>
    refine Aside.trans ?_ (asideStatus cfg i _)
    split
    · exact (asideUnlock cfg i row.arg s).trans (written _ _)
    · split
      · exact (asideLock cfg i row.arg s).trans (written _ _)
      · exact .refl s

/- Remote control: no command is a credential. -/
theorem asideDb (door state arg action done) (s : State n) : Aside s (dbSetUnset door state arg action done s).1 := by
  unfold dbSetUnset
  dsimp only
  split
  · cases action <;> exact ⟨fun _ => rfl,growsRefl _⟩
  · exact .refl s

theorem asideRow (door clear mode arg2 db) (s : State n) : Aside s (setRow door clear mode arg2 db s).1 :=
  (asideDb door clear arg2 .dbUnset db.first s).trans (asideDb door mode arg2 .dbSet db.second _)

theorem asideSend (reply) (s : State n) : Aside s (sendto reply s) := asideEmit s trivial

theorem asideReply (ok : Prop) [Decidable ok] (s : State n) : Aside s (if ok then sendto rOk s else sendto rErr s) := by
  split <;> exact asideSend _ s

theorem asideGet (db i door arg1) (s : State n) : Aside s (getCommand db i door arg1 s) := by
  have replies : ∀ text, Aside s (replyText text s) := by
    intro text
    unfold replyText
    split <;> exact asideSend _ s
  unfold getCommand
  dsimp only
  split
  · exact replies _
  · split
    · exact replies _
    · exact asideSend rErr s

theorem asideSet (db i door arg1 arg2) (s : State n) : Aside s (setCommand cfg db i door arg1 arg2 s) := by
  have cleared : Aside s (s.update i (fun d => {d with admDisableMask := 0, airLockMask := 0})) := asideUpdate (fun _ => rfl)
  have written : ∀ s : State n, Aside s (s.update i (fun d => {d with admDisableMask := arg2})) := fun _ => asideUpdate (fun _ => rfl)
  have unlocked : Aside s (setUnlock cfg i arg2 s) := (cleared.trans (asideUnlock cfg i arg2 _)).trans (written _)
  have locked : Aside s (setLock cfg i arg2 s) := (cleared.trans (asideLock cfg i arg2 _)).trans (written _)
  unfold setCommand
  split
  · exact ((unlocked.trans (asideRow door wLock wUnlock arg2 db _)).trans (asideStatus cfg i _)).trans (asideReply _ _)
  · split
    · exact ((locked.trans (asideRow door wUnlock wLock arg2 db _)).trans (asideStatus cfg i _)).trans (asideReply _ _)
    · exact asideSend rErr s

theorem asideUnset (db i door arg1 arg2) (s : State n) : Aside s (unsetCommand cfg db i door arg1 arg2 s) := by
  have written := asideDb door arg1 arg2 .dbUnset db.first s
  have cleared : ∀ s : State n, Aside s (unset i s) := fun _ => asideUpdate (fun _ => rfl)
  unfold unsetCommand
  dsimp only
  split
  · refine written.trans (Aside.trans ?_ (asideSend rOk _))
    split
    · exact (cleared _).trans (asideStatus cfg i _)
    · exact .refl _
  · exact written.trans (asideSend rErr _)

theorem asideDo (i arg1 arg2) (s : State n) : Aside s (doCommand cfg i arg1 arg2 s) := by
  have answered : ∀ (u : State n) (ret : Mask), Aside s u →
      Aside s (if ret ≠ 0 then signalDoorStatus cfg i (sendto rOk u) else sendto rErr u) := by
    intro u ret h
    split
    · exact (h.trans (asideSend rOk u)).trans (asideStatus cfg i _)
    · exact h.trans (asideSend rErr u)
  have blocked : Aside s (block i arg2 s) := asideUpdate (fun _ => rfl)
  have unblocked : Aside s (unblock i arg2 s) := asideUpdate (fun _ => rfl)
  unfold doCommand
  split
  · exact answered _ _ (asideUnlock cfg i arg2 s)
  · split
    · exact answered _ _ (asideLock cfg i arg2 s)
    · split
      · exact blocked.trans (asideSend rOk _)
      · split
        · exact unblocked.trans (asideSend rOk _)
        · exact asideSend rErr s

theorem asideNetwork (datagram db) (s : State n) : Aside s (checkNetwork cfg datagram db s) := by
  unfold checkNetwork
  split
  · exact .refl s
  · have heard : Aside s (s.emit (.sendEvent (.remoteCtrl (words datagram).cmd (words datagram).arg1 (words datagram).argX)
        (words datagram).door)) := asideEmit s trivial
    refine heard.trans ?_
    dsimp only
    split
    · split
      · unfold command
        dsimp only
        split
        · exact asideGet db _ _ _ _
        · split
          · exact asideSet cfg db _ _ _ _ _
          · split
            · exact asideUnset cfg db _ _ _ _ _
            · split
              · exact asideDo cfg _ _ _ _
              · exact asideSend rErr _
      · exact asideSend rErr _
    · exact asideSend rErr _

end AccessControl.ReaderSession
