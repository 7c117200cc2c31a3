import AccessControl.LockSteps

/-! Every step of the controller as a run of acts on locks. A property of all
runs is proved act by act and lifted with the invariant rule of `Run`. -/
namespace AccessControl.LockActs
open BitMask DoorTable Gpio DoorController RemoteControl Run LockSteps

variable {n : Nat} (cfg : Config n) {s t u : State n}

inductive Act (n : Nat) where
  | still
  | tick (i : Fin n)
  | unlock (i : Fin n) (mask : Mask)
  | lock (i : Fin n) (mask : Mask)
  | sense (i : Fin n) (input : Byte)
  | setUnlock (i : Fin n) (arg2 : Mask)
  | setLock (i : Fin n) (arg2 : Mask)
  | unset (i : Fin n)
  | block (i : Fin n) (arg2 : Mask)
  | unblock (i : Fin n) (arg2 : Mask)
  deriving DecidableEq, Repr

def Takes : Act n → State n → State n → Prop
  | .still, s, t => Still s t
  | .tick i, s, t => t = lockTimer cfg i s
  | .unlock i mask, s, t => t = (unlockDoor cfg i mask s).1
  | .lock i mask, s, t => t = (lockDoor cfg i mask s).1
  | .sense i input, s, t => t = inputSense cfg i (inputDiff (s.doors i) input) input s
  | .setUnlock i arg2, s, t => t = setUnlock cfg i arg2 s
  | .setLock i arg2, s, t => t = setLock cfg i arg2 s
  | .unset i, s, t => t = unset i s
  | .block i arg2, s, t => t = block i arg2 s
  | .unblock i arg2, s, t => t = unblock i arg2 s

abbrev Path (guard : State n → Act n → Prop) : State n → State n → Prop := Runs (Takes cfg) guard

/- The acts a pass, a credential or a reading can take; commands can take any. -/
def OfPass : Act n → Prop
  | .still | .tick _ | .unlock .. | .sense .. => True
  | _ => False

def OfReader (i : Fin n) (a : Act n) : Prop := a = .still ∨ ∃ mask, a = .unlock i mask
def OfInputs (i : Fin n) (input : Byte) (a : Act n) : Prop :=
  a = .still ∨ a = .unlock i 1 ∨ a = .sense i input

theorem readerOfPass {i : Fin n} {a : Act n} (of : OfReader i a) : OfPass a := by
  obtain rfl | ⟨mask,rfl⟩ := of <;> trivial

section
variable {cfg} {guard : State n → Act n → Prop}

theorem pathStill (h : Still s t) (allowed : guard s .still) : Path cfg guard s t := runOne allowed h
theorem pathUnlock {i mask} (allowed : guard s (.unlock i mask)) : Path cfg guard s (unlockDoor cfg i mask s).1 :=
  runOne allowed rfl
theorem pathTick {i} (allowed : guard s (.tick i)) : Path cfg guard s (lockTimer cfg i s) := runOne allowed rfl
theorem pathSense {i input} (allowed : guard s (.sense i input)) :
    Path cfg guard s (inputSense cfg i (inputDiff (s.doors i) input) input s) := runOne allowed rfl

end

/- What every pass is made of, for any relation between states that takes in whatever neither
drives an output nor shows a door's state: then only the calls below are left to look at. -/
structure Closes (R : State n → State n → Prop) : Prop where
  refl : ∀ s, R s s
  trans : ∀ {s t u}, R s t → R t u → R s u
  rested : ∀ {s t}, Rested s t → R s t

section
variable {R : State n → State n → Prop}

theorem authoriseWithin (closes : Closes R) {r : ReaderId n} (unlock : ∀ mask s, R s (unlockDoor cfg r.door mask s).1)
    (database) (s : State n) : R s (authorise cfg database r s) := by
  have mask := restedAuthMask cfg database r s
  unfold authorise
  dsimp only
  split
  · exact closes.trans (closes.rested mask) (closes.trans (unlock _ _) (closes.rested (restedReset r _)))
  · split
    · exact closes.rested (mask.trans ((restedAuthError r _).trans (restedReset r _)))
    · exact closes.rested mask

theorem processUserInfoWithin (closes : Closes R) {r : ReaderId n} (unlock : ∀ mask s, R s (unlockDoor cfg r.door mask s).1)
    (cb) (s : State n) : R s (processUserInfo cfg r cb s) := by
  have entered : Rested s (s.emit (.processUserInfo r cb)) := restedEmit (e := .processUserInfo r cb) trivial s
  unfold processUserInfo
  dsimp only
  split
  · split
    · rename_i t stored
      exact closes.rested (entered.trans (restedStore cfg (.inl stored)))
    · rename_i t stored
      exact closes.trans (closes.rested (entered.trans (restedStore cfg (.inr stored)))) (authoriseWithin cfg closes unlock _ t)
  · exact closes.rested (entered.trans (restedData r _))

/- Readers and timers of door `i` after its countdown: only unlocks of `i`. -/
theorem doorTurnWithin (closes : Closes R) {i : Fin n} (unlock : ∀ mask s, R s (unlockDoor cfg i mask s).1) (pass : Pass n)
    (s : State n) : R (lockTimer cfg i s) (doorTurn cfg pass s i) := by
  have data : ∀ (side : Side) (s : State n), R s (getReaderData cfg pass ⟨i,side⟩ s) := by
    intro side s
    unfold getReaderData
    split
    · refine foldlInvariant (R s) (fun t cb _ reached => ?_) (closes.refl s)
      exact closes.trans reached (processUserInfoWithin cfg closes (r := ⟨i,side⟩) unlock cb t)
    · exact closes.refl s
  have timers := (restedTwoFactor ⟨i,.A⟩ (lockTimer cfg i s)).trans (restedTwoFactor ⟨i,.B⟩ _)
  exact closes.trans (closes.rested timers) (closes.trans (data .A _) (data .B _))

theorem inputDiffUnlock (i j : Fin n) (mask) (s : State n) (input) :
    inputDiff ((unlockDoor cfg j mask s).1.doors i) input = inputDiff (s.doors i) input := by
  rw [unlockDoors]
  split <;> rfl

theorem checkDoorInputsWithin (closes : Closes R) {i : Fin n} {input} (unlock : ∀ s, R s (unlockDoor cfg i 1 s).1)
    (sense : ∀ s, R s (inputSense cfg i (inputDiff (s.doors i) input) input s)) (alarm : ∀ s, R s (inputAlarm cfg i input s)) (s : State n) :
    R s (checkDoorInputs cfg i input s) := by
  unfold checkDoorInputs
  refine closes.trans ?_ (alarm _)
  split
  · unfold inputManualOpen
    split
    · have pressed := closes.rested (restedEvent cfg i .manualOpen s)
      have diff := inputDiffUnlock cfg i i 1 (sendEvent cfg i .manualOpen s) input
      have last := sense (unlockDoor cfg i 1 (sendEvent cfg i .manualOpen s)).1
      rw [diff] at last
      exact closes.trans pressed (closes.trans (unlock _) last)
    · exact sense s
  · exact closes.refl s

theorem foldlWithin {β : Type} (closes : Closes R) {f : State n → β → State n} (body : ∀ s x, R s (f s x)) (xs : List β) (s : State n) :
    R s (xs.foldl f s) :=
  foldlInvariant (R s) (fun t x _ reached => closes.trans reached (body t x)) (closes.refl s)

theorem checkInputsWithin (closes : Closes R) (unlock : ∀ i s, R s (unlockDoor cfg i 1 s).1)
    (sense : ∀ i input s, R s (inputSense cfg i (inputDiff (s.doors i) input) input s))
    (alarm : ∀ i input s, R s (inputAlarm cfg i input s)) (reading inputVal) (s : State n) :
    R s (checkInputs cfg reading inputVal s) :=
  foldlWithin closes (fun s i => checkDoorInputsWithin cfg closes (unlock i) (sense i _) (alarm i _) s) _ s

theorem doorTurnsWithin (closes : Closes R) (tick : ∀ i s, R s (lockTimer cfg i s)) (unlock : ∀ i mask s, R s (unlockDoor cfg i mask s).1)
    (pass : Pass n) (s : State n) : R s (doorTurns cfg pass s) :=
  foldlWithin closes (fun s i => closes.trans (tick i s) (doorTurnWithin cfg closes (unlock i) pass s)) _ s

end

theorem pathCloses {guard : State n → Act n → Prop} (still : ∀ s, guard s .still) : Closes (Path cfg guard) where
  refl := runRefl
  trans := runTrans
  rested h := pathStill h.still (still _)

theorem processUserInfoPath (r : ReaderId n) (cb) (s : State n) :
    Path cfg (fun _ => OfReader r.door) s (processUserInfo cfg r cb s) :=
  processUserInfoWithin cfg (pathCloses cfg fun _ => .inl rfl) (fun _ _ => pathUnlock (.inr ⟨_,rfl⟩)) cb s

theorem doorTurnPath (pass : Pass n) (i : Fin n) (s : State n) :
    Path cfg (fun _ => OfReader i) (lockTimer cfg i s) (doorTurn cfg pass s i) :=
  doorTurnWithin cfg (pathCloses cfg fun _ => .inl rfl) (fun _ _ => pathUnlock (.inr ⟨_,rfl⟩)) pass s

theorem checkDoorInputsPath (i : Fin n) (input) (s : State n) :
    Path cfg (fun _ => OfInputs i input) s (checkDoorInputs cfg i input s) :=
  checkDoorInputsWithin cfg (pathCloses cfg fun _ => .inl rfl) (fun _ => pathUnlock (.inr (.inl rfl))) (fun _ => pathSense (.inr (.inr rfl)))
    (fun s => pathStill (hushedAlarm cfg i input s).still (.inl rfl)) s

theorem checkInputsPath (reading inputVal) (s : State n) :
    Path cfg (fun _ => OfPass) s (checkInputs cfg reading inputVal s) :=
  checkInputsWithin cfg (pathCloses cfg fun _ => trivial) (fun _ _ => pathUnlock trivial) (fun _ _ _ => pathSense trivial)
    (fun i input s => pathStill (hushedAlarm cfg i input s).still trivial) reading inputVal s

theorem doorTurnsPath (pass : Pass n) (s : State n) : Path cfg (fun _ => OfPass) s (doorTurns cfg pass s) :=
  doorTurnsWithin cfg (pathCloses cfg fun _ => trivial) (fun _ _ => pathTick trivial) (fun _ _ _ => pathUnlock trivial) pass s

theorem mainLoopPath (pass : Pass n) (s : State n) : Path cfg (fun _ => OfPass) s (mainLoop cfg pass s) :=
  runTrans (doorTurnsPath cfg pass s) (checkInputsPath cfg _ _ _)

/- Each door counts down once in a pass: what its countdown establishes, and no other
act before the inputs breaks, holds when the inputs are read. -/
def OfTurns (d : Fin n) (a : Act n) : Prop :=
  a = .still ∨ (∃ i, i ≠ d ∧ a = .tick i) ∨ ∃ i mask, a = .unlock i mask

theorem doorTurnsOnce (d : Fin n) (before after : State n → Prop)
    (tick : ∀ s, before s → after (lockTimer cfg d s))
    (others : ∀ a s t, OfTurns d a → Takes cfg a s t → (before s → before t) ∧ (after s → after t))
    (pass : Pass n) {s : State n} (start : before s) : after (doorTurns cfg pass s) := by
  have turn : ∀ i {u v}, Path cfg (fun _ => OfReader i) u v → (before u → before v) ∧ (after u → after v) := by
    intro i u v path
    have each : ∀ a u v, OfReader i a → Takes cfg a u v → (before u → before v) ∧ (after u → after v) := by
      rintro a u v (rfl | ⟨mask,rfl⟩) taken
      · exact others _ u v (.inl rfl) taken
      · exact others _ u v (.inr (.inr ⟨i,mask,rfl⟩)) taken
    exact ⟨runInvariant before (fun u a v of h taken => (each a u v of taken).1 h) path,
      runInvariant after (fun u a v of h taken => (each a u v of taken).2 h) path⟩
  have all := foldlEach (fun i s => i = d → before s) (fun i s => i = d → after s)
    (f := doorTurn cfg pass) (List.nodup_finRange n) ?_ ?_ (s := s) (fun _ _ _ => start)
  · exact all d (List.mem_finRange d) rfl
  · rintro s i h rfl
    exact (turn i (doorTurnPath cfg pass i s)).2 (tick s (h rfl))
  · intro s i j ne
    have path := turn i (doorTurnPath cfg pass i s)
    have count : ∀ own : j = d, (before s → before (lockTimer cfg i s)) ∧ (after s → after (lockTimer cfg i s)) :=
      fun own => others _ s _ (.inr (.inl ⟨i,fun e => ne (e.trans own.symm),rfl⟩)) rfl
    exact ⟨fun h own => path.1 ((count own).1 (h own)),fun h own => path.2 ((count own).2 (h own))⟩

/- The one act of a datagram, read off its words. -/
def commandAct (db : Sqlite) (i : Fin n) (cmd arg1 : Bytes) (argX : Option Mask) : Act n :=
  let arg2 := argX.getD 0
  if cmd = wGet then .still
  else if cmd = wSet ∧ argX.isSome then
    if arg1 = wUnlock then .setUnlock i arg2 else if arg1 = wLock then .setLock i arg2 else .still
  else if cmd = wUnset then
    if db.first ∧ (arg1 = wUnlock ∨ arg1 = wLock) then .unset i else .still
  else if cmd = wDo ∧ argX.isSome then
    if arg1 = wUnlock then .unlock i arg2
    else if arg1 = wLock then .lock i arg2
    else if arg1 = wBlock then .block i arg2
    else if arg1 = wUnblock then .unblock i arg2
    else .still
  else .still

def datagramAct (datagram : Bytes) (db : Sqlite) : Act n :=
  let w := words datagram
  match w.cmd, w.door, w.arg1 with
  | some cmd, some door, some arg1 =>
    match getDoorByName cfg door with
    | some i => commandAct db i cmd arg1 (w.argX.map toInt)
    | none => .still
  | _, _, _ => .still

theorem restedSendto (reply) (s : State n) : Rested s (sendto reply s) := restedEmit (e := .sendto reply) trivial s

theorem restedDb (door state arg action done) (s : State n) : Rested s (dbSetUnset door state arg action done s).1 := by
  unfold dbSetUnset
  dsimp only
  split
  · split <;> exact ⟨⟨fun _ => rfl,growsRefl _⟩,fun _ => rfl⟩
  · exact .refl s

theorem restedRow (door clear mode arg2 db) (s : State n) : Rested s (setRow door clear mode arg2 db s).1 :=
  (restedDb door clear arg2 .dbUnset db.first s).trans (restedDb door mode arg2 .dbSet db.second _)

theorem restedReply (text) (s : State n) : Rested s (replyText text s) := by
  unfold replyText
  split <;> exact restedSendto _ s

theorem restedGet (db i door arg1) (s : State n) : Rested s (getCommand db i door arg1 s) := by
  unfold getCommand
  split
  · exact restedReply _ s
  · split
    · exact restedReply _ s
    · exact restedSendto _ s

theorem stillSendto (reply) (s : State n) : Still s (sendto reply s) := (restedSendto reply s).still

/- The same for datagrams and for the replay: what is left are the calls, the masks that commands write, and the signals. -/
structure Commands (R : State n → State n → Prop) : Prop extends Closes R where
  status : ∀ i s, R s (signalDoorStatus cfg i s)
  unlock : ∀ i mask s, R s (unlockDoor cfg i mask s).1
  lock : ∀ i mask s, R s (lockDoor cfg i mask s).1
  masks : ∀ i (adm air : Door → Mask) s, R s (s.update i (fun d => {d with admDisableMask := adm d, airLockMask := air d}))

section
variable {cfg} {R : State n → State n → Prop} (commands : Commands cfg R)
include commands

theorem replyWithin (ret : Prop) [Decidable ret] (s : State n) : R s (if ret then sendto rOk s else sendto rErr s) := by
  split <;> exact commands.rested (restedSendto _ s)

theorem setUnlockWithin (i arg2) (s : State n) : R s (setUnlock cfg i arg2 s) :=
  commands.trans (commands.trans (commands.masks i (fun _ => 0) (fun _ => 0) s) (commands.unlock i arg2 _))
    (commands.masks i (fun _ => arg2) (fun d => d.airLockMask) _)

theorem setLockWithin (i arg2) (s : State n) : R s (setLock cfg i arg2 s) :=
  commands.trans (commands.trans (commands.masks i (fun _ => 0) (fun _ => 0) s) (commands.lock i arg2 _))
    (commands.masks i (fun _ => arg2) (fun d => d.airLockMask) _)

theorem setWithin (db i door arg1 arg2) (s : State n) : R s (setCommand cfg db i door arg1 arg2 s) := by
  have stored : ∀ (clear mode : Bytes) (u : State n), R s u → R s (signalDoorStatus cfg i (setRow door clear mode arg2 db u).1) :=
    fun clear mode u reached => commands.trans reached (commands.trans (commands.rested (restedRow door clear mode arg2 db u)) (commands.status i _))
  unfold setCommand
  split
  · exact commands.trans (stored wLock wUnlock _ (setUnlockWithin commands i arg2 s)) (replyWithin commands _ _)
  · split
    · exact commands.trans (stored wUnlock wLock _ (setLockWithin commands i arg2 s)) (replyWithin commands _ _)
    · exact commands.rested (restedSendto _ s)

theorem unsetWithin (db i door arg1 arg2) (s : State n) : R s (unsetCommand cfg db i door arg1 arg2 s) := by
  have stored := restedDb door arg1 arg2 .dbUnset db.first s
  unfold unsetCommand
  dsimp only
  split
  · refine commands.trans (commands.rested stored) (commands.trans ?_ (commands.rested (restedSendto _ _)))
    split
    · exact commands.trans (commands.masks i (fun _ => 0) (fun d => d.airLockMask) _) (commands.status i _)
    · exact commands.refl _
  · exact commands.rested (stored.trans (restedSendto _ _))

theorem doWithin (i arg1 arg2) (s : State n) : R s (doCommand cfg i arg1 arg2 s) := by
  have reply : ∀ (ret : Mask) (s : State n), R s (if ret ≠ 0 then signalDoorStatus cfg i (sendto rOk s) else sendto rErr s) := by
    intro ret s
    split
    · exact commands.trans (commands.rested (restedSendto _ s)) (commands.status i _)
    · exact commands.rested (restedSendto _ s)
  unfold doCommand
  split
  · exact commands.trans (commands.unlock i arg2 s) (reply _ _)
  · split
    · exact commands.trans (commands.lock i arg2 s) (reply _ _)
    · split
      · exact commands.trans (commands.masks i (fun d => d.admDisableMask) (fun d => d.airLockMask ||| arg2) s) (commands.rested (restedSendto _ _))
      · split
        · exact commands.trans (commands.masks i (fun d => d.admDisableMask) (fun d => d.airLockMask &&& ~~~arg2) s) (commands.rested (restedSendto _ _))
        · exact commands.rested (restedSendto _ s)

theorem networkWithin (datagram db) (s : State n) : R s (checkNetwork cfg datagram db s) := by
  have seen : ∀ event name (s : State n), R s (s.emit (.sendEvent event name)) :=
    fun event name s => commands.rested (restedEmit (e := .sendEvent event name) trivial s)
  have ordered : ∀ i cmd door arg1 argX (s : State n), R s (command cfg db i cmd door arg1 argX s) := by
    intro i cmd door arg1 argX s
    unfold command
    dsimp only
    split
    · exact commands.rested (restedGet db i door arg1 s)
    · split
      · exact setWithin commands db i door arg1 _ s
      · split
        · exact unsetWithin commands db i door arg1 _ s
        · split
          · exact doWithin commands i arg1 _ s
          · exact commands.rested (restedSendto _ s)
  unfold checkNetwork
  split
  · exact commands.refl s
  · generalize words datagram = w
    refine commands.trans (seen (.remoteCtrl w.cmd w.arg1 w.argX) w.door s) ?_
    dsimp only
    split
    · split
      · exact ordered _ _ _ _ _ _
      · exact commands.rested (restedSendto _ _)
    · exact commands.rested (restedSendto _ _)

theorem restoreWithin (rows : List StateRow) (s : State n) : R s (initRemoteControl cfg rows s) := by
  refine foldlWithin commands.toCloses (fun s row => ?_) rows s
  unfold restoreRow
  cases getDoorByName cfg row.door with
  | none => exact commands.refl s
  | some i =>
    refine commands.trans ?_ (commands.status i _)
    split
    · exact commands.trans (commands.unlock i row.arg s) (commands.masks i (fun _ => row.arg) (fun d => d.airLockMask) _)
    · split
      · exact commands.trans (commands.lock i row.arg s) (commands.masks i (fun _ => row.arg) (fun d => d.airLockMask) _)
      · exact commands.refl s

end

/- Every call adds to the log only. -/
def Logged (s t : State n) : Prop := Grows (fun _ => True) s.log t.log

theorem openGrows (i : Fin n) (mask) (s : State n) : Logged s (unlockDoor cfg i mask s).1 :=
  unlockGrows cfg (fun _ _ => trivial) (fun _ => trivial) (fun _ => trivial) (fun _ _ => trivial) s

theorem loggedCommands : Commands cfg (Logged (n := n)) where
  refl s := growsRefl s.log
  trans := growsTrans
  rested h := growsMono (fun _ _ => trivial) h.log
  status := signalStatusGrows cfg (fun _ => trivial) (fun _ => trivial)
  unlock := openGrows cfg
  lock _ mask s := lockGrows cfg (fun _ => trivial) (fun _ => trivial) (fun _ _ => trivial) mask s
  masks _ _ _ s := growsRefl s.log

theorem loggedTick (i : Fin n) (s : State n) : Logged s (lockTimer cfg i s) := by
  rcases lockTimerCases cfg i s with ⟨_,same⟩ | ⟨_,_,same⟩ | ⟨_,_,same⟩ <;> rw [same]
  · exact growsRefl _
  · exact growsRefl _
  · exact (loggedCommands cfg).lock i _ (ticked i s)

theorem dbDone (door state arg action done) (s : State n) :
    (dbSetUnset door state arg action done s).2 = 0 ↔ done = true := by
  unfold dbSetUnset
  cases done <;> cases action <;> simp

/- A command is its act between two steps that leave the locks alone. -/
def Acting (a : Act n) (s t : State n) : Prop := ∃ v w, Still s v ∧ Takes cfg a v w ∧ Still w t

theorem actingStill (h : Still s t) : Acting cfg .still s t := ⟨t,t,h,.refl t,.refl t⟩
theorem actingFirst {a : Act n} (h : Takes cfg a s t) (rest : Still t u) : Acting cfg a s u :=
  ⟨s,t,.refl s,h,rest⟩

theorem setActing (db i door arg1 argX) (s : State n) (present : argX.isSome = true) :
    Acting cfg (commandAct db i wSet arg1 argX) s (setCommand cfg db i door arg1 (argX.getD 0) s) := by
  have notGet : wSet ≠ wGet := by decide
  simp only [commandAct,if_neg notGet,true_and,present,if_true]
  unfold setCommand
  have reply : ∀ (ret : Nat) (s : State n), Still s (if ret = 0 then sendto rOk s else sendto rErr s) := by
    intro ret s
    split <;> exact stillSendto _ s
  split
  · exact actingFirst cfg rfl (((restedRow _ _ _ _ db _).still.trans (stillStatus cfg i _)).trans (reply _ _))
  · split
    · exact actingFirst cfg rfl (((restedRow _ _ _ _ db _).still.trans (stillStatus cfg i _)).trans (reply _ _))
    · exact actingStill cfg (stillSendto _ s)

theorem unsetActing (db i door arg1 argX) (s : State n) :
    Acting cfg (commandAct db i wUnset arg1 argX) s (unsetCommand cfg db i door arg1 (argX.getD 0) s) := by
  have notGet : wUnset ≠ wGet := by decide
  have notSet : wUnset ≠ wSet := by decide
  simp only [commandAct,if_neg notGet,notSet,false_and,if_false,if_true]
  have stored := (restedDb door arg1 (argX.getD 0) .dbUnset db.first s).still
  unfold unsetCommand
  dsimp only
  by_cases done : db.first = true
  · rw [if_pos ((dbDone ..).mpr done)]
    by_cases held : arg1 = wUnlock ∨ arg1 = wLock
    · rw [if_pos ⟨done,held⟩,if_pos held]
      exact ⟨_,_,stored,rfl,(stillStatus cfg i _).trans (stillSendto _ _)⟩
    · rw [if_neg (fun h => held h.2),if_neg held]
      exact actingStill cfg (stored.trans (stillSendto _ _))
  · rw [if_neg (fun h => done ((dbDone ..).mp h)),if_neg (fun h => done h.1)]
    exact actingStill cfg (stored.trans (stillSendto _ _))

theorem doActing (db i arg1 argX) (s : State n) (present : argX.isSome = true) :
    Acting cfg (commandAct db i wDo arg1 argX) s (doCommand cfg i arg1 (argX.getD 0) s) := by
  have notGet : wDo ≠ wGet := by decide
  have notSet : wDo ≠ wSet := by decide
  have notUnset : wDo ≠ wUnset := by decide
  simp only [commandAct,if_neg notGet,notSet,notUnset,false_and,if_false,true_and,present,if_true]
  have reply : ∀ (ret : Mask) (s : State n),
      Still s (if ret ≠ 0 then signalDoorStatus cfg i (sendto rOk s) else sendto rErr s) := by
    intro ret s
    split
    · exact (stillSendto _ s).trans (stillStatus cfg i _)
    · exact stillSendto _ s
  unfold doCommand
  split
  · exact actingFirst cfg rfl (reply _ _)
  · split
    · exact actingFirst cfg rfl (reply _ _)
    · split
      · exact actingFirst cfg rfl (stillSendto _ _)
      · split
        · exact actingFirst cfg rfl (stillSendto _ _)
        · exact actingStill cfg (stillSendto _ s)

theorem commandActing (db i cmd door arg1 argX) (s : State n) :
    Acting cfg (commandAct db i cmd arg1 argX) s (command cfg db i cmd door arg1 argX s) := by
  unfold command
  dsimp only
  split
  · rename_i get
    simp only [commandAct,get,if_true]
    exact actingStill cfg (restedGet db i door arg1 s).still
  · split
    · rename_i set
      obtain ⟨rfl,present⟩ := set
      exact setActing cfg db i door arg1 argX s present
    · split
      · rename_i unset
        subst unset
        exact unsetActing cfg db i door arg1 argX s
      · split
        · rename_i does
          obtain ⟨rfl,present⟩ := does
          exact doActing cfg db i arg1 argX s present
        · rename_i get set unset does
          simp only [commandAct,get,set,unset,does,if_false]
          exact actingStill cfg (stillSendto _ s)

theorem checkNetworkActing {datagram} (nonempty : datagram ≠ []) (db) (s : State n) :
    Acting cfg (datagramAct cfg datagram db) s (checkNetwork cfg datagram db s) := by
  unfold checkNetwork datagramAct
  simp only [nonempty,if_false]
  generalize words datagram = w
  obtain ⟨cmd,door,arg1,argX⟩ := w
  have seen : ∀ event name, Still s (s.emit (.sendEvent event name)) :=
    fun event name => stillEmit (e := .sendEvent event name) trivial s
  cases cmd <;> cases door <;> cases arg1
  case some.some.some cmd door arg1 =>
    dsimp only
    cases getDoorByName cfg door with
    | none => exact actingStill cfg ((seen _ _).trans (stillSendto _ _))
    | some i =>
      obtain ⟨v,w,before,taken,after⟩ := commandActing cfg db i cmd door arg1 (argX.map toInt)
        (s.emit (.sendEvent (.remoteCtrl (some cmd) (some arg1) argX) (some door)))
      exact ⟨v,w,(seen _ _).trans before,taken,after⟩
  all_goals exact actingStill cfg ((seen _ _).trans (stillSendto _ _))

/- Runs of the whole controller; a guard restricts the steps taken. -/
abbrev SystemRun (guard : State n → Step n → Prop) : State n → State n → Prop :=
  Runs (fun a s t => t = step cfg s a) guard

/- Every step but a datagram's is a run of acts of a pass. -/
theorem servedPath {a : Step n} (served : ∀ datagram db, a ≠ .checkNetwork datagram db) (s : State n) :
    Path cfg (fun _ => OfPass) s (step cfg s a) := by
  cases a with
  | mainLoop pass => exact mainLoopPath cfg pass s
  | checkNetwork datagram db => exact absurd rfl (served datagram db)
  | processUserInfo r cb => exact runMono (fun _ _ => readerOfPass) (processUserInfoPath cfg r cb s)
  | checkInputs reading inputVal => exact checkInputsPath cfg reading inputVal s

/- A property that survives quiet steps and every act of a pass need only be checked
for the act of each datagram. -/
theorem stepKeeps (inv : State n → Prop) {guard : State n → Step n → Prop}
    (still : ∀ s t, Still s t → inv s → inv t)
    (pass : ∀ a, OfPass a → ∀ s t, Takes cfg a s t → inv s → inv t)
    (command : ∀ datagram db s v w, guard s (.checkNetwork datagram db) → Still s v →
      Takes cfg (datagramAct cfg datagram db) v w → inv v → inv w)
    (s : State n) (a : Step n) (allowed : guard s a) (start : inv s) : inv (step cfg s a) := by
  have local' : (∀ datagram db, a ≠ .checkNetwork datagram db) → inv (step cfg s a) := fun served =>
    runInvariant inv (fun s a t of h taken => pass a of s t taken h) (servedPath cfg served s) start
  cases a with
  | mainLoop p => exact local' (by simp)
  | checkInputs reading inputVal => exact local' (by simp)
  | processUserInfo r cb => exact local' (by simp)
  | checkNetwork datagram db =>
    by_cases nonempty : datagram = []
    · simpa [step,checkNetwork,nonempty] using start
    · obtain ⟨v,w,before,taken,after⟩ := checkNetworkActing cfg nonempty db s
      exact still w _ after (command datagram db s v w allowed before taken (still s v before start))

theorem systemInvariant (inv : State n → Prop) {guard : State n → Step n → Prop}
    (still : ∀ s t, Still s t → inv s → inv t)
    (pass : ∀ a, OfPass a → ∀ s t, Takes cfg a s t → inv s → inv t)
    (command : ∀ datagram db s v w, guard s (.checkNetwork datagram db) → Still s v →
      Takes cfg (datagramAct cfg datagram db) v w → inv v → inv w)
    (run : SystemRun cfg guard s t) (start : inv s) : inv t := by
  refine runInvariant inv ?_ run start
  rintro s a _ allowed holds rfl
  exact stepKeeps cfg inv still pass command s a allowed holds

end AccessControl.LockActs
