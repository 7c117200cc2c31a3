import AccessControl.Authorisation

/-! A card and a PIN in either order. Between the two deliveries lies any stretch of the main
program, call by call; of those a reader notices its own timer and its own callbacks. -/
namespace AccessControl.FactorOrder
open BitMask DoorTable Gpio DoorController RemoteControl Run LockSteps ControllerCalls ReaderSession Authorisation

variable {n : Nat} (cfg : Config n) {s t : State n} {r : ReaderId n}

/- One count of a reader's timer, as its fields see it. -/
def counted (d : DoorReader) : DoorReader :=
  if 0 < d.twoFactorTimer then
    if d.twoFactorTimer - 1 ≤ 0 then {d with cardLen := 0, pinLen := 0, twoFactorTimer := 0}
    else {d with twoFactorTimer := d.twoFactorTimer - 1}
  else d

theorem timerReader (r : ReaderId n) (s : State n) : (twoFactorTimer r s).doorReader r = counted (s.doorReader r) := by
  unfold twoFactorTimer counted
  dsimp only
  rw [emitReader]
  split
  · rw [setReaderSelf,emitReader]
    dsimp only
    split
    · have cleared : ∀ u : State n, (resetDoorAuth r u).doorReader r = {u.doorReader r with cardLen := 0, pinLen := 0, twoFactorTimer := 0} := by
        intro u
        rw [resetDoorAuth,setReaderSelf,emitReader]
      exact (cleared _).trans (by rw [setReaderSelf,emitReader])
    · rw [emitReader,setReaderSelf,emitReader]
  · rfl

theorem countedMany (k : Nat) {d : DoorReader} (running : k < d.twoFactorTimer) :
    counted^[k] d = {d with twoFactorTimer := d.twoFactorTimer - k} := by
  induction k with
  | zero =>
    rw [Nat.cast_zero,Int.sub_zero]
    rfl
  | succ k ih =>
    have more : ¬ d.twoFactorTimer - k - 1 ≤ 0 := by push_cast at running; omega
    rw [Function.iterate_succ_apply',ih (by push_cast at running; omega),counted]
    dsimp only
    rw [if_pos (by omega),if_neg more]
    push_cast
    rw [Int.sub_sub]

theorem countedIdle (k : Nat) {d : DoorReader} (idle : d.twoFactorTimer ≤ 0) : counted^[k] d = d := by
  have fixed : counted d = d := if_neg (by omega)
  exact Function.iterate_fixed fixed k

/- What another reader does leaves this one as it is. -/
def Left (r : ReaderId n) (s t : State n) : Prop := t.doorReader r = s.doorReader r

theorem Left.trans {u : State n} (first : Left r s t) (second : Left r t u) : Left r s u := Eq.trans second first
theorem leftEmit (e) (s : State n) : Left r s (s.emit e) := rfl
theorem leftAside (h : Aside s t) : Left r s t := h.reader r

section
variable {q : ReaderId n} (ne : r ≠ q)
include ne

theorem leftReader (f) (s : State n) : Left r s (s.setReader q f) := setReaderOther s f ne
theorem leftReset (s : State n) : Left r s (resetDoorAuth q s) := (leftEmit (.resetDoorAuth q) s).trans (leftReader ne _ _)
theorem leftStart (s : State n) : Left r s (startTwoFactor q s) := by
  unfold startTwoFactor
  split
  · exact (leftEmit _ s).trans (leftReader ne _ _)
  · rfl

theorem leftTimer (s : State n) : Left r s (twoFactorTimer q s) := by
  have start' : Left r s (s.emit (.twoFactorTimer q)) := leftEmit _ s
  unfold twoFactorTimer
  dsimp only
  split
  · have counted' := start'.trans (leftReader ne (fun reader => {reader with twoFactorTimer := reader.twoFactorTimer - 1}) _)
    split
    · exact ((counted'.trans (leftReset ne _)).trans (leftEmit (.clearReaderData q) _)).trans (leftEmit _ _)
    · exact counted'.trans (leftEmit _ _)
  · exact start'

theorem leftAuthMask (database) (s : State n) : Left r s (authMask cfg database q s).1 := by
  have asked : ∀ query, Left r s (ask database q query s).1 := by
    intro query
    obtain ⟨older,same,_⟩ := askGrows (P := fun _ => True) (fun _ _ => trivial) database q query s
    rw [same]
    rfl
  have access : ∀ mode, Left r s (getAccessMask cfg database q mode s).1 := fun mode => asked _
  have key : Left r s (checkKeyAccess database q s).1 := asked _
  have stop : ∀ s : State n, Left r s (stopTwoFactor q s) := fun s => leftReader ne _ s
  have switched := authMaskSwitched cfg database q s
  generalize authMask cfg database q s = out at switched ⊢
  cases switched with
  | nothing => rfl
  | waiting => exact leftStart ne s
  | access mode => exact access mode
  | stopped mode => exact (access mode).trans (stop _)
  | denied mode => exact (access mode).trans (leftStart ne _)
  | keys =>
    have cleared := (key.trans (stop _)).trans (leftReader ne (fun reader => {reader with card2Len := 0}) _)
    exact cleared

theorem leftAuthorise (database) (s : State n) : Left r s (authorise cfg database q s) := by
  have before := leftAuthMask cfg ne database s
  unfold authorise
  generalize authMask cfg database q s = out at before ⊢
  obtain ⟨u,mask⟩ := out
  dsimp only at before ⊢
  split
  · exact (before.trans (leftAside (asideUnlock cfg q.door mask u))).trans (leftReset ne _)
  · split
    · exact (before.trans (leftEmit _ u)).trans (leftReset ne _)
    · exact before

theorem otherDelivered (cb) (s : State n) : Left r s (processUserInfo cfg q cb s) := by
  have start' : Left r s (s.emit (.processUserInfo q cb)) := leftEmit _ s
  unfold processUserInfo
  dsimp only
  split
  · rcases storeCases cfg q cb (s.emit (.processUserInfo q cb)) with ⟨signal,_,refused⟩ | ⟨_,f,stored,_⟩
    · rw [refused]
      exact (start'.trans (leftReset ne _)).trans (leftEmit _ _)
    · rw [stored]
      exact (start'.trans (leftReader ne f _)).trans (leftAuthorise cfg ne cb.database _)
  · exact start'.trans (leftEmit _ _)

end
/- Of everything but its own callbacks, a reader notices the counts of its timer. -/
theorem turnReader {a : Turn n} (others : a.delivers r = false) (s : State n) :
    (turn cfg s a).doorReader r = if a.ticks r = true then counted (s.doorReader r) else s.doorReader r := by
  cases a with
  | lockTimer i => exact (asideTick cfg i s).reader r
  | twoFactorTimer q =>
    by_cases own : q = r
    · subst own
      rw [Turn.ticks,if_pos (decide_eq_true rfl)]
      exact timerReader q s
    · rw [Turn.ticks,if_neg (by simpa using own)]
      exact leftTimer (Ne.symm own) s
  | processUserInfo q cb => exact otherDelivered cfg (Ne.symm (of_decide_eq_false others)) cb s
  | checkInputs reading inputVal => exact (asideInputs cfg reading inputVal s).reader r
  | checkNetwork datagram db => exact (asideNetwork cfg datagram db s).reader r

theorem turnsReader {turns : List (Turn n)} (others : ∀ a ∈ turns, a.delivers r = false) (s : State n) :
    (turns.foldl (turn cfg) s).doorReader r = counted^[turns.countP (Turn.ticks r)] (s.doorReader r) := by
  induction turns generalizing s with
  | nil => rfl
  | cons a turns ih =>
    obtain ⟨now,later⟩ := List.forall_mem_cons.mp others
    rw [List.foldl_cons,ih later,turnReader cfg now,List.countP_cons]
    split
    · rw [Function.iterate_succ_apply]
    · rfl

/- What a stretch of the program does about access: calls of `unlock_door` and denials. -/
inductive Decision (n : Nat) where
  | unlock (door : Fin n) (mask : Mask)
  | denied (reader : ReaderId n)
  deriving DecidableEq, Repr

def decision : Effect n → Option (Decision n)
  | .unlockDoor i mask _ _ => some (.unlock i mask)
  | .readerSignal .errAuth q => some (.denied q)
  | _ => none

def decisions (s t : State n) : List (Decision n) := (slice s.log t.log).filterMap decision

def credential (type : DataType) (data : Bytes) (database : Database) : Callback := ⟨data,type,.dataOk,database⟩

/- The reader with a credential put into its buffer. -/
def put : DataType → Bytes → DoorReader → DoorReader
  | .dataIsPin, data, d => {d with pin := (memcpy d.pin data).set data.length 0, pinLen := data.length}
  | .dataIsCard, data, d => {d with card := memcpy d.card data, cardLen := data.length}

def held : DataType → DoorReader → Nat
  | .dataIsPin, d => d.pinLen
  | .dataIsCard, d => d.cardLen

def cleared (d : DoorReader) : DoorReader := {d with cardLen := 0, pinLen := 0, twoFactorTimer := 0}

def started (d : DoorReader) : DoorReader := {d with twoFactorTimer := if d.twoFactorTimer = 0 then twoFactorTime else d.twoFactorTimer}

def fullQuery (cfg : Config n) (r : ReaderId n) (d : DoorReader) (mode : Byte) : Query :=
  .getAccessMask2 (d.pin.take d.pinLen) (d.card.take d.cardLen) mode (cfg r.door).doorName

theorem resetReader (s : State n) : (resetDoorAuth r s).doorReader r = cleared (s.doorReader r) := by
  rw [resetDoorAuth,setReaderSelf,emitReader]
  rfl

theorem resetAdds (r : ReaderId n) (s : State n) : Adds decision s.log (resetDoorAuth r s).log [] := addsCons (f := decision) (.resetDoorAuth r) s.log

theorem storedCredential {type data} (database) (short : data.length ≤ 16) (free : held type (s.doorReader r) = 0) :
    storeCredential cfg r (credential type data database) s = .ok (s.setReader r (put type data)) := by
  unfold storeCredential credential
  cases type with
  | dataIsPin =>
    have none' : (s.doorReader r).pinLen = 0 := free
    dsimp only
    rw [if_neg (by unfold maxPinLen; omega),if_neg (not_not.mpr none')]
    rfl
  | dataIsCard =>
    have none' : (s.doorReader r).cardLen = 0 := free
    dsimp only
    rw [if_neg (by unfold maxCardLen; omega),if_neg (not_not.mpr none')]
    rfl

theorem unlockAdds (i : Fin n) (mask) (s : State n) : Adds decision s.log (unlockDoor cfg i mask s).1.log [.unlock i mask] := by
  have quiet : ∀ e : Effect n, Opening (cfg i).doorName e → decision e = none := by
    intro e opening
    cases e with
    | setDoorState operation mask => rfl
    | sendEvent event door => rfl
    | readerSignal signal q => rcases opening with rfl | rfl | rfl <;> rfl
    | _ => exact opening.elim
  exact unlockReads cfg quiet mask s

/- A question sends events and leaves its reader alone. -/
theorem askAdds (database) (query) (s : State n) : Adds decision s.log (ask database r query s).1.log [] ∧
    (ask database r query s).1.doorReader r = s.doorReader r := by
  obtain ⟨older,same,grown⟩ := askGrows (P := fun e => decision e = none) (fun _ _ => rfl) database r query s
  rw [same]
  exact ⟨addsTrans (addsNone grown) (addsCons (f := decision) (.access r query _) older),rfl⟩

theorem startAdds (s : State n) : Adds decision s.log (startTwoFactor r s).log [] ∧
    (startTwoFactor r s).doorReader r = started (s.doorReader r) := by
  unfold startTwoFactor started
  split
  · rw [setReaderSelf,emitReader]
    exact ⟨addsCons (f := decision) (.readerSignal .pin r) s.log,rfl⟩
  · exact ⟨addsRefl _,rfl⟩

/- A callback that is stored is judged as it is stored. -/
theorem processStored (here : ((cfg r.door).reader r.side).present = true) {type data} (database : Database) (short : data.length ≤ 16)
    (free : held type (s.doorReader r) = 0) {x : List (Decision n)} {d : DoorReader}
    (judged : ∀ u : State n, u.doorReader r = put type data (s.doorReader r) →
      Adds decision u.log (authorise cfg database r u).log x ∧ (authorise cfg database r u).doorReader r = d) :
    decisions s (processUserInfo cfg r (credential type data database) s) = x ∧
      (processUserInfo cfg r (credential type data database) s).doorReader r = d := by
  have entered : Adds decision s.log (s.emit (.processUserInfo r (credential type data database))).log [] :=
    addsCons (f := decision) (.processUserInfo r _) s.log
  have now := judged ((s.emit (.processUserInfo r (credential type data database))).setReader r (put type data)) (setReaderSelf ..)
  unfold processUserInfo
  dsimp only
  rw [if_pos here,storedCredential cfg (s := s.emit (.processUserInfo r (credential type data database))) database short free]
  exact ⟨addsSlice (addsTrans entered now.1),now.2⟩

section
variable (mode : ((cfg r.door).reader r.side).accessMode = modeCardAndPin ∨ ((cfg r.door).reader r.side).accessMode = modeCardAndPinAlways)
include mode

theorem authMaskBoth (database : Database) : authMask cfg database r s =
    if (s.doorReader r).cardLen ≠ 0 ∧ (s.doorReader r).pinLen ≠ 0 then
      (stopTwoFactor r (ask database r (fullQuery cfg r (s.doorReader r) modeCardAndPinAlways) s).1,
        (database (fullQuery cfg r (s.doorReader r) modeCardAndPinAlways)).mask)
    else if (s.doorReader r).cardLen ≠ 0 ∧ ((cfg r.door).reader r.side).accessMode = modeCardAndPin then
      if (database (fullQuery cfg r (s.doorReader r) modeCardAndPin)).mask ≠ 0 then
        (stopTwoFactor r (ask database r (fullQuery cfg r (s.doorReader r) modeCardAndPin) s).1,
          (database (fullQuery cfg r (s.doorReader r) modeCardAndPin)).mask)
      else (startTwoFactor r (ask database r (fullQuery cfg r (s.doorReader r) modeCardAndPin) s).1,
        (database (fullQuery cfg r (s.doorReader r) modeCardAndPin)).mask)
    else (startTwoFactor r s,0) := by
  have other : ∀ {own : Byte}, own ≠ modeCardAndPin → own ≠ modeCardAndPinAlways → ¬ ((cfg r.door).reader r.side).accessMode = own := by
    intro own sometimes always same
    exact mode.elim (fun h => sometimes (same.symm.trans h)) (fun h => always (same.symm.trans h))
  unfold authMask
  dsimp only
  rw [if_neg (other (by decide) (by decide)),if_neg (other (by decide) (by decide)),if_neg (other (by decide) (by decide)),if_pos mode]
  rfl

/- With one credential the reader waits for the other. -/
theorem authMaskFirst (database : Database) (one : ¬ ((s.doorReader r).cardLen ≠ 0 ∧ (s.doorReader r).pinLen ≠ 0))
    (alone : (s.doorReader r).cardLen ≠ 0 → ((cfg r.door).reader r.side).accessMode = modeCardAndPin →
      (database (fullQuery cfg r (s.doorReader r) modeCardAndPin)).mask = 0) :
    (authMask cfg database r s).2 = 0 ∧ Adds decision s.log (authMask cfg database r s).1.log [] ∧
      (authMask cfg database r s).1.doorReader r = started (s.doorReader r) := by
  rw [authMaskBoth cfg mode,if_neg one]
  split
  · rename_i card
    have zero := alone card.1 card.2
    obtain ⟨asked,kept⟩ := askAdds database (r := r) (fullQuery cfg r (s.doorReader r) modeCardAndPin) s
    obtain ⟨begun,reader⟩ := startAdds (r := r) (ask database r (fullQuery cfg r (s.doorReader r) modeCardAndPin) s).1
    rw [if_neg (not_not.mpr zero)]
    exact ⟨zero,addsTrans asked begun,reader.trans (by rw [kept])⟩
  · exact ⟨rfl,startAdds s⟩

/- With both it asks once and stops waiting. -/
theorem authMaskSecond (database : Database) (both : (s.doorReader r).cardLen ≠ 0 ∧ (s.doorReader r).pinLen ≠ 0) :
    (authMask cfg database r s).2 = (database (fullQuery cfg r (s.doorReader r) modeCardAndPinAlways)).mask ∧
      Adds decision s.log (authMask cfg database r s).1.log [] ∧
      (authMask cfg database r s).1.doorReader r = {s.doorReader r with twoFactorTimer := 0} := by
  rw [authMaskBoth cfg mode,if_pos both]
  obtain ⟨asked,kept⟩ := askAdds database (r := r) (fullQuery cfg r (s.doorReader r) modeCardAndPinAlways) s
  refine ⟨rfl,asked,?_⟩
  rw [stopTwoFactor,setReaderSelf,kept]

theorem authoriseFirst (database : Database) (one : ¬ ((s.doorReader r).cardLen ≠ 0 ∧ (s.doorReader r).pinLen ≠ 0))
    (alone : (s.doorReader r).cardLen ≠ 0 → ((cfg r.door).reader r.side).accessMode = modeCardAndPin →
      (database (fullQuery cfg r (s.doorReader r) modeCardAndPin)).mask = 0) :
    Adds decision s.log (authorise cfg database r s).log [] ∧ (authorise cfg database r s).doorReader r = started (s.doorReader r) := by
  have asked := authMaskFirst cfg mode database one alone
  unfold authorise
  generalize authMask cfg database r s = out at asked ⊢
  obtain ⟨u,mask⟩ := out
  obtain ⟨rfl,log,reader⟩ := asked
  dsimp only at log reader ⊢
  have running : (u.doorReader r).twoFactorTimer ≠ 0 := by
    rw [reader,started]
    dsimp only
    split
    · decide
    · assumption
  rw [if_neg (not_not.mpr rfl),if_neg running]
  exact ⟨log,reader⟩

theorem authoriseSecond (database : Database) (both : (s.doorReader r).cardLen ≠ 0 ∧ (s.doorReader r).pinLen ≠ 0) :
    Adds decision s.log (authorise cfg database r s).log
      [if (database (fullQuery cfg r (s.doorReader r) modeCardAndPinAlways)).mask ≠ 0 then
        .unlock r.door (database (fullQuery cfg r (s.doorReader r) modeCardAndPinAlways)).mask else .denied r] ∧
      (authorise cfg database r s).doorReader r = cleared (s.doorReader r) := by
  have asked := authMaskSecond cfg mode database both
  unfold authorise
  generalize authMask cfg database r s = out at asked ⊢
  obtain ⟨u,mask⟩ := out
  obtain ⟨rfl,log,reader⟩ := asked
  dsimp only at log reader ⊢
  split
  · have call := unlockAdds cfg r.door (database (fullQuery cfg r (s.doorReader r) modeCardAndPinAlways)).mask u
    refine ⟨addsTrans log (addsTrans call (resetAdds r _)),?_⟩
    rw [resetReader,(asideUnlock cfg r.door _ u).reader r,reader]
    rfl
  · rename_i refused
    rw [reader,if_pos rfl]
    have denied : Adds decision u.log (authError r u).log [.denied r] := addsCons (f := decision) (.readerSignal .errAuth r) u.log
    have whole := addsTrans log (addsTrans denied (resetAdds r (authError r u)))
    refine ⟨whole,?_⟩
    rw [resetReader,authError,emitReader,reader]
    rfl

/- The callback that brings one credential, and the one that brings the other. -/
theorem deliverFirst (here : ((cfg r.door).reader r.side).present = true) (type) (data) (database : Database) (short : data.length ≤ 16)
    (empty : (s.doorReader r).cardLen = 0 ∧ (s.doorReader r).pinLen = 0)
    (alone : type = .dataIsCard → ((cfg r.door).reader r.side).accessMode = modeCardAndPin →
      (database (.getAccessMask2 [] data modeCardAndPin (cfg r.door).doorName)).mask = 0) :
    decisions s (processUserInfo cfg r (credential type data database) s) = [] ∧
      (processUserInfo cfg r (credential type data database) s).doorReader r = started (put type data (s.doorReader r)) := by
  have free : held type (s.doorReader r) = 0 := by
    cases type
    · exact empty.2
    · exact empty.1
  refine processStored cfg here database short free fun u reader => ?_
  rw [← reader]
  refine authoriseFirst cfg mode database ?_ ?_
  · rw [reader]
    cases type
    · exact fun both => both.1 empty.1
    · exact fun both => both.2 empty.2
  · rw [reader]
    cases type with
    | dataIsPin => exact fun card _ => absurd empty.1 card
    | dataIsCard =>
      intro _ sometimes
      have question : fullQuery cfg r (put .dataIsCard data (s.doorReader r)) modeCardAndPin =
          .getAccessMask2 [] data modeCardAndPin (cfg r.door).doorName := by
        unfold fullQuery put
        dsimp only
        rw [empty.2,takeMemcpy,List.take_zero]
      rw [question]
      exact alone rfl sometimes

theorem deliverSecond (here : ((cfg r.door).reader r.side).present = true) (type) (data) (database : Database) (short : data.length ≤ 16)
    (free : held type (s.doorReader r) = 0)
    (both : (put type data (s.doorReader r)).cardLen ≠ 0 ∧ (put type data (s.doorReader r)).pinLen ≠ 0) :
    decisions s (processUserInfo cfg r (credential type data database) s) =
        [if (database (fullQuery cfg r (put type data (s.doorReader r)) modeCardAndPinAlways)).mask ≠ 0 then
          .unlock r.door (database (fullQuery cfg r (put type data (s.doorReader r)) modeCardAndPinAlways)).mask else .denied r] ∧
      (processUserInfo cfg r (credential type data database) s).doorReader r = cleared (put type data (s.doorReader r)) := by
  refine processStored cfg here database short free fun u reader => ?_
  rw [← reader] at both ⊢
  exact authoriseSecond cfg mode database both

end
/- What is left of the timer after `k` counts, from a reader that has just begun to wait. -/
def waited (k : Nat) (timer : Int) : Int := if timer < 0 then timer else if timer = 0 then twoFactorTime - k else timer - k

theorem countedStarted {k : Nat} {d : DoorReader} (within : (k : Int) < twoFactorTime) (running : d.twoFactorTimer ≤ 0 ∨ (k : Int) < d.twoFactorTimer) :
    counted^[k] (started d) = {d with twoFactorTimer := waited k d.twoFactorTimer} := by
  unfold started waited
  by_cases fresh : d.twoFactorTimer = 0
  · rw [if_pos fresh,if_neg (by omega),if_pos fresh,countedMany k within]
  · rw [if_neg fresh,if_neg fresh]
    split
    · exact countedIdle k (show d.twoFactorTimer ≤ 0 by omega)
    · exact countedMany k (show (k : Int) < d.twoFactorTimer by omega)

/- Two credentials with a stretch of the program between them: the reader afterwards, and what
the two deliveries decided. -/
def exchange (r : ReaderId n) (first second : Callback) (turns : List (Turn n)) (s : State n) : DoorReader × List (Decision n) :=
  let t := processUserInfo cfg r first s
  let u := turns.foldl (turn cfg) t
  let v := processUserInfo cfg r second u
  (v.doorReader r,decisions s t ++ decisions u v)

/- The stretch between them, as the reader sees it. -/
theorem stretchReader {turns : List (Turn n)} {d : DoorReader} (others : ∀ a ∈ turns, a.delivers r = false)
    (within : (turns.countP (Turn.ticks r) : Int) < twoFactorTime)
    (running : d.twoFactorTimer ≤ 0 ∨ (turns.countP (Turn.ticks r) : Int) < d.twoFactorTimer)
    {t : State n} (before : t.doorReader r = started d) :
    (turns.foldl (turn cfg) t).doorReader r = {d with twoFactorTimer := waited (turns.countP (Turn.ticks r)) d.twoFactorTimer} := by
  rw [turnsReader cfg others,before]
  exact countedStarted within running

/- With nothing pending and no timer that runs out between them, the order of a card and a PIN
leaves the reader alike and decides alike. -/
theorem orderFree (r : ReaderId n) {card pin : Bytes} {database : Database}
    (mode : ((cfg r.door).reader r.side).accessMode = modeCardAndPinAlways ∨
      ((cfg r.door).reader r.side).accessMode = modeCardAndPin ∧
        (database (.getAccessMask2 [] card modeCardAndPin (cfg r.door).doorName)).mask = 0)
    (someCard : card ≠ []) (shortCard : card.length ≤ maxCardLen) (somePin : pin ≠ []) (shortPin : pin.length ≤ maxPinLen)
    {s : State n} (empty : (s.doorReader r).cardLen = 0 ∧ (s.doorReader r).pinLen = 0)
    {turns : List (Turn n)} (others : ∀ a ∈ turns, a.delivers r = false)
    (within : (turns.countP (Turn.ticks r) : Int) < twoFactorTime)
    (running : (s.doorReader r).twoFactorTimer ≤ 0 ∨ (turns.countP (Turn.ticks r) : Int) < (s.doorReader r).twoFactorTimer) :
    exchange cfg r (credential .dataIsCard card database) (credential .dataIsPin pin database) turns s =
      exchange cfg r (credential .dataIsPin pin database) (credential .dataIsCard card database) turns s := by
  have either : ((cfg r.door).reader r.side).accessMode = modeCardAndPin ∨ ((cfg r.door).reader r.side).accessMode = modeCardAndPinAlways :=
    mode.elim .inr fun h => .inl h.1
  have cardSome : card.length ≠ 0 := fun zero => someCard (List.length_eq_zero_iff.mp zero)
  have pinSome : pin.length ≠ 0 := fun zero => somePin (List.length_eq_zero_iff.mp zero)
  by_cases here : ((cfg r.door).reader r.side).present = true
  · obtain ⟨cardNone,cardReader⟩ := deliverFirst cfg either here .dataIsCard card database shortCard empty fun _ sometimes =>
      mode.elim (fun always => absurd (sometimes.symm.trans always) (by decide)) fun h => h.2
    obtain ⟨pinNone,pinReader⟩ := deliverFirst cfg either here .dataIsPin pin database shortPin empty fun pin => DataType.noConfusion pin
    have afterCard := stretchReader cfg (d := put .dataIsCard card (s.doorReader r)) others within running cardReader
    have afterPin := stretchReader cfg (d := put .dataIsPin pin (s.doorReader r)) others within running pinReader
    obtain ⟨cardThen,cardEnd⟩ := deliverSecond cfg either here .dataIsPin pin database shortPin
      (s := turns.foldl (turn cfg) (processUserInfo cfg r (credential .dataIsCard card database) s)) (by rw [afterCard]; exact empty.2)
      (by rw [afterCard]; exact ⟨cardSome,pinSome⟩)
    obtain ⟨pinThen,pinEnd⟩ := deliverSecond cfg either here .dataIsCard card database shortCard
      (s := turns.foldl (turn cfg) (processUserInfo cfg r (credential .dataIsPin pin database) s)) (by rw [afterPin]; exact empty.1)
      (by rw [afterPin]; exact ⟨cardSome,pinSome⟩)
    unfold exchange
    dsimp only
    rw [cardNone,pinNone,cardThen,pinThen,cardEnd,pinEnd,afterCard,afterPin]
    rfl
  · have absent : ∀ cb (u : State n), decisions u (processUserInfo cfg r cb u) = [] ∧ (processUserInfo cfg r cb u).doorReader r = u.doorReader r := by
      intro cb u
      unfold processUserInfo
      dsimp only
      rw [if_neg here]
      exact ⟨addsSlice (addsTrans (addsCons (f := decision) (.processUserInfo r cb) u.log) (addsCons (f := decision) (.readerSignal .errComm r) _)),rfl⟩
    unfold exchange
    dsimp only
    rw [(absent _ _).1,(absent _ _).1,(absent _ _).1,(absent _ _).1,(absent _ _).2,(absent _ _).2,turnsReader cfg others,turnsReader cfg others,
      (absent _ _).2,(absent _ _).2]

def passes (k : Nat) : List (Turn 2) := (List.replicate k (Step.mainLoop (quietPass 0x0c))).flatMap (calls keypads)

/- A card and its PIN within two passes. -/
set_option maxRecDepth 10000 in
theorem twoPasses : exchange keypads keypad (credential .dataIsCard [0x07] keyring) (credential .dataIsPin [0x31] keyring) (passes 2) (start keypads []) =
    exchange keypads keypad (credential .dataIsPin [0x31] keyring) (credential .dataIsCard [0x07] keyring) (passes 2) (start keypads []) :=
  orderFree keypads keypad (.inl rfl) (by decide) (by decide) (by decide) (by decide) (by decide +kernel) (by decide +kernel) (by decide +kernel)
    (by decide +kernel)

/- An entry of no digits leaves nothing pending but starts the timer, which is not started
again by what follows: here it runs out between the two credentials, within the allowed passes. -/
def entered : State 2 :=
  [.processUserInfo keypad (credential .dataIsPin [] keyring),.mainLoop (quietPass 0x0c)].foldl (step keypads) (start keypads [])

set_option maxRecDepth 10000 in
theorem orderMatters : ((entered.doorReader keypad).cardLen = 0 ∧ (entered.doorReader keypad).pinLen = 0) ∧
    (∀ a ∈ passes 22, a.delivers keypad = false) ∧ ((passes 22).countP (Turn.ticks keypad) : Int) < twoFactorTime ∧
    exchange keypads keypad (credential .dataIsCard [0x07] keyring) (credential .dataIsPin [0x31] keyring) (passes 22) entered ≠
      exchange keypads keypad (credential .dataIsPin [0x31] keyring) (credential .dataIsCard [0x07] keyring) (passes 22) entered := by
  refine ⟨by decide +kernel,by decide +kernel,by decide +kernel,?_⟩
  decide +kernel

end AccessControl.FactorOrder
