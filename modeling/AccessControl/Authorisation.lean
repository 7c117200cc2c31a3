import AccessControl.ControllerCalls
import AccessControl.ReaderSession

/-! Authorisation: every `unlock_door` of `process_user_info` is backed by a mask the
database gave for what this reader was given since its last reset. The reader's buffers
and lengths are tied to the session of the log by one invariant per reader. -/
namespace AccessControl.Authorisation
open BitMask DoorTable Gpio DoorController RemoteControl Run LockSteps LockActs ControllerCalls ReaderSession

variable {n : Nat} (cfg : Config n) {s t u : State n} {r : ReaderId n}

def modeOf (r : ReaderId n) : Byte := ((cfg r.door).reader r.side).accessMode
def present (r : ReaderId n) : Bool := ((cfg r.door).reader r.side).present

/- A question put with exactly the credentials of the session. -/
def Uses (r : ReaderId n) (ds : List Delivery) : Query → Prop
  | .getAccessMask2 pin card _ doorname => doorname = (cfg r.door).doorName ∧
      pins ds = given [pin] ∧ cards ds = given [card] ∧
      modeOf cfg r ≠ modeTwoCards ∧ (modeOf cfg r = modeCardAndPinAlways → pin ≠ [] ∧ card ≠ [])
  | .checkKeyAccess2 card1 card2 => modeOf cfg r = modeTwoCards ∧ cards ds = [card1,card2] ∧ card1 ≠ [] ∧ card2 ≠ []

/- What stands behind an unlock: the answer just given, by the database of the callback that
completed the session, to a question that uses the session and nothing else. -/
def Legit (r : ReaderId n) (cb : Callback) (mask : Mask) (earlier : List (Effect n)) : Prop :=
  present cfg r = true ∧ mask ≠ 0 ∧ ∃ query older rest, earlier = .access r query mask :: older ∧
    session r older = ⟨0,cb⟩ :: rest ∧ mask = (cb.database query).mask ∧
    (∀ d ∈ rest, d.age ≤ twoFactorTime - 1) ∧ Uses cfg r (session r older) query

/- A reader between two calls: the countdown runs while it holds anything, and its buffers
hold what was delivered. -/
structure Tracks (ds : List Delivery) (d : DoorReader) : Prop where
  low : 0 ≤ d.twoFactorTimer
  high : d.twoFactorTimer ≤ twoFactorTime
  idle : d.twoFactorTimer = 0 → ds = []
  aged : ∀ x ∈ ds, x.age + d.twoFactorTimer ≤ twoFactorTime
  card : cards ds = given [d.card.take d.cardLen]
  cardLen : (d.card.take d.cardLen).length = d.cardLen
  pin : pins ds = given [d.pin.take d.pinLen]
  pinLen : (d.pin.take d.pinLen).length = d.pinLen
  card2 : d.card2Len = 0

/- The same once a callback has stored its credential, before it is judged. -/
structure Stored (r : ReaderId n) (cb : Callback) (old : List Delivery) (d : DoorReader) : Prop where
  low : 0 ≤ d.twoFactorTimer
  high : d.twoFactorTimer ≤ twoFactorTime
  idle : d.twoFactorTimer = 0 → old = []
  aged : ∀ x ∈ old, x.age + d.twoFactorTimer ≤ twoFactorTime
  card : cards (⟨0,cb⟩ :: old) = given [d.card.take d.cardLen,d.card2.take d.card2Len]
  cardLen : (d.card.take d.cardLen).length = d.cardLen
  card2Len : (d.card2.take d.card2Len).length = d.card2Len
  pin : pins (⟨0,cb⟩ :: old) = given [d.pin.take d.pinLen]
  pinLen : (d.pin.take d.pinLen).length = d.pinLen
  second : d.card2Len ≠ 0 → modeOf cfg r = modeTwoCards ∧ d.cardLen ≠ 0

def Good (s : State n) : Prop := ∀ r, present cfg r = true → Tracks (session r s.log) (s.doorReader r)

/- What only reader `r` notices. -/
structure Own (r : ReaderId n) (s t : State n) : Prop where
  reader : ∀ q, q ≠ r → t.doorReader q = s.doorReader q
  session : ∀ q, q ≠ r → session q t.log = session q s.log

section
variable {cfg}

theorem Own.trans (first : Own r s t) (second : Own r t u) : Own r s u :=
  ⟨fun q ne => (second.reader q ne).trans (first.reader q ne),fun q ne => (second.session q ne).trans (first.session q ne)⟩

theorem ownAside (h : Aside s t) : Own r s t := ⟨fun q _ => h.reader q,fun q _ => sessionInert h.log q⟩

theorem ownReader (f) (s : State n) : Own r s (s.setReader r f) := ⟨fun _ ne => setReaderOther s f ne,fun _ _ => rfl⟩

theorem goodAside (h : Aside s t) (good : Good cfg s) : Good cfg t := by
  intro r here
  rw [sessionInert h.log,h.reader]
  exact good r here

/- A step of reader `r` alone is checked at `r`. -/
theorem goodOwn (own : Own r s t) (good : Good cfg s)
    (tracks : present cfg r = true → Tracks (session r t.log) (t.doorReader r)) : Good cfg t := by
  intro q here
  by_cases same : q = r
  · subst same
    exact tracks here
  · rw [own.session q same,own.reader q same]
    exact good q here

end

/- Calls of `two_factor_timer` on a reader: the clock of the ages. -/
def ticks (r : ReaderId n) (log : List (Effect n)) : Nat :=
  log.countP (fun | .twoFactorTimer q => decide (q = r) | _ => false)

theorem ticksInert {a b : List (Effect n)} (h : Grows Inert a b) (r : ReaderId n) : ticks r b = ticks r a := by
  refine growsKeeps (fun e log inert => ?_) h
  cases e <;> first | exact inert.elim | rfl

theorem ticksReset (q r : ReaderId n) (s : State n) : ticks q (resetDoorAuth r s).log = ticks q s.log := rfl

/- `resetDoorAuth` ends the session; only `card2Len` is not its to clear. -/
theorem resetOwn (r : ReaderId n) (s : State n) : Own r s (resetDoorAuth r s) := by
  have emitted : Own r s (s.emit (.resetDoorAuth r)) := by
    refine ⟨fun _ _ => rfl,fun q ne => ?_⟩
    have other : r ≠ q := fun e => ne e.symm
    simp only [emitLog,session,if_neg other]
  unfold resetDoorAuth
  exact emitted.trans (ownReader _ _)

theorem resetTracks {s : State n} (second : (s.doorReader r).card2Len = 0) :
    Tracks (session r (resetDoorAuth r s).log) ((resetDoorAuth r s).doorReader r) := by
  have empty : session r (resetDoorAuth r s).log = [] := by
    unfold resetDoorAuth
    rw [setReaderLog,emitLog,session,if_pos rfl]
  have reader : (resetDoorAuth r s).doorReader r =
      {s.doorReader r with cardLen := 0, pinLen := 0, twoFactorTimer := 0} := by simp [resetDoorAuth]
  rw [empty,reader]
  exact ⟨le_refl _,show (0 : Int) ≤ 23 by decide,fun _ => rfl,by simp,rfl,rfl,rfl,rfl,second⟩

/- Both the reader's timer and the ages of its session move by one. -/
theorem timerGood (r : ReaderId n) {s : State n} (good : Good cfg s) : Good cfg (twoFactorTimer r s) := by
  have ticked : Own r s (s.emit (.twoFactorTimer r)) := by
    refine ⟨fun _ _ => rfl,fun q ne => ?_⟩
    have other : r ≠ q := fun e => ne e.symm
    simp only [emitLog,session,if_neg other]
  have grown : session r (s.emit (.twoFactorTimer r)).log =
      (session r s.log).map (fun d => {d with age := d.age + 1}) := by
    rw [emitLog,session,if_pos rfl]
  unfold twoFactorTimer
  dsimp only
  split
  · rename_i running
    rw [emitReader] at running
    have counted := ticked.trans (ownReader (fun reader => {reader with twoFactorTimer := reader.twoFactorTimer - 1}) _)
    split
    · have cleared := counted.trans (resetOwn r _)
      have done : Aside (resetDoorAuth r ((s.emit (.twoFactorTimer r)).setReader r _)) (invalidUsage r
          ((resetDoorAuth r ((s.emit (.twoFactorTimer r)).setReader r
            (fun reader => {reader with twoFactorTimer := reader.twoFactorTimer - 1}))).emit (.clearReaderData r))) :=
        (asideEmit (e := .clearReaderData r) _ trivial).trans (asideEmit _ trivial)
      refine goodAside done (goodOwn cleared good (fun here => resetTracks ?_))
      rw [setReaderSelf]
      exact (good r here).card2
    · rename_i more
      rw [setReaderSelf,emitReader] at more
      refine goodAside (asideEmit _ trivial) (goodOwn counted good (fun here => ?_))
      obtain ⟨low,high,idle,aged,card,cardLen,pin,pinLen,card2⟩ := good r here
      rw [setReaderLog,grown,setReaderSelf,emitReader]
      refine ⟨by dsimp only; omega,by dsimp only; omega,fun zero => ?_,?_,?_,cardLen,?_,pinLen,card2⟩
      · dsimp only at zero more
        omega
      · intro x inside
        obtain ⟨y,old,rfl⟩ := List.mem_map.mp inside
        have before := aged y old
        dsimp only
        push_cast
        omega
      · rw [cards,credentialsAged]
        exact card
      · rw [pins,credentialsAged]
        exact pin
  · rename_i stopped
    rw [emitReader] at stopped
    refine goodOwn ticked good (fun here => ?_)
    have tracks := good r here
    have empty := tracks.idle (by have := tracks.low; omega)
    rw [grown,emitReader]
    rw [empty] at tracks ⊢
    exact tracks

/- An error path of `process_user_info` resets the reader and signals; a stored
credential is the delivered one, in the buffer that was free. -/
theorem storeError {cb} (h : storeCredential cfg r cb s = .error t) :
    ∃ signal, t = (resetDoorAuth r s).emit (.readerSignal signal r) := by
  rcases storeCases cfg r cb s with ⟨signal,_,refused⟩ | ⟨_,f,stored,_⟩
  · exact ⟨signal,Except.error.inj (h.symm.trans refused)⟩
  · cases h.symm.trans stored

theorem takeMemcpy (target source : Bytes) : (memcpy target source).take source.length = source := by
  simp [memcpy]

theorem takeTerminated (target source : Bytes) :
    ((memcpy target source).set source.length 0).take source.length = source := by
  rw [List.take_set_of_le (le_refl _)]
  exact takeMemcpy target source

theorem cardPut {cb : Callback} (old : List Delivery) (type : cb.dataType = .dataIsCard) :
    cards (⟨0,cb⟩ :: old) = cards old ++ given [cb.data] ∧ pins (⟨0,cb⟩ :: old) = pins old := by
  constructor
  · simp [cards,credentialsCons,type]
  · simp [pins,credentialsCons,type]

theorem pinPut {cb : Callback} (old : List Delivery) (type : cb.dataType = .dataIsPin) :
    pins (⟨0,cb⟩ :: old) = pins old ++ given [cb.data] ∧ cards (⟨0,cb⟩ :: old) = cards old := by
  constructor
  · simp [pins,credentialsCons,type]
  · simp [cards,credentialsCons,type]

theorem storeOk {cb} {old : List Delivery} (tracks : Tracks old (s.doorReader r))
    (h : storeCredential cfg r cb s = .ok t) : cb.dataMode = .dataOk ∧
      ∃ f, t = s.setReader r f ∧ Stored cfg r cb old (f (s.doorReader r)) := by
  rcases storeCases cfg r cb s with ⟨signal,_,refused⟩ | ⟨mode,f,stored,which⟩
  · cases h.symm.trans refused
  obtain ⟨low,high,idle,aged,card,cardLen,pin,pinLen,card2⟩ := tracks
  refine ⟨mode,f,Except.ok.inj (h.symm.trans stored),?_⟩
  rcases which with ⟨type,free,rfl⟩ | ⟨type,free,rfl⟩ | ⟨type,held,two,free,rfl⟩
  · obtain ⟨pins',cards'⟩ := pinPut old type
    rw [free,List.take_zero] at pin
    refine ⟨low,high,idle,aged,?_,cardLen,?_,?_,?_,fun some => absurd card2 some⟩
    · simp only [cards',card,card2,List.take_zero,givenBefore]
    · rw [card2]
      rfl
    · simp only [pins',pin,takeTerminated,givenEmpty,List.nil_append]
    · simp only [takeTerminated]
  · obtain ⟨cards',pins'⟩ := cardPut old type
    rw [free,List.take_zero] at card
    refine ⟨low,high,idle,aged,?_,?_,?_,pins'.trans pin,pinLen,fun some => absurd card2 some⟩
    · simp only [cards',card,takeMemcpy,card2,List.take_zero,givenBefore,givenEmpty,List.nil_append]
    · simp only [takeMemcpy]
    · rw [card2]
      rfl
  · obtain ⟨cards',pins'⟩ := cardPut old type
    refine ⟨low,high,idle,aged,?_,cardLen,?_,pins'.trans pin,pinLen,fun _ => ⟨two,held⟩⟩
    · simp only [cards',card,takeMemcpy]
      exact (List.filter_append ..).symm
    · simp only [takeMemcpy]

/- What the switch over the access mode does to its reader, and what its mask is worth. -/
def Answers (r : ReaderId n) (d : DoorReader) : Query → Prop
  | .getAccessMask2 pin card _ doorname => doorname = (cfg r.door).doorName ∧
      pin = d.pin.take d.pinLen ∧ card = d.card.take d.cardLen ∧ modeOf cfg r ≠ modeTwoCards ∧
      (modeOf cfg r = modeCardAndPinAlways → d.cardLen ≠ 0 ∧ d.pinLen ≠ 0)
  | .checkKeyAccess2 card1 card2 => modeOf cfg r = modeTwoCards ∧ card1 = d.card.take d.cardLen ∧ d.cardLen ≠ 0 ∧
      card2 = d.card2.take d.card2Len ∧ d.card2Len ≠ 0

structure Judged (database : Database) (r : ReaderId n) (s t : State n) (mask : Mask) : Prop where
  own : Own r s t
  log : Grows Inert s.log t.log
  reader : ∃ timer, t.doorReader r = {s.doorReader r with twoFactorTimer := timer, card2Len := 0} ∧
    (timer = 0 ∨ (s.doorReader r).card2Len = 0 ∧ (timer = (s.doorReader r).twoFactorTimer ∨
      (s.doorReader r).twoFactorTimer = 0 ∧ timer = twoFactorTime))
  answer : mask ≠ 0 → ∃ query older, t.log = .access r query mask :: older ∧ Grows Inert s.log older ∧
    mask = (database query).mask ∧ Answers cfg r (s.doorReader r) query

theorem askSpec (database) (r : ReaderId n) (query) (s : State n) : Aside s (ask database r query s).1 ∧
    (ask database r query s).2 = (database query).mask ∧
    ∃ older, (ask database r query s).1.log = .access r query (ask database r query s).2 :: older ∧ Grows Inert s.log older := by
  obtain ⟨older,same,grown⟩ := askGrows (P := Inert) (fun _ _ => trivial) database r query s
  rw [same]
  exact ⟨⟨fun _ => rfl,growsTrans grown (growsCons trivial older)⟩,rfl,older,rfl,grown⟩

section
variable (single : (s.doorReader r).card2Len = 0)
include single

theorem readerKept {d : DoorReader} (same : d = s.doorReader r) :
    d = {s.doorReader r with twoFactorTimer := (s.doorReader r).twoFactorTimer, card2Len := 0} := by
  rw [same,← single]

theorem judgedNone (database) : Judged cfg database r s s 0 where
  own := ownAside (.refl s)
  log := growsRefl _
  reader := ⟨_,readerKept single rfl,.inr ⟨single,.inl rfl⟩⟩
  answer none := absurd rfl none

/- Waiting for the second factor: the countdown is started unless it runs already. -/
theorem judgedStart (database) {u : State n} (h : Aside s u) : Judged cfg database r s (startTwoFactor r u) 0 := by
  have same := h.reader r
  unfold startTwoFactor
  split
  · rename_i idle
    have signalled : Aside s (u.emit (.readerSignal .pin r)) := h.trans (asideEmit u trivial)
    refine ⟨(ownAside signalled).trans (ownReader _ _),signalled.log,⟨twoFactorTime,?_,?_⟩,fun none => absurd rfl none⟩
    · rw [setReaderSelf,emitReader,same,← single]
    · rw [same] at idle
      exact .inr ⟨single,.inr ⟨idle,rfl⟩⟩
  · exact ⟨ownAside h,h.log,⟨_,readerKept single same,.inr ⟨single,.inl rfl⟩⟩,fun none => absurd rfl none⟩

theorem judgedAsk (database) {query} (answers : Answers cfg r (s.doorReader r) query) :
    Judged cfg database r s (ask database r query s).1 (ask database r query s).2 := by
  obtain ⟨aside,mask,older,log,grown⟩ := askSpec database r query s
  refine ⟨ownAside aside,aside.log,⟨_,readerKept single (aside.reader r),.inr ⟨single,.inl rfl⟩⟩,fun _ => ?_⟩
  exact ⟨query,older,log,grown,mask,answers⟩

end

/- An answer that also stops the countdown, and in the mode of two cards clears the second. -/
theorem judgedStop (database) {query} (second : Nat → Nat) (cleared : second (s.doorReader r).card2Len = 0)
    (answers : Answers cfg r (s.doorReader r) query) {u : State n}
    (stopped : u = (ask database r query s).1.setReader r
      (fun reader => {reader with twoFactorTimer := 0, card2Len := second reader.card2Len})) :
    Judged cfg database r s u (ask database r query s).2 := by
  obtain ⟨aside,mask,older,log,grown⟩ := askSpec database r query s
  subst stopped
  refine ⟨(ownAside aside).trans (ownReader _ _),aside.log,⟨0,?_,.inl rfl⟩,fun _ => ⟨query,older,log,grown,mask,answers⟩⟩
  rw [setReaderSelf,aside.reader r,cleared]

/- One case per outcome of the switch. -/
theorem authMaskJudged (database) {s : State n}
    (second : (s.doorReader r).card2Len ≠ 0 → modeOf cfg r = modeTwoCards ∧ (s.doorReader r).cardLen ≠ 0) :
    Judged cfg database r s (authMask cfg database r s).1 (authMask cfg database r s).2 := by
  have single : modeOf cfg r ≠ modeTwoCards → (s.doorReader r).card2Len = 0 := by
    intro other
    by_contra held
    exact other (second held).1
  -- A question with what was delivered, in whatever mode it is put.
  have asks : ∀ mode, modeOf cfg r ≠ modeTwoCards →
      (modeOf cfg r = modeCardAndPinAlways → (s.doorReader r).cardLen ≠ 0 ∧ (s.doorReader r).pinLen ≠ 0) →
      Answers cfg r (s.doorReader r) (.getAccessMask2 ((s.doorReader r).pin.take (s.doorReader r).pinLen)
        ((s.doorReader r).card.take (s.doorReader r).cardLen) mode (cfg r.door).doorName) :=
    fun mode other always => ⟨rfl,rfl,rfl,other,always⟩
  have switched := authMaskSwitched cfg database r s
  generalize authMask cfg database r s = out at switched ⊢
  cases switched with
  | nothing other => exact judgedNone cfg (single other) database
  | waiting waits =>
    have empty : (s.doorReader r).card2Len = 0 := by
      by_contra held
      exact waits (second held).1 ⟨(second held).2,held⟩
    exact judgedStart cfg empty database (.refl s)
  | access mode other plain => exact judgedAsk cfg (single other) database (asks mode other fun always => absurd always plain)
  | stopped mode other both => exact judgedStop cfg database id (single other) (asks mode other both) rfl
  | denied mode other zero => exact judgedStart cfg (single other) database (askSpec database r _ s).1
  | keys two both =>
    have answers : Answers cfg r (s.doorReader r) (.checkKeyAccess2 ((s.doorReader r).card.take (s.doorReader r).cardLen)
        ((s.doorReader r).card2.take (s.doorReader r).card2Len)) := ⟨two,rfl,both.1,rfl,both.2⟩
    have twice := setReaderTwice (checkKeyAccess database r s).1 r
      (fun reader => {reader with twoFactorTimer := 0}) (fun reader => {reader with card2Len := 0})
    exact judgedStop cfg database (fun _ => 0) rfl answers twice

section
variable {cfg}

theorem Stored.clear {cb old d} (stored : Stored cfg r cb old d) (h : ¬ (modeOf cfg r = modeTwoCards ∧ d.cardLen ≠ 0)) :
    d.card2Len = 0 := by
  by_contra held
  exact h (stored.second held)

theorem lengthNonempty {data : Bytes} {len : Nat} (length : (data.take len).length = len) (some : len ≠ 0) :
    data.take len ≠ [] := by
  intro none
  rw [none] at length
  exact some length.symm

/- A question answered from a stored reader uses the session. -/
theorem Stored.uses {cb old d query} (stored : Stored cfg r cb old d) (answers : Answers cfg r d query) :
    Uses cfg r (⟨0,cb⟩ :: old) query := by
  cases query with
  | getAccessMask2 pin card mode doorname =>
    obtain ⟨name,rfl,rfl,single,always⟩ := answers
    have none := stored.clear (fun two => single two.1)
    have cards' := stored.card
    rw [none,List.take_zero,givenBefore] at cards'
    refine ⟨name,stored.pin,cards',single,fun both => ?_⟩
    obtain ⟨card,pin⟩ := always both
    exact ⟨lengthNonempty stored.pinLen pin,lengthNonempty stored.cardLen card⟩
  | checkKeyAccess2 card1 card2 =>
    obtain ⟨two,rfl,first,rfl,second⟩ := answers
    have some1 := lengthNonempty stored.cardLen first
    have some2 := lengthNonempty stored.card2Len second
    refine ⟨two,?_,some1,some2⟩
    rw [stored.card,givenSelf]
    simp [some1,some2]

theorem Stored.ages {cb old d} (stored : Stored cfg r cb old d) : ∀ x ∈ old, x.age ≤ twoFactorTime - 1 := by
  intro x inside
  have running : d.twoFactorTimer ≠ 0 := by
    intro idle
    rw [stored.idle idle] at inside
    exact absurd inside (List.not_mem_nil)
  have aged := stored.aged x inside
  have low := stored.low
  omega

/- A reader that keeps waiting goes on tracking its session. -/
theorem Stored.tracks {cb old d d'} (stored : Stored cfg r cb old d) {timer : Int} (running : timer ≠ 0)
    (reader : d' = {d with twoFactorTimer := timer, card2Len := 0}) (stays : d.card2Len = 0)
    (timed : timer = d.twoFactorTimer ∨ d.twoFactorTimer = 0 ∧ timer = twoFactorTime) : Tracks (⟨0,cb⟩ :: old) d' := by
  have cards' := stored.card
  rw [stays,List.take_zero,givenBefore] at cards'
  have low := stored.low
  have high := stored.high
  have fresh : timer = d.twoFactorTimer ∨ old = [] ∧ timer = twoFactorTime :=
    timed.imp id (fun h => ⟨stored.idle h.1,h.2⟩)
  have bounds : 0 ≤ timer ∧ timer ≤ twoFactorTime := by
    rcases fresh with rfl | ⟨_,rfl⟩
    · exact ⟨low,high⟩
    · exact ⟨by decide,le_refl _⟩
  subst reader
  refine ⟨bounds.1,bounds.2,fun zero => absurd zero running,?_,cards',stored.cardLen,stored.pin,stored.pinLen,rfl⟩
  intro x inside
  rcases List.mem_cons.mp inside with rfl | before
  · dsimp only
    push_cast
    omega
  · rcases fresh with rfl | ⟨none,_⟩
    · exact stored.aged x before
    · rw [none] at before
      exact absurd before (List.not_mem_nil)

end

theorem authoriseGood {s t : State n} {cb : Callback} {old : List Delivery} (good : Good cfg s) (own : Own r s t)
    (delivered : session r t.log = ⟨0,cb⟩ :: old) (stored : Stored cfg r cb old (t.doorReader r)) :
    Good cfg (authorise cfg cb.database r t) ∧ ∀ q, ticks q (authorise cfg cb.database r t).log = ticks q t.log := by
  have judged := authMaskJudged cfg cb.database (r := r) stored.second
  unfold authorise
  generalize authMask cfg cb.database r t = out at judged ⊢
  obtain ⟨u,mask⟩ := out
  dsimp only at judged ⊢
  obtain ⟨owned,log,⟨timer,reader,timed⟩,_⟩ := judged
  have second : (u.doorReader r).card2Len = 0 := by rw [reader]
  have mine := own.trans owned
  split
  · have opened := asideUnlock cfg r.door mask u
    have whole := (mine.trans (ownAside opened)).trans (resetOwn r _)
    refine ⟨goodOwn whole good (fun _ => resetTracks ?_),fun q => ?_⟩
    · rw [opened.reader]
      exact second
    · exact (ticksReset q r _).trans ((ticksInert opened.log q).trans (ticksInert log q))
  · split
    · have denied : Aside u (authError r u) := asideEmit u trivial
      have whole := (mine.trans (ownAside denied)).trans (resetOwn r _)
      refine ⟨goodOwn whole good (fun _ => resetTracks second),fun q => ?_⟩
      exact (ticksReset q r _).trans ((ticksInert denied.log q).trans (ticksInert log q))
    · rename_i waiting
      refine ⟨goodOwn mine good (fun _ => ?_),ticksInert log⟩
      rw [sessionInert log,delivered]
      have running : timer ≠ 0 := by rwa [reader] at waiting
      obtain ⟨stays,timed⟩ := timed.resolve_left running
      exact stored.tracks running reader stays timed

/- A credential that is stored ends the session of its reader. -/
theorem storeDelivers {cb} {s t : State n} (good : Good cfg s) (here : present cfg r = true)
    (stored : storeCredential cfg r cb (s.emit (.processUserInfo r cb)) = .ok t) :
    Own r s t ∧ session r t.log = ⟨0,cb⟩ :: session r s.log ∧ Stored cfg r cb (session r s.log) (t.doorReader r) := by
  have entered : Own r s (s.emit (.processUserInfo r cb)) := by
    refine ⟨fun _ _ => rfl,fun q ne => ?_⟩
    have other : ¬ (r = q ∧ cb.dataMode = .dataOk) := fun h => ne h.1.symm
    simp only [emitLog,session,if_neg other]
  obtain ⟨ok,f,rfl,held⟩ := storeOk cfg (s := s.emit (.processUserInfo r cb)) (good r here) stored
  refine ⟨entered.trans (ownReader f _),?_,?_⟩
  · rw [setReaderLog,emitLog,session,if_pos ⟨rfl,ok⟩]
  · rw [setReaderSelf]
    exact held

theorem processUserInfoGood (r : ReaderId n) (cb) {s : State n} (good : Good cfg s) :
    Good cfg (processUserInfo cfg r cb s) ∧ ∀ q, ticks q (processUserInfo cfg r cb s).log = ticks q s.log := by
  have entered : Own r s (s.emit (.processUserInfo r cb)) := by
    refine ⟨fun _ _ => rfl,fun q ne => ?_⟩
    have other : ¬ (r = q ∧ cb.dataMode = .dataOk) := fun h => ne h.1.symm
    simp only [emitLog,session,if_neg other]
  unfold processUserInfo
  dsimp only
  split
  · rename_i here
    split
    · rename_i t failed
      obtain ⟨signal,rfl⟩ := storeError cfg failed
      have cleared := entered.trans (resetOwn r _)
      have reset : Good cfg (resetDoorAuth r (s.emit (.processUserInfo r cb))) :=
        goodOwn cleared good (fun _ => resetTracks (good r here).card2)
      exact ⟨goodAside (asideEmit _ trivial) reset,fun q => rfl⟩
    · rename_i t stored
      obtain ⟨own,delivered,held⟩ := storeDelivers cfg good here stored
      obtain ⟨after,counted⟩ := authoriseGood cfg good own delivered held
      refine ⟨after,fun q => (counted q).trans ?_⟩
      obtain ⟨_,_,rfl,_⟩ := storeOk cfg (s := s.emit (.processUserInfo r cb)) (good r here) stored
      rfl
  · rename_i absent
    have signalled : Aside (s.emit (.processUserInfo r cb)) (invalidData r (s.emit (.processUserInfo r cb))) :=
      asideEmit _ trivial
    exact ⟨goodAside signalled (goodOwn entered good (fun here => absurd here absent)),fun q => rfl⟩

theorem timerTicks (q r : ReaderId n) (s : State n) :
    ticks q (twoFactorTimer r s).log = ticks q s.log + if r = q then 1 else 0 := by
  have counted : ticks q (s.emit (.twoFactorTimer r)).log = ticks q s.log + if r = q then 1 else 0 := by
    rw [emitLog,ticks,List.countP_cons]
    simp only [decide_eq_true_eq]
    rfl
  unfold twoFactorTimer
  dsimp only
  split
  · split <;> exact counted
  · exact counted

theorem readerDataGood (pass : Pass n) (r) {s : State n} (good : Good cfg s) : Good cfg (getReaderData cfg pass r s) ∧
    ∀ q, ticks q (getReaderData cfg pass r s).log = ticks q s.log := by
  unfold getReaderData
  split
  · refine foldlInvariant (fun t => Good cfg t ∧ ∀ q, ticks q t.log = ticks q s.log) ?_ ⟨good,fun _ => rfl⟩
    intro t cb _ before
    have now := processUserInfoGood cfg r cb before.1
    exact ⟨now.1,fun q => (now.2 q).trans (before.2 q)⟩
  · exact ⟨good,fun _ => rfl⟩

/- Each pass counts each reader once. -/
theorem doorTurnGood (pass : Pass n) (i : Fin n) {s : State n} (good : Good cfg s) : Good cfg (doorTurn cfg pass s i) ∧
    ∀ q, ticks q (doorTurn cfg pass s i).log = ticks q s.log + if q.door = i then 1 else 0 := by
  have counted := goodAside (asideTick cfg i s) good
  have timers := timerGood cfg ⟨i,.B⟩ (timerGood cfg ⟨i,.A⟩ counted)
  have readA := readerDataGood cfg pass ⟨i,.A⟩ timers
  have readB := readerDataGood cfg pass ⟨i,.B⟩ readA.1
  refine ⟨readB.1,fun q => ?_⟩
  have whole := (readB.2 q).trans (readA.2 q)
  rw [timerTicks,timerTicks,ticksInert (asideTick cfg i s).log] at whole
  refine whole.trans ?_
  obtain ⟨j,side⟩ := q
  by_cases own : i = j
  · subst own
    cases side <;> simp
  · have other : j ≠ i := fun e => own e.symm
    simp [own,other]

theorem mainLoopGood (pass : Pass n) {s : State n} (good : Good cfg s) : Good cfg (mainLoop cfg pass s) ∧
    ∀ q, ticks q (mainLoop cfg pass s).log = ticks q s.log + 1 := by
  have inputs := asideInputs cfg pass.reading pass.inputVal (doorTurns cfg pass s)
  have turns : Good cfg (doorTurns cfg pass s) :=
    foldlInvariant (Good cfg) (fun s i _ good => (doorTurnGood cfg pass i good).1) good
  refine ⟨goodAside inputs turns,fun q => (ticksInert inputs.log q).trans ?_⟩
  have each := foldlEach (fun i t => Good cfg t ∧ (q.door = i → ticks q t.log = ticks q s.log))
    (fun i t => Good cfg t ∧ (q.door = i → ticks q t.log = ticks q s.log + 1)) (f := doorTurn cfg pass)
    (List.nodup_finRange n) ?_ ?_ (s := s) (fun _ _ => ⟨good,fun _ => rfl⟩)
  · exact (each q.door (List.mem_finRange _)).2 rfl
  · intro t i before
    have now := doorTurnGood cfg pass i before.1
    exact ⟨now.1,fun own => by rw [now.2 q,if_pos own,before.2 own]⟩
  · intro t i j ne
    have other : ∀ own : q.door = j, ¬ q.door = i := fun own e => ne (e.symm.trans own)
    constructor
    · intro before
      have now := doorTurnGood cfg pass i before.1
      exact ⟨now.1,fun own => by rw [now.2 q,if_neg (other own),Nat.add_zero,before.2 own]⟩
    · intro before
      have now := doorTurnGood cfg pass i before.1
      exact ⟨now.1,fun own => by rw [now.2 q,if_neg (other own),Nat.add_zero,before.2 own]⟩

theorem startGood (rows) : Good cfg (start cfg rows) := by
  refine foldlInvariant (Good cfg) (fun s row _ good => goodAside (asideRestore cfg row s) good) (fun r _ => ?_)
  exact ⟨le_refl _,show (0 : Int) ≤ 23 by decide,fun _ => rfl,by simp [initial,session],rfl,rfl,rfl,rfl,rfl⟩

theorem turnGood (a : Turn n) {s : State n} (good : Good cfg s) : Good cfg (turn cfg s a) := by
  cases a with
  | lockTimer i => exact goodAside (asideTick cfg i s) good
  | twoFactorTimer q => exact timerGood cfg q good
  | processUserInfo q cb => exact (processUserInfoGood cfg q cb good).1
  | checkInputs reading inputVal => exact goodAside (asideInputs cfg reading inputVal s) good
  | checkNetwork datagram db => exact goodAside (asideNetwork cfg datagram db s) good

theorem turnsGood (turns : List (Turn n)) {s : State n} (good : Good cfg s) : Good cfg (turns.foldl (turn cfg) s) :=
  foldlInvariant (Good cfg) (fun _ a _ good => turnGood cfg a good) good

/- The session that a callback opens the door for ends with its own credential. -/
theorem opensSession {cb} {mask} {earlier : List (Effect n)} {s : State n} (good : Good cfg s) (opens : Opens cfg r cb s mask earlier) :
    session r earlier = ⟨0,cb⟩ :: session r s.log := by
  obtain ⟨here,_,t,stored,rfl,rfl⟩ := opens
  obtain ⟨_,delivered,held⟩ := storeDelivers cfg good here stored
  exact (sessionInert (authMaskJudged cfg cb.database (r := r) held.second).log r).trans delivered

/- What a callback opens the door with is legitimate. -/
theorem opensLegit {cb} {mask} {earlier : List (Effect n)} {s : State n} (good : Good cfg s) (opens : Opens cfg r cb s mask earlier) :
    Legit cfg r cb mask earlier := by
  obtain ⟨here,granted,t,stored,rfl,rfl⟩ := opens
  obtain ⟨_,delivered,held⟩ := storeDelivers cfg good here stored
  have judged := authMaskJudged cfg cb.database (r := r) held.second
  obtain ⟨query,older,logged,grown,given',answers⟩ := judged.answer granted
  have same := (sessionInert grown r).trans delivered
  refine ⟨here,granted,query,older,session r s.log,logged,same,given',held.ages,?_⟩
  rw [same]
  exact held.uses answers

/- A run is its calls, one after another; each `unlock_door` from a `process_user_info` among them is
legitimate, and a pass ages every session by one. -/
theorem grantsLegit (rows : List StateRow) (steps : List (Step n)) :
    steps.foldl (step cfg) (start cfg rows) = (steps.flatMap (calls cfg)).foldl (turn cfg) (start cfg rows) ∧
    (∀ r cb i mask earlier, Unlocks cfg (start cfg rows) steps r cb i mask earlier → i = r.door ∧ Legit cfg r cb mask earlier) ∧
    ∀ r (pass : Pass n), ticks r (mainLoop cfg pass (steps.foldl (step cfg) (start cfg rows))).log =
      ticks r (steps.foldl (step cfg) (start cfg rows)).log + 1 := by
  refine ⟨stepsTurns cfg steps _,?_,?_⟩
  · intro r cb i mask earlier unlocks
    obtain ⟨own,_,before,_,_,opens⟩ := unlocksOpens unlocks
    exact ⟨own,opensLegit cfg (turnsGood cfg before (startGood cfg rows)) opens⟩
  · intro r pass
    have good : Good cfg (steps.foldl (step cfg) (start cfg rows)) := by
      rw [stepsTurns]
      exact turnsGood cfg _ (startGood cfg rows)
    exact (mainLoopGood cfg pass good).2 r

/- A card and, a pass later, its PIN on reader A of door A. -/
def keyring : Database
  | .getAccessMask2 pin card _ _ => ⟨if pin = [0x31] ∧ card = [0x07] then 1 else 0,[]⟩
  | .checkKeyAccess2 .. => ⟨0,[]⟩

def keypads : Config 2 := site 1 modeCardAndPinAlways (fun _ => none)
def keypad : ReaderId 2 := ⟨doorA,.A⟩

def cardThenPin : List (Step 2) :=
  [.processUserInfo keypad ⟨[0x07],.dataIsCard,.dataOk,keyring⟩,.mainLoop (quietPass 0x0c),
    .processUserInfo keypad ⟨[0x31],.dataIsPin,.dataOk,keyring⟩]

set_option maxRecDepth 10000 in
theorem admittedLegit : ∃ earlier, Unlocks keypads (start keypads []) cardThenPin keypad ⟨[0x31],.dataIsPin,.dataOk,keyring⟩ doorA 1 earlier ∧
    Legit keypads keypad ⟨[0x31],.dataIsPin,.dataOk,keyring⟩ 1 earlier := by
  have granted : verdict keypads keypad ⟨[0x31],.dataIsPin,.dataOk,keyring⟩
      ((cardThenPin.take 2).foldl (step keypads) (start keypads [])) = 1 := by decide
  rw [stepsTurns] at granted
  obtain ⟨earlier,opens⟩ := verdictOpens keypads (by rw [granted]; decide)
  rw [granted] at opens
  have unlocks : Unlocks keypads (start keypads []) cardThenPin keypad ⟨[0x31],.dataIsPin,.dataOk,keyring⟩ doorA 1 earlier :=
    opensUnlocks _ _ rfl opens
  exact ⟨earlier,unlocks,((grantsLegit keypads [] cardThenPin).2.1 _ _ _ _ _ unlocks).2⟩

end AccessControl.Authorisation
