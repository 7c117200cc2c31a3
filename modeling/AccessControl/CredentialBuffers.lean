import AccessControl.FactorOrder
import AccessControl.Traced
import Mathlib.Data.List.GetD

/-! The credential fields of every reader between the calls of the program, and the copies
that a callback makes into its arrays. -/
namespace AccessControl.CredentialBuffers
open BitMask DoorTable DoorController RemoteControl LockSteps ControllerCalls ReaderSession Authorisation FactorOrder Traced

variable {n : Nat} (cfg : Config n) {s t : State n} {r : ReaderId n}

/- An index written in one of the arrays of a `DoorReader`. -/
inductive Use where
  | card (index : Nat)
  | card2 (index : Nat)
  | pin (index : Nat)
  deriving DecidableEq, Repr

def Inside : Use → Prop
  | .card i => i < maxCardLen
  | .card2 i => i < maxCardLen
  | .pin i => i < maxPinLen + 1

def write (place : Nat → Use) (target : Bytes) (i : Nat) (b : Byte) : Trace Use Bytes :=
  use (place i) (if i < target.length then some (target.set i b) else none)

def copy (place : Nat → Use) (target source : Bytes) : Trace Use Bytes :=
  forUp (fun i target => write place target i (source.getD i 0)) source.length 0 target

/- The storing of a callback once more, byte by byte into arrays that do not grow. -/
def storeTraced (r : ReaderId n) (cb : Callback) (s : State n) : Trace Use (Except (State n) (State n)) :=
  let reader := s.doorReader r
  match cb.dataMode with
  | .dataOk =>
    match cb.dataType with
    | .dataIsPin =>
      if cb.data.length > maxPinLen then return .error (invalidData r (resetDoorAuth r s))
      else if reader.pinLen ≠ 0 then return .error (invalidUsage r (resetDoorAuth r s))
      else do
        let pin ← copy .pin reader.pin cb.data
        let pin ← write .pin pin cb.data.length 0
        return .ok (s.setReader r (fun reader => {reader with pin := pin, pinLen := cb.data.length}))
    | .dataIsCard =>
      if cb.data.length > maxCardLen then return .error (invalidData r (resetDoorAuth r s))
      else if reader.cardLen ≠ 0 then
        if modeOf cfg r ≠ modeTwoCards ∨ reader.card2Len ≠ 0 then return .error (invalidUsage r (resetDoorAuth r s))
        else do
          let card2 ← copy .card2 reader.card2 cb.data
          return .ok (s.setReader r (fun reader => {reader with card2 := card2, card2Len := cb.data.length}))
      else do
        let card ← copy .card reader.card cb.data
        return .ok (s.setReader r (fun reader => {reader with card := card, cardLen := cb.data.length}))
  | .dataOutOfBuf => return .error (invalidData r (resetDoorAuth r s))
  | .dataTimeout => return .error (invalidUsage r (resetDoorAuth r s))

/- The modes that wait for a second factor. -/
def Waits (mode : Byte) : Prop := mode = modeCardAndPin ∨ mode = modeCardAndPinAlways ∨ mode = modeTwoCards

/- The arrays keep the sizes they are declared with. -/
structure Arrays (d : DoorReader) : Prop where
  card : d.card.length = maxCardLen
  card2 : d.card2.length = maxCardLen
  pin : d.pin.length = maxPinLen + 1

structure Bounded (mode : Byte) (d : DoorReader) : Prop where
  arrays : Arrays d
  cardLen : d.cardLen ≤ maxCardLen
  pinLen : d.pinLen ≤ maxPinLen
  card2Len : d.card2Len = 0
  low : 0 ≤ d.twoFactorTimer
  high : d.twoFactorTimer ≤ twoFactorTime
  waits : d.twoFactorTimer ≠ 0 → Waits mode
  idle : d.twoFactorTimer = 0 → d.cardLen = 0 ∧ d.pinLen = 0

/- The same once a callback has stored its credential: the second card may be there. -/
structure Filled (mode : Byte) (d : DoorReader) : Prop where
  arrays : Arrays d
  cardLen : d.cardLen ≤ maxCardLen
  pinLen : d.pinLen ≤ maxPinLen
  low : 0 ≤ d.twoFactorTimer
  high : d.twoFactorTimer ≤ twoFactorTime
  waits : d.twoFactorTimer ≠ 0 → Waits mode
  second : d.card2Len ≠ 0 → mode = modeTwoCards ∧ d.cardLen ≠ 0

section
variable {place : Nat → Use} {target source : Bytes} {mode : Byte} {d : DoorReader}

theorem memcpyLength (fits : source.length ≤ target.length) : (memcpy target source).length = target.length := by
  rw [memcpy,List.length_append,List.length_drop]
  omega

theorem copyValue (place) (fits : source.length ≤ target.length) : (copy place target source).value = some (memcpy target source) := by
  have loop : ∀ k front rest, source = front ++ rest → rest.length = k → front.length + k ≤ target.length →
      (forUp (fun i target => write place target i (source.getD i 0)) k front.length (front ++ target.drop front.length)).value =
        some (memcpy target source) := by
    intro k
    induction k with
    | zero =>
      intro front rest whole none' _
      rw [List.length_eq_zero_iff.mp none',List.append_nil] at whole
      rw [← whole]
      rfl
    | succ k ih =>
      intro front rest whole some' room
      obtain ⟨b,rest,rfl⟩ := List.exists_cons_of_length_eq_add_one some'
      have value : source.getD front.length 0 = b := by
        rw [whole,List.getD_append_right _ _ _ _ (le_refl _),Nat.sub_self]
        rfl
      have next : target.drop front.length = target[front.length] :: target.drop (front.length + 1) := List.drop_eq_getElem_cons (by omega)
      have inside : front.length < (front ++ target.drop front.length).length := by
        rw [List.length_append,List.length_drop]
        omega
      have stored : (front ++ target.drop front.length).set front.length b = (front ++ [b]) ++ target.drop (front ++ [b]).length := by
        rw [List.set_append_right _ _ (le_refl _),Nat.sub_self,next,List.set_cons_zero,List.length_append,List.append_assoc]
        rfl
      have later := ih (front ++ [b]) rest (by rw [whole,List.append_assoc]; rfl) (Nat.succ.inj some')
        (by rw [List.length_append,List.length_singleton]; omega)
      rw [List.length_append,List.length_singleton] at later
      rw [forUp,valueBind,value,write,valueUse,if_pos inside,Option.bind_some,stored,List.length_append,List.length_singleton]
      exact later
  exact loop source.length [] source rfl rfl (by rw [List.length_nil]; omega)

theorem copyInside {P : Use → Prop} (inside : ∀ i, i < source.length → P (place i)) : Every P (copy place target source) := by
  refine everyUp (fun j s low high => ?_) target
  exact (everyUse _ _).mpr (inside j (by omega))

theorem clearedBounded (filled : Filled mode d) (single : d.card2Len = 0) : Bounded mode (cleared d) where
  arrays := ⟨filled.arrays.card,filled.arrays.card2,filled.arrays.pin⟩
  cardLen := Nat.zero_le _
  pinLen := Nat.zero_le _
  card2Len := single
  low := le_refl _
  high := show (0 : Int) ≤ 23 by decide
  waits running := absurd rfl running
  idle _ := ⟨rfl,rfl⟩

theorem Bounded.filled (bounded : Bounded mode d) : Filled mode d :=
  ⟨bounded.arrays,bounded.cardLen,bounded.pinLen,bounded.low,bounded.high,bounded.waits,fun some' => absurd bounded.card2Len some'⟩

/- A count of the timer leaves the reader as it is, one tick shorter, or cleared. -/
theorem countedBounded (bounded : Bounded mode d) : Bounded mode (counted d) := by
  obtain ⟨low,high⟩ := And.intro bounded.low bounded.high
  unfold counted
  split
  · rename_i running
    split
    · exact clearedBounded bounded.filled bounded.card2Len
    · rename_i more
      refine ⟨⟨bounded.arrays.card,bounded.arrays.card2,bounded.arrays.pin⟩,bounded.cardLen,bounded.pinLen,bounded.card2Len,?_,?_,?_,?_⟩
      · dsimp only
        omega
      · dsimp only
        omega
      · exact fun _ => bounded.waits (by omega)
      · intro zero
        dsimp only at zero
        omega
  · exact bounded

end

theorem setReaderSame {f g : DoorReader → DoorReader} (same : f (s.doorReader r) = g (s.doorReader r)) : s.setReader r f = s.setReader r g := by
  unfold State.setReader State.update
  unfold State.doorReader at same
  dsimp only
  rw [same]

/- Every copy stays inside its array, and what it leaves is what the callback stores. -/
theorem storeInside (cb : Callback) (arrays : Arrays (s.doorReader r)) :
    (storeTraced cfg r cb s).value = some (storeCredential cfg r cb s) ∧ Every Inside (storeTraced cfg r cb s) := by
  obtain ⟨card,card2,pin⟩ := arrays
  unfold storeTraced storeCredential
  dsimp only
  cases cb.dataMode with
  | dataOutOfBuf => exact ⟨rfl,everyPure _⟩
  | dataTimeout => exact ⟨rfl,everyPure _⟩
  | dataOk =>
    cases cb.dataType with
    | dataIsPin =>
      dsimp only
      split
      · exact ⟨rfl,everyPure _⟩
      · rename_i short
        split
        · exact ⟨rfl,everyPure _⟩
        · have copied := copyValue .pin (show cb.data.length ≤ (s.doorReader r).pin.length by omega)
          have room : cb.data.length < (memcpy (s.doorReader r).pin cb.data).length := by
            rw [memcpyLength (by omega)]
            omega
          constructor
          · simp only [valueBind,copied,write,valueUse,if_pos room,Option.bind_some,valuePure]
            exact congrArg (fun t => some (Except.ok t)) (setReaderSame rfl)
          · refine everyBind.mpr ⟨copyInside fun i small => ?_,fun _ _ => everyBind.mpr ⟨(everyUse _ _).mpr ?_,fun _ _ => everyPure _⟩⟩
            · exact (show i < maxPinLen + 1 by omega)
            · exact (show cb.data.length < maxPinLen + 1 by omega)
    | dataIsCard =>
      dsimp only
      split
      · exact ⟨rfl,everyPure _⟩
      · rename_i short
        split
        · unfold modeOf
          split
          · exact ⟨rfl,everyPure _⟩
          · have copied := copyValue .card2 (show cb.data.length ≤ (s.doorReader r).card2.length by omega)
            constructor
            · simp only [valueBind,copied,Option.bind_some,valuePure]
              exact congrArg (fun t => some (Except.ok t)) (setReaderSame rfl)
            · exact everyBind.mpr ⟨copyInside fun i small => (show i < maxCardLen by omega),fun _ _ => everyPure _⟩
        · have copied := copyValue .card (show cb.data.length ≤ (s.doorReader r).card.length by omega)
          constructor
          · simp only [valueBind,copied,Option.bind_some,valuePure]
            exact congrArg (fun t => some (Except.ok t)) (setReaderSame rfl)
          · exact everyBind.mpr ⟨copyInside fun i small => (show i < maxCardLen by omega),fun _ _ => everyPure _⟩

/- What is stored fits its array, and the second card comes in the mode of two cards only. -/
theorem storeFilled {cb : Callback} (bounded : Bounded (modeOf cfg r) (s.doorReader r)) (stored : storeCredential cfg r cb s = .ok t) :
    Filled (modeOf cfg r) (t.doorReader r) := by
  obtain ⟨⟨card,card2,pin⟩,cardLen,pinLen,low,high,waits,second⟩ := bounded.filled
  unfold storeCredential at stored
  dsimp only at stored
  cases mode : cb.dataMode with
  | dataOutOfBuf =>
    rw [mode] at stored
    cases stored
  | dataTimeout =>
    rw [mode] at stored
    cases stored
  | dataOk =>
    cases type : cb.dataType with
    | dataIsPin =>
      rw [mode,type] at stored
      dsimp only at stored
      split at stored
      · cases stored
      · rename_i short
        split at stored
        · cases stored
        · cases Except.ok.inj stored
          rw [setReaderSelf]
          refine ⟨⟨card,card2,?_⟩,cardLen,not_lt.mp short,low,high,waits,second⟩
          rw [List.length_set,memcpyLength (by omega),pin]
    | dataIsCard =>
      rw [mode,type] at stored
      dsimp only at stored
      split at stored
      · cases stored
      · rename_i short
        split at stored
        · rename_i held
          split at stored
          · cases stored
          · rename_i two
            cases Except.ok.inj stored
            rw [setReaderSelf]
            refine ⟨⟨card,?_,pin⟩,cardLen,pinLen,low,high,waits,fun _ => ⟨not_not.mp (not_or.mp two).1,held⟩⟩
            rw [memcpyLength (by omega),card2]
        · cases Except.ok.inj stored
          rw [setReaderSelf]
          refine ⟨⟨?_,card2,pin⟩,not_lt.mp short,pinLen,low,high,waits,fun some' => absurd bounded.card2Len some'⟩
          rw [memcpyLength (by omega),card]

/- A mode of one credential starts no countdown. -/
theorem authMaskIdle (database : Database) (plain : ¬ Waits (modeOf cfg r)) : (authMask cfg database r s).1.doorReader r = s.doorReader r := by
  have other : ∀ {mode}, Waits mode → modeOf cfg r ≠ mode := fun waits same => plain (same ▸ waits)
  have asked : ∀ mode, (getAccessMask cfg database r mode s).1.doorReader r = s.doorReader r := fun mode => (askAdds database _ s).2
  have noPin : ¬ (((cfg r.door).reader r.side).accessMode = modeCardAndPin ∨ ((cfg r.door).reader r.side).accessMode = modeCardAndPinAlways) :=
    not_or.mpr ⟨other (.inl rfl),other (.inr (.inl rfl))⟩
  have noCards : ((cfg r.door).reader r.side).accessMode ≠ modeTwoCards := other (.inr (.inr rfl))
  unfold authMask
  dsimp only
  rw [if_neg noPin,if_neg noCards]
  split
  · split
    · exact asked modeCard
    · split
      · exact asked modePin
      · rfl
  · split
    · split
      · exact asked _
      · rfl
    · split
      · split
        · exact asked _
        · rfl
      · rfl

theorem authoriseBounded (database : Database) (filled : Filled (modeOf cfg r) (s.doorReader r)) :
    Bounded (modeOf cfg r) ((authorise cfg database r s).doorReader r) := by
  have judged := authMaskJudged cfg database (r := r) filled.second
  have idle := authMaskIdle cfg (s := s) (r := r) database
  unfold authorise
  generalize authMask cfg database r s = out at judged idle ⊢
  obtain ⟨u,mask⟩ := out
  dsimp only at judged idle ⊢
  obtain ⟨_,_,⟨timer,reader,timed⟩,_⟩ := judged
  have low := filled.low
  have high := filled.high
  have after : 0 ≤ timer ∧ timer ≤ twoFactorTime ∧ (timer ≠ 0 → Waits (modeOf cfg r)) := by
    refine ⟨?_,?_,fun running => ?_⟩
    · rcases timed with rfl | ⟨_,rfl | ⟨_,rfl⟩⟩
      · exact le_refl _
      · exact low
      · exact (show (0 : Int) ≤ 23 by decide)
    · rcases timed with rfl | ⟨_,rfl | ⟨_,rfl⟩⟩
      · exact (show (0 : Int) ≤ 23 by decide)
      · exact high
      · exact le_refl _
    · by_contra plain
      have same := congrArg DoorReader.twoFactorTimer (reader.symm.trans (idle plain))
      exact plain (filled.waits (same ▸ running))
  have judged' : Filled (modeOf cfg r) (u.doorReader r) := by
    rw [reader]
    exact ⟨⟨filled.arrays.card,filled.arrays.card2,filled.arrays.pin⟩,filled.cardLen,filled.pinLen,after.1,after.2.1,after.2.2,
      fun some' => absurd rfl some'⟩
  have single : (u.doorReader r).card2Len = 0 := by rw [reader]
  split
  · rw [resetReader,(asideUnlock cfg r.door mask u).reader]
    exact clearedBounded judged' single
  · split
    · rw [resetReader]
      exact clearedBounded judged' single
    · rename_i running
      exact ⟨judged'.arrays,judged'.cardLen,judged'.pinLen,single,judged'.low,judged'.high,judged'.waits,fun zero => absurd zero running⟩

theorem processBounded (cb : Callback) (bounded : Bounded (modeOf cfg r) (s.doorReader r)) :
    Bounded (modeOf cfg r) ((processUserInfo cfg r cb s).doorReader r) := by
  have entered : Bounded (modeOf cfg r) ((s.emit (.processUserInfo r cb)).doorReader r) := bounded
  unfold processUserInfo
  dsimp only
  split
  · rcases storeCases cfg r cb (s.emit (.processUserInfo r cb)) with ⟨signal,_,refused⟩ | ⟨_,f,stored,_⟩
    · rw [refused]
      dsimp only
      rw [emitReader,resetReader]
      exact clearedBounded entered.filled entered.card2Len
    · rw [stored]
      exact authoriseBounded cfg cb.database (storeFilled cfg entered stored)
  · exact bounded

/- The one step: whatever is called next, on this reader or not. -/
theorem turnBounded (a : Turn n) (bounded : Bounded (modeOf cfg r) (s.doorReader r)) : Bounded (modeOf cfg r) ((turn cfg s a).doorReader r) := by
  by_cases own : a.delivers r = true
  · cases a with
    | processUserInfo q cb =>
      obtain rfl : q = r := of_decide_eq_true own
      exact processBounded cfg cb bounded
    | _ => cases own
  · rw [turnReader cfg (Bool.not_eq_true _ ▸ own)]
    split
    · exact countedBounded bounded
    · exact bounded

theorem startBounded (rows : List StateRow) : Bounded (modeOf cfg r) ((start cfg rows).doorReader r) := by
  have kept : (start cfg rows).doorReader r = freshReader :=
    Run.foldlInvariant (fun s : State n => s.doorReader r = freshReader) (fun s row _ same => ((asideRestore cfg row s).reader r).trans same) rfl
  have limit : (0 : Int) ≤ twoFactorTime := by decide
  rw [kept]
  exact ⟨⟨rfl,rfl,rfl⟩,Nat.zero_le _,Nat.zero_le _,rfl,le_refl _,limit,fun running => absurd rfl running,fun _ => ⟨rfl,rfl⟩⟩

/- Passes and callbacks are sequences of calls, and after any sequence of calls every reader is
within its bounds, and whatever is delivered next is copied inside the arrays. -/
theorem buffersHold (rows : List StateRow) :
    (∀ steps : List (Step n), steps.foldl (step cfg) (start cfg rows) = (steps.flatMap (calls cfg)).foldl (turn cfg) (start cfg rows)) ∧
    ∀ (turns : List (Turn n)) (r : ReaderId n),
      Bounded (modeOf cfg r) ((turns.foldl (turn cfg) (start cfg rows)).doorReader r) ∧
      ∀ cb, let s := (turns.foldl (turn cfg) (start cfg rows)).emit (.processUserInfo r cb)
        (storeTraced cfg r cb s).value = some (storeCredential cfg r cb s) ∧ Every Inside (storeTraced cfg r cb s) := by
  refine ⟨fun steps => ?_,fun turns r => ?_⟩
  · rw [List.foldl_flatMap]
    congr 1
    funext s a
    exact stepCalls cfg a s
  · have bounded : Bounded (modeOf cfg r) ((turns.foldl (turn cfg) (start cfg rows)).doorReader r) :=
      Run.foldlInvariant (fun s : State n => Bounded (modeOf cfg r) (s.doorReader r)) (fun s a _ before => turnBounded cfg a before)
        (startBounded cfg rows)
    exact ⟨bounded,fun cb => storeInside cfg cb bounded.arrays⟩

end AccessControl.CredentialBuffers
