import AccessControl.FactorOrder
import AccessControl.ReaderEffects

/-! A reader that waits for the second factor. What it holds is dropped in the pass that takes the
last of its time, once, and in no other, whatever the rest of the program does. -/
namespace AccessControl.FactorExpiry
open DoorTable Gpio DoorController RemoteControl Run LockSteps ControllerCalls ReaderSession Authorisation FactorOrder ReaderEffects

variable {n : Nat} (cfg : Config n) {r : ReaderId n} {s : State n}

/- A reset of the reader. -/
def resets (r : ReaderId n) : Effect n → Option Unit
  | .resetDoorAuth q => if q = r then some () else none
  | _ => none

theorem othersAllow {q : ReaderId n} (other : q ≠ r) : Allows (fun e => resets r e = none) q where
  inert e inert := by
    cases e with
    | resetDoorAuth q => exact inert.elim
    | _ => rfl
  reset := if_neg other
  timer := rfl

/- Whether a count of the timer is its last. -/
def runsOut (d : DoorReader) : Prop := 0 < d.twoFactorTimer ∧ d.twoFactorTimer ≤ 1
instance (d) : Decidable (runsOut d) := by unfold runsOut; infer_instance

theorem timerResets (r : ReaderId n) (s : State n) :
    Adds (resets r) s.log (DoorController.twoFactorTimer r s).log (if runsOut (s.doorReader r) then [()] else []) := by
  have quiet : ∀ {e : Effect n} (log : List (Effect n)), resets r e = none → Adds (resets r) log (e :: log) [] :=
    fun log none' => addsNone (growsCons (P := fun e => resets r e = none) none' log)
  have noted : Adds (resets r) s.log (s.emit (.twoFactorTimer r)).log [] := quiet s.log rfl
  unfold DoorController.twoFactorTimer
  dsimp only
  rw [emitReader]
  by_cases running : 0 < (s.doorReader r).twoFactorTimer
  · rw [if_pos running,setReaderSelf,emitReader]
    dsimp only
    by_cases last : (s.doorReader r).twoFactorTimer - 1 ≤ 0
    · rw [if_pos last,if_pos ⟨running,by omega⟩]
      have reset : Adds (resets r) (s.emit (.twoFactorTimer r)).log (.resetDoorAuth r :: (s.emit (.twoFactorTimer r)).log) [()] := by
        have added := addsCons (f := resets r) (.resetDoorAuth r) (s.emit (.twoFactorTimer r)).log
        rwa [resets,if_pos rfl] at added
      exact addsTrans noted (addsTrans reset (addsTrans (quiet (e := .clearReaderData r) _ rfl) (quiet (e := .readerSignal .errUsage r) _ rfl)))
    · rw [if_neg last,if_neg (fun out => last (by have := out.2; omega))]
      exact addsTrans noted (quiet _ rfl)
  · rw [if_neg running,if_neg (fun out => running out.1)]
    exact noted

/- Of everything but its own callbacks, only the last count of its timer resets a reader. -/
theorem turnResets {a : Turn n} (others : a.delivers r = false) (s : State n) :
    Adds (resets r) s.log (turn cfg s a).log (if a.ticks r = true ∧ runsOut (s.doorReader r) then [()] else []) := by
  have aside : ∀ {t : State n}, Aside s t → Adds (resets r) s.log t.log [] :=
    fun h => addsNone (growsMono (fun e inert => by cases e with | resetDoorAuth q => exact inert.elim | _ => rfl) h.log)
  cases a with
  | lockTimer i => exact aside (asideTick cfg i s)
  | twoFactorTimer q =>
    by_cases own : q = r
    · subst own
      have ticks : (Turn.twoFactorTimer q).ticks q = true := decide_eq_true rfl
      simp only [ticks,true_and]
      exact timerResets q s
    · rw [if_neg fun h => own (of_decide_eq_true h.1)]
      exact addsNone (timerAllows (othersAllow own) s)
  | processUserInfo q cb =>
    have other := of_decide_eq_false others
    exact addsTrans (x := []) (addsNone (growsCons (P := fun e => resets r e = none) rfl s.log)) (addsNone (callbackAllows cfg (othersAllow other) cb s))
  | checkInputs reading inputVal => exact aside (asideInputs cfg reading inputVal s)
  | checkNetwork datagram db => exact aside (asideNetwork cfg datagram db s)

/- So many counts, and the timer has run out. -/
theorem countedOut {k : Nat} {d : DoorReader} (running : 0 < d.twoFactorTimer) (out : d.twoFactorTimer ≤ k) :
    counted^[k] d = cleared d := by
  obtain ⟨left,last⟩ : ∃ left : Nat, d.twoFactorTimer = left + 1 := ⟨(d.twoFactorTimer - 1).toNat,by omega⟩
  obtain ⟨more,rfl⟩ : ∃ more, k = more + (left + 1) := ⟨k - (left + 1),by omega⟩
  rw [Function.iterate_add_apply,Function.iterate_succ_apply',countedMany left (by omega),last]
  have one : (left : Int) + 1 - left = 1 := by omega
  rw [one,counted]
  dsimp only
  rw [if_pos (by decide),if_pos (by decide)]
  exact countedIdle more (Int.le_refl 0)

theorem countedTimer (d : DoorReader) :
    (counted d).twoFactorTimer = if 0 < d.twoFactorTimer then d.twoFactorTimer - 1 else d.twoFactorTimer := by
  unfold counted
  split
  · split
    · dsimp only
      omega
    · rfl
  · rfl

/- The timer runs out with one of the counts, or it does not. -/
def runOut (left : Int) (counts : Nat) : List Unit := if 0 < left ∧ left ≤ counts then [()] else []

theorem runOutNext (d : DoorReader) (counts : Nat) :
    (if runsOut d then [()] else []) ++ runOut (counted d).twoFactorTimer counts = runOut d.twoFactorTimer (counts + 1) := by
  rw [countedTimer,runOut,runOut]
  by_cases last : runsOut d
  · have one : d.twoFactorTimer = 1 := by
      have low := last.1
      have high := last.2
      omega
    rw [if_pos last,one]
    simp
  · have apart : ¬ (0 < d.twoFactorTimer ∧ d.twoFactorTimer ≤ 1) := last
    rw [if_neg last,List.nil_append]
    by_cases running : 0 < d.twoFactorTimer
    · rw [if_pos running]
      exact if_congr (by push_cast; omega) rfl rfl
    · rw [if_neg running,if_neg fun h => running h.1,if_neg fun h => running h.1]

theorem turnsReset {turns : List (Turn n)} (others : ∀ a ∈ turns, a.delivers r = false) (s : State n) :
    Adds (resets r) s.log (turns.foldl (turn cfg) s).log (runOut (s.doorReader r).twoFactorTimer (turns.countP (Turn.ticks r))) := by
  induction turns generalizing s with
  | nil =>
    rw [runOut,if_neg fun h => absurd (Int.lt_of_lt_of_le h.1 h.2) (Int.lt_irrefl _)]
    exact addsRefl _
  | cons a turns ih =>
    obtain ⟨now,later⟩ := List.forall_mem_cons.mp others
    have all := addsTrans (turnResets cfg now s) (ih later (turn cfg s a))
    rw [turnReader cfg now] at all
    rw [List.foldl_cons,List.countP_cons]
    by_cases ticks : a.ticks r = true
    · rw [if_pos ticks]
      simpa only [ticks,true_and,if_true,runOutNext] using all
    · rw [if_neg ticks]
      rwa [if_neg ticks,if_neg fun h => ticks h.1] at all

/- The main program without the readers' calls: so many passes. -/
def isPass : Step n → Bool
  | .mainLoop _ => true
  | _ => false

theorem stepsTicks (steps : List (Step n)) (r : ReaderId n) : (steps.flatMap (calls cfg)).countP (Turn.ticks r) = steps.countP isPass := by
  induction steps with
  | nil => rfl
  | cons a steps ih =>
    rw [List.flatMap_cons,List.countP_append,ih,List.countP_cons,Nat.add_comm]
    cases a with
    | mainLoop pass => rw [passTicks]; rfl
    | _ => rfl

/- A first factor that gets no second lasts to the pass: as long as nothing comes from its reader, what it
holds stays as it was until the timer has counted down, whoever else passes and whatever is commanded; that
pass resets the reader, and no other does. -/
theorem dropsOnce (r : ReaderId n) (s : State n) (waiting : 0 < (s.doorReader r).twoFactorTimer) (steps : List (Step n))
    (alone : ∀ a ∈ steps.flatMap (calls cfg), a.delivers r = false) :
    let later := steps.foldl (step cfg) s
    let left := (s.doorReader r).twoFactorTimer - steps.countP isPass
    later.doorReader r = (if 0 < left then {s.doorReader r with twoFactorTimer := left} else cleared (s.doorReader r)) ∧
    (slice s.log later.log).filterMap (resets r) = if 0 < left then [] else [()] := by
  intro later left
  have fields := turnsReader cfg alone s
  have dropped := addsSlice (turnsReset cfg alone s)
  rw [← stepsTurns,stepsTicks] at fields dropped
  rw [fields,dropped,runOut]
  by_cases more : 0 < left
  · rw [if_pos more,if_pos more,if_neg (by omega)]
    exact ⟨countedMany _ (by omega),rfl⟩
  · rw [if_neg more,if_neg more,if_pos ⟨waiting,by omega⟩]
    exact ⟨countedOut waiting (by omega),rfl⟩

/- A card at the keypad, and nothing behind it. -/
def begun : State 2 := step keypads (start keypads []) (.processUserInfo keypad (credential .dataIsCard [0x07] keyring))
def silence (k : Nat) : List (Step 2) := List.replicate k (.mainLoop (quietPass 0x0c))

set_option maxRecDepth 10000 in
theorem dropsWithLast : (((silence 22).foldl (step keypads) begun).doorReader keypad).cardLen = 1 ∧
    (((silence 23).foldl (step keypads) begun).doorReader keypad).cardLen = 0 := by
  have waits := (dropsOnce keypads keypad begun (by decide +kernel) (silence 22) (by decide +kernel)).1
  have drops := (dropsOnce keypads keypad begun (by decide +kernel) (silence 23) (by decide +kernel)).1
  rw [waits,drops]
  decide +kernel

end AccessControl.FactorExpiry
