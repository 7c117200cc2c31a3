import AccessControl.AirlockExclusion
import AccessControl.AirlockSources

/-! What administrative commands leave of an airlock. The set commands clear the
blockade of their door, and a hold that is lifted does not bring it back. -/
namespace AccessControl.AirlockAdmin
open BitMask DoorTable Gpio DoorController RemoteControl Run LockSteps LockActs AirlockExclusion AirlockSources

variable {n : Nat} (cfg : Config n) {s t : State n} {a b : Fin n}

/- `a` is unlocked or open, and its partner `b` is blocked in full. -/
structure Blocked (a b : Fin n) (s : State n) : Prop where
  names : Names cfg a b
  holds : Holds s a
  covered : Covered cfg b s

/- A 'set' or 'unset' command for the door, whatever its words ask for. -/
def Administers (b : Fin n) : Step n → Prop
  | .checkNetwork datagram _ => ((words datagram).cmd = some wSet ∨ (words datagram).cmd = some wUnset) ∧
      (words datagram).door.bind (getDoorByName cfg) = some b
  | _ => False

/- A step in between that changes nothing on `a` and leaves the blockade of `b` alone. -/
structure Aside (a b : Fin n) (s t : State n) : Prop where
  timer : (t.doors a).doorLockTimer = (s.doors a).doorLockTimer
  input : (t.doors a).lastInput = (s.doors a).lastInput
  air : (t.doors b).airLockMask = (s.doors b).airLockMask

def Proceeds (a b : Fin n) : State n → List (Step n) → Prop
  | _, [] => True
  | s, x :: xs => (Administers cfg b x ∨ Aside a b s (step cfg s x)) ∧ Proceeds a b (step cfg s x) xs

/- The 'unset' that lifts the hold of the door. -/
def Lifts (b : Fin n) : Step n → Prop
  | .checkNetwork datagram db => datagram ≠ [] ∧ datagramAct cfg datagram db = .unset b
  | _ => False

/- Whether a blockade outlives an act: 'set' clears it, and only a door that is its own
partner blocks itself again by the unlock of 'set unlock'. -/
def outlives (b : Fin n) (kept : Bool) : Act n → Bool
  | .setLock i _ => if i = b then false else kept
  | .setUnlock i arg2 => if i = b then decide (effective cfg b arg2 ≠ 0 ∧ (cfg b).airLockPartnerLocal = some b) else kept
  | _ => kept

def stepOutlives (b : Fin n) (kept : Bool) : Step n → Bool
  | .checkNetwork datagram db => outlives cfg b kept (datagramAct cfg datagram db)
  | _ => kept

/- The blockade is whole, or there is none. -/
def Left (b : Fin n) (kept : Bool) (s : State n) : Prop :=
  if kept then Covered cfg b s else (s.doors b).airLockMask = 0

theorem leftSame {kept : Bool} (same : (t.doors b).airLockMask = (s.doors b).airLockMask) (left : Left cfg b kept s) :
    Left cfg b kept t := by
  unfold Left Covered at left ⊢
  rwa [same]

theorem setLockAir (arg2) (s : State n) : ((setLock cfg b arg2 s).doors b).airLockMask = 0 := by
  have clear : ((cleared b s).doors b).airLockMask = 0 := congrArg LockState.airLockMask (clearedLock b s)
  unfold setLock
  rw [updateSelf]
  change ((lockDoor cfg b arg2 (cleared b s)).1.doors b).airLockMask = 0
  rw [lockDoors]
  split
  · exact clear
  · dsimp only
    rw [blockadeZero]
    split
    · split
      · rfl
      · exact clear
    · exact clear

theorem setUnlockAir (arg2) (s : State n) : ((setUnlock cfg b arg2 s).doors b).airLockMask =
    if effective cfg b arg2 ≠ 0 ∧ (cfg b).airLockPartnerLocal = some b then (cfg b).maskFull else 0 := by
  have clear := clearedLock b s
  have air : ((cleared b s).doors b).airLockMask = 0 := congrArg LockState.airLockMask clear
  have free := unlockMaskFree cfg b arg2 (congrArg LockState.admDisableMask clear) air
  unfold setUnlock
  rw [updateSelf]
  change ((unlockDoor cfg b arg2 (cleared b s)).1.doors b).airLockMask = _
  rw [unlockDoors,free]
  by_cases none : effective cfg b arg2 = 0
  · rw [if_pos none,if_neg fun h => h.1 none]
    exact air
  · rw [if_neg none]
    dsimp only
    rw [blockadeFull,air]
    by_cases own : (cfg b).airLockPartnerLocal = some b
    · rw [if_pos own,if_pos ⟨none,own⟩]
    · rw [if_neg own,if_neg fun h => own h.2]

theorem unsetAir (i : Fin n) (s : State n) (j : Fin n) : ((unset i s).doors j).airLockMask = (s.doors j).airLockMask := by
  rw [unset,updateDoor]
  split <;> rfl

/- The acts of 'set' and 'unset' on the door; the words may also come to nothing. -/
theorem administers {datagram db} (of : Administers cfg b (.checkNetwork datagram db)) :
    datagramAct cfg datagram db = .still ∨ datagramAct cfg datagram db = .unset b ∨
    (∃ arg2, datagramAct cfg datagram db = .setLock b arg2) ∨ ∃ arg2, datagramAct cfg datagram db = .setUnlock b arg2 := by
  obtain ⟨cmds,named⟩ := of
  unfold datagramAct
  revert cmds named
  generalize words datagram = w
  obtain ⟨cmd,door,arg1,argX⟩ := w
  intro cmds named
  dsimp only at cmds named ⊢
  obtain ⟨door,rfl,found⟩ := Option.bind_eq_some_iff.mp named
  cases arg1 with
  | none => rcases cmds with rfl | rfl <;> exact .inl rfl
  | some arg1 =>
    rcases cmds with rfl | rfl
    · dsimp only
      rw [found]
      have notGet : wSet ≠ wGet := by decide
      have notUnset : wSet ≠ wUnset := by decide
      have notDo : wSet ≠ wDo := by decide
      simp only [commandAct,if_neg notGet,true_and,notUnset,notDo,false_and,if_false]
      split
      · split
        · exact .inr (.inr (.inr ⟨_,rfl⟩))
        · split
          · exact .inr (.inr (.inl ⟨_,rfl⟩))
          · exact .inl rfl
      · exact .inl rfl
    · dsimp only
      rw [found]
      have notGet : wUnset ≠ wGet := by decide
      have notSet : wUnset ≠ wSet := by decide
      simp only [commandAct,if_neg notGet,notSet,false_and,if_false,if_true]
      split
      · exact .inr (.inl rfl)
      · exact .inl rfl

/- Only the two set commands of the door itself touch its blockade. -/
theorem datagramAir {datagram db} (some' : datagram ≠ [])
    (of : Administers cfg b (.checkNetwork datagram db) ∨ Aside a b s (checkNetwork cfg datagram db s))
    (noLock : ∀ arg2, datagramAct cfg datagram db ≠ .setLock b arg2) (noUnlock : ∀ arg2, datagramAct cfg datagram db ≠ .setUnlock b arg2) :
    ((checkNetwork cfg datagram db s).doors b).airLockMask = (s.doors b).airLockMask := by
  obtain ⟨v,w,before,taken,after⟩ := checkNetworkActing cfg some' db s
  have calm : ∀ {u v : State n}, Still u v → (v.doors b).airLockMask = (u.doors b).airLockMask :=
    fun still => congrArg LockState.airLockMask (still.lock b)
  rcases of with ours | aside
  · rcases administers cfg ours with still | unset | ⟨arg2,set⟩ | ⟨arg2,set⟩
    · rw [still] at taken
      exact (calm after).trans ((calm taken).trans (calm before))
    · rw [unset] at taken
      obtain rfl : w = _ := taken
      exact (calm after).trans ((unsetAir b v b).trans (calm before))
    · exact absurd set (noLock arg2)
    · exact absurd set (noUnlock arg2)
  · exact aside.air

theorem datagramLeft {kept : Bool} {datagram db} (some' : datagram ≠ [])
    (of : Administers cfg b (.checkNetwork datagram db) ∨ Aside a b s (checkNetwork cfg datagram db s)) (left : Left cfg b kept s) :
    Left cfg b (outlives cfg b kept (datagramAct cfg datagram db)) (checkNetwork cfg datagram db s) := by
  have same := datagramAir cfg some' of
  obtain ⟨v,w,before,taken,after⟩ := checkNetworkActing cfg some' db s
  have calm := congrArg LockState.airLockMask (after.lock b)
  cases act : datagramAct cfg datagram db with
  | setLock i arg2 =>
    rw [act] at taken same
    by_cases own : i = b
    · subst own
      obtain rfl : w = _ := taken
      simp only [outlives,Left,if_true,Bool.false_eq_true,if_false]
      exact calm.trans (setLockAir cfg arg2 v)
    · simp only [outlives,if_neg own]
      exact leftSame cfg (same (by simp [own]) (by simp)) left
  | setUnlock i arg2 =>
    rw [act] at taken same
    by_cases own : i = b
    · subst own
      obtain rfl : w = _ := taken
      have air := calm.trans (setUnlockAir cfg arg2 v)
      simp only [outlives,Left,if_true,decide_eq_true_eq]
      split
      · rename_i whole
        rw [if_pos whole] at air
        exact coveredFull cfg air
      · rename_i none
        rw [if_neg none] at air
        exact air
    · simp only [outlives,if_neg own]
      exact leftSame cfg (same (by simp) (by simp [own])) left
  | _ =>
    rw [act] at same
    exact leftSame cfg (same (by simp) (by simp)) left

/- One step of the sequence: what is left of the blockade, read off its act. -/
theorem stepLeft {kept : Bool} {x : Step n} (of : Administers cfg b x ∨ Aside a b s (step cfg s x)) (left : Left cfg b kept s) :
    Left cfg b (stepOutlives cfg b kept x) (step cfg s x) := by
  cases x with
  | checkNetwork datagram db =>
    by_cases empty : datagram = []
    · subst empty
      exact left
    · exact datagramLeft cfg empty of left
  | _ =>
    rcases of with ours | aside
    · exact ours.elim
    · exact leftSame cfg aside.air left

theorem stepsLeft {xs : List (Step n)} {kept : Bool} (proceeds : Proceeds cfg a b s xs) (left : Left cfg b kept s) :
    Left cfg b (xs.foldl (stepOutlives cfg b) kept) (xs.foldl (step cfg) s) := by
  induction xs generalizing s kept with
  | nil => exact left
  | cons x xs ih => exact ih proceeds.2 (stepLeft cfg proceeds.1 left)

theorem unlockResult (mask) (s : State n) : (unlockDoor cfg b mask s).2 = unlockMask cfg b mask (s.doors b) := by
  unfold unlockDoor
  dsimp only
  split <;> rfl

theorem coveredRefuses (covered : Covered cfg b s) (mask) : (unlockDoor cfg b mask s).2 = 0 := by
  rw [unlockResult]
  refine maskZero.mpr fun k => Bool.eq_false_iff.mpr fun bit => ?_
  obtain ⟨_,_,_,full,free,_⟩ := (unlockMaskBit ..).mp bit
  rw [coveredBit cfg covered full] at free
  cases free

theorem effectiveNone : (∀ mask, effective cfg b mask = 0) ↔ outputs cfg b = 0 := by
  constructor
  · intro none
    have all : effective cfg b (-1) = outputs cfg b := by
      have full : (-1 : Mask) &&& (cfg b).maskFull = (cfg b).maskFull := BitVec.allOnes_and
      rw [effective,full,outputs]
    rw [← all,none]
  · intro none mask
    refine maskZero.mpr fun k => Bool.eq_false_iff.mpr fun bit => ?_
    have inside := ((effectiveBit ..).mp bit).1
    rw [none] at inside
    simp at inside

/- The 'unset' that lifts the hold touches no blockade. -/
theorem liftsState {x : Step n} (lifts : Lifts cfg b x) (s : State n) :
    ((step cfg s x).doors b).admDisableMask = 0 ∧ ((step cfg s x).doors b).airLockMask = (s.doors b).airLockMask := by
  cases x with
  | checkNetwork datagram db =>
    obtain ⟨nonempty,act⟩ := lifts
    obtain ⟨v,w,before,taken,after⟩ := checkNetworkActing cfg nonempty db s
    rw [act] at taken
    obtain rfl : w = unset b v := taken
    have adm : ((unset b v).doors b).admDisableMask = 0 := by rw [unset,updateSelf]
    have start : (v.doors b).airLockMask = (s.doors b).airLockMask := congrArg LockState.airLockMask (before.lock b)
    have last := after.lock b
    exact ⟨(congrArg LockState.admDisableMask last).trans adm,
      (congrArg LockState.airLockMask last).trans ((unsetAir b v b).trans start)⟩
  | _ => exact lifts.elim

/- The airlock holds before the commands; when the hold is lifted it is in force just where
the blockade has outlived every command, or the door has nothing to unlock. -/
theorem airlockInForce {steps : List (Step n)} {last : Step n} (blocked : Blocked cfg a b s)
    (proceeds : Proceeds cfg a b s steps) (lifts : Lifts cfg b last) :
    (∀ mask, (unlockDoor cfg b mask s).2 = 0) ∧
    ((∀ mask, (unlockDoor cfg b mask (step cfg (steps.foldl (step cfg) s) last)).2 = 0) ↔
      steps.foldl (stepOutlives cfg b) true = true ∨ outputs cfg b = 0) := by
  refine ⟨coveredRefuses cfg blocked.covered,?_⟩
  have left := stepsLeft cfg proceeds (show Left cfg b true s from blocked.covered)
  obtain ⟨adm,air⟩ := liftsState cfg lifts (steps.foldl (step cfg) s)
  have after := leftSame cfg air left
  generalize steps.foldl (stepOutlives cfg b) true = kept at after
  cases kept with
  | true => exact iff_of_true (coveredRefuses cfg after) (.inl rfl)
  | false =>
    have free : ∀ mask, (unlockDoor cfg b mask (step cfg (steps.foldl (step cfg) s) last)).2 = effective cfg b mask := by
      intro mask
      rw [unlockResult]
      exact unlockMaskFree cfg b mask adm after
    simp only [free,Bool.false_eq_true,false_or]
    exact effectiveNone cfg

def unsetLockB : Bytes := ascii ['u','n','s','e','t',' ','B',' ','l','o','c','k']
def setLockB : Bytes := ascii ['s','e','t',' ','B',' ','l','o','c','k',' ','1']

def unlockedA : State 3 := step lobby (start lobby []) (told doUnlockA)

theorem unlockedABlocks : Blocked lobby 0 1 unlockedA := ⟨rfl,by decide,by unfold Covered; decide⟩

/- A is unlocked and B blocked; a hold of B set and lifted meanwhile lets B be unlocked. -/
set_option maxRecDepth 10000 in
theorem holdFreesPartner : SystemRun lobby (fun _ _ => True) (start lobby []) unlockedA ∧ Blocked lobby 0 1 unlockedA ∧
    Proceeds lobby 0 1 unlockedA [told setLockB] ∧ Lifts lobby 1 (told unsetLockB) ∧
    ¬ ∀ mask, (unlockDoor lobby 1 mask (step lobby (step lobby unlockedA (told setLockB)) (told unsetLockB))).2 = 0 := by
  refine ⟨runOne trivial rfl,unlockedABlocks,⟨.inl ⟨by decide,by decide⟩,trivial⟩,⟨by decide,by decide⟩,fun none => ?_⟩
  exact absurd (none 1) (by decide)

/- With no hold set there is nothing to clear. -/
theorem unsetKeepsPartner : Blocked lobby 0 1 unlockedA ∧
    ∀ mask, (unlockDoor lobby 1 mask (step lobby (step lobby unlockedA (told unsetLockB)) (told unsetLockB))).2 = 0 := by
  have proceeds : Proceeds lobby 0 1 unlockedA [told unsetLockB] := ⟨.inl ⟨by decide,by decide⟩,trivial⟩
  have lifts : Lifts lobby 1 (told unsetLockB) := ⟨by decide,by decide⟩
  exact ⟨unlockedABlocks,(airlockInForce lobby unlockedABlocks proceeds lifts).2.mpr (.inl (by decide))⟩

end AccessControl.AirlockAdmin
