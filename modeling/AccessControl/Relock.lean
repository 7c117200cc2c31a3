import AccessControl.LockActs

/-! Fail-secure relocking. One countdown serves all outputs of a door, while the
administrator's commands rewrite the mask that `lock_door` skips. The condition
below says, act by act, when that leaves no output unlocked for good. -/
namespace AccessControl.Relock
open BitMask DoorTable Gpio DoorController RemoteControl Run LockSteps LockActs

variable {n : Nat} (cfg : Config n) {s t : State n} {d : Fin n}

/- The administrator's bit of output `k` of the board, for a door that drives it. -/
def adminBit (d : Fin n) (mask : Mask) (k : Nat) : Bool := mask.getLsbD (k - (cfg d).maskOffset.toNat)

def Running (d : Fin n) (s : State n) : Prop :=
  1 ≤ (s.doors d).doorLockTimer ∧ (s.doors d).doorLockTimer ≤ doorOpenTime

def FailSecure (d : Fin n) (s : State n) : Prop :=
  ∀ k, (outputs cfg d).getLsbD k = true → driven s.log k = some .doUnlock →
    adminBit cfg d (s.doors d).admDisableMask k = true ∨ Running d s

/- Every unlocked output of `d` is in the mask of the command. -/
def Within (d : Fin n) (mask : Mask) (s : State n) : Prop :=
  ∀ k, (outputs cfg d).getLsbD k = true → driven s.log k = some .doUnlock → adminBit cfg d mask k = true

/- The condition on an act: the countdown still runs, or the command covers what is
unlocked, or it starts the countdown itself. -/
def Relocks (d : Fin n) (s : State n) : Act n → Prop
  | .setUnlock i arg2 => i = d → 0 < (s.doors d).doorLockTimer ∨ Within cfg d arg2 s ∨
      (arg2 &&& (cfg d).maskFull) <<< (cfg d).maskOffset.toNat ≠ 0
  | .setLock i arg2 => i = d → 0 < (s.doors d).doorLockTimer ∨ Within cfg d arg2 s
  | .unset i => i = d → 0 < (s.doors d).doorLockTimer ∨ Within cfg d 0 s
  | _ => True

def RelockGuard (d : Fin n) (s : State n) : Step n → Prop
  | .checkNetwork datagram db => Relocks cfg d s (datagramAct cfg datagram db)
  | _ => True

def Timed (d : Fin n) (s : State n) : Prop :=
  0 ≤ (s.doors d).doorLockTimer ∧ (s.doors d).doorLockTimer ≤ doorOpenTime

/- The acts that leave door `d` and unlock none of its outputs. -/
structure Kept (d : Fin n) (s t : State n) : Prop where
  timer : (t.doors d).doorLockTimer = (s.doors d).doorLockTimer
  adm : (t.doors d).admDisableMask = (s.doors d).admDisableMask
  outputs : ∀ k, (outputs cfg d).getLsbD k = true → driven t.log k = some .doUnlock → driven s.log k = some .doUnlock

section
variable {cfg}

theorem running (timed : Timed d s) : Running d s ↔ 0 < (s.doors d).doorLockTimer := by
  obtain ⟨low,high⟩ := timed
  unfold Running
  constructor
  · exact fun h => by omega
  · exact fun h => ⟨by omega,high⟩

theorem Kept.timed (kept : Kept cfg d s t) (timed : Timed d s) : Timed d t := by
  unfold Timed
  rw [kept.timer]
  exact timed

theorem Kept.failSecure (kept : Kept cfg d s t) (safe : FailSecure cfg d s) : FailSecure cfg d t := by
  intro k inside unlocked
  unfold Running
  rw [kept.timer,kept.adm]
  exact safe k inside (kept.outputs k inside unlocked)

theorem keptStill (h : Still s t) : Kept cfg d s t where
  timer := congrArg LockState.doorLockTimer (h.lock d)
  adm := congrArg LockState.admDisableMask (h.lock d)
  outputs k _ unlocked := by rwa [← h.driven k]

end

theorem keptLock (i mask) (s : State n) : Kept cfg d s (lockDoor cfg i mask s).1 := by
  refine ⟨lockKeepsTimer cfg i mask s d,lockAdm cfg i mask s d,?_⟩
  intro k _ unlocked
  rw [lockDriven] at unlocked
  split at unlocked
  · contradiction
  · exact unlocked

theorem keptUnlock {i} (ne : i ≠ d) (apart : outputs cfg i &&& outputs cfg d = 0) (mask) (s : State n) :
    Kept cfg d s (unlockDoor cfg i mask s).1 := by
  have own : d ≠ i := fun e => ne e.symm
  refine ⟨by simp only [unlockTimer,if_neg own,ite_self],unlockAdm cfg i mask s d,?_⟩
  intro k inside unlocked
  rw [unlockDriven,unlockApart cfg apart inside] at unlocked
  exact unlocked

theorem keptTick {i} (ne : i ≠ d) (s : State n) : Kept cfg d s (lockTimer cfg i s) := by
  have counted : Kept cfg d s (ticked i s) := by
    have own : d ≠ i := fun e => ne e.symm
    exact ⟨by rw [ticked,updateOther _ _ own],by rw [ticked,updateOther _ _ own],fun _ _ h => h⟩
  rcases lockTimerCases cfg i s with ⟨_,same⟩ | ⟨_,_,same⟩ | ⟨_,_,same⟩ <;> rw [same]
  · exact keptStill (.refl s)
  · exact counted
  · have locked := keptLock cfg (d := d) i (cfg i).maskFull (ticked i s)
    exact ⟨locked.timer.trans counted.timer,locked.adm.trans counted.adm,
      fun k inside h => counted.outputs k inside (locked.outputs k inside h)⟩

theorem keptSense (i diff input) (s : State n) : Kept cfg d s (inputSense cfg i diff input s) :=
  ⟨by rw [senseDoors],by rw [senseDoors],fun k _ h => by rwa [drivenQuiet (senseLog cfg i diff input s)] at h⟩

theorem keptSet {i} (ne : i ≠ d) (apart : outputs cfg i &&& outputs cfg d = 0) (arg2) (s : State n) :
    Kept cfg d s (setUnlock cfg i arg2 s) ∧ Kept cfg d s (setLock cfg i arg2 s) := by
  have own : d ≠ i := fun e => ne e.symm
  have outside : ∀ k, (outputs cfg d).getLsbD k = true → (effective cfg i arg2).getLsbD k = false := by
    intro k inside
    apply Bool.eq_false_iff.mpr
    intro bit
    have foreign := disjointBit apart ((effectiveBit ..).mp bit).1
    simp [inside] at foreign
  constructor
  · refine ⟨by simp [setUnlockTimer,own],by simp [setUnlockAdm,own],?_⟩
    intro k inside unlocked
    rwa [setUnlockDriven,outside k inside] at unlocked
  · refine ⟨by simp [setLockTimer],by simp [setLockAdm,own],?_⟩
    intro k inside unlocked
    rwa [setLockDriven,outside k inside] at unlocked

/- The acts on the door itself. -/
theorem unlockRelocks (mask) {s : State n} (timed : Timed d s) (safe : FailSecure cfg d s) :
    Timed d (unlockDoor cfg d mask s).1 ∧ FailSecure cfg d (unlockDoor cfg d mask s).1 := by
  by_cases zero : unlockMask cfg d mask (s.doors d) = 0
  · have doors : (unlockDoor cfg d mask s).1.doors d = s.doors d := by rw [unlockDoors,if_pos zero]
    have kept : Kept cfg d s (unlockDoor cfg d mask s).1 := by
      refine ⟨by rw [doors],by rw [doors],?_⟩
      intro k _ unlocked
      simpa [unlockDriven,zero] using unlocked
    exact ⟨kept.timed timed,kept.failSecure safe⟩
  · have timer : ((unlockDoor cfg d mask s).1.doors d).doorLockTimer = doorOpenTime := by
      rw [unlockDoors,if_neg zero,if_pos rfl]
    have full : Timed d (unlockDoor cfg d mask s).1 := by
      unfold Timed
      rw [timer]
      decide
    refine ⟨full,fun k _ _ => .inr ((running full).mpr ?_)⟩
    rw [timer]
    decide

theorem tickRelocks {s : State n} (timed : Timed d s) (safe : FailSecure cfg d s) :
    Timed d (lockTimer cfg d s) ∧ FailSecure cfg d (lockTimer cfg d s) := by
  obtain ⟨low,high⟩ := timed
  have timer : ((ticked d s).doors d).doorLockTimer = (s.doors d).doorLockTimer - 1 := by simp [ticked]
  rcases lockTimerCases cfg d s with ⟨_,same⟩ | ⟨_,more,same⟩ | ⟨ne,last,same⟩ <;> rw [same]
  · exact ⟨⟨low,high⟩,safe⟩
  · have counted : Timed d (ticked d s) := ⟨by omega,by omega⟩
    exact ⟨counted,fun k _ _ => .inr ((running counted).mpr (by omega))⟩
  · have locked := keptLock cfg (d := d) d (cfg d).maskFull (ticked d s)
    have adm : ((ticked d s).doors d).admDisableMask = (s.doors d).admDisableMask := by simp [ticked]
    refine ⟨⟨by rw [locked.timer]; omega,by rw [locked.timer]; omega⟩,?_⟩
    intro k inside unlocked
    rw [lockDriven] at unlocked
    obtain ⟨from',below,full⟩ := (outputsBit ..).mp inside
    -- The countdown ran out: what stays unlocked was skipped, so it is held.
    split at unlocked
    · contradiction
    · rename_i skipped
      have bit := mt (lockMaskBit cfg d (cfg d).maskFull ((ticked d s).doors d) k).mpr skipped
      have held : adminBit cfg d ((ticked d s).doors d).admDisableMask k ≠ false := fun free => bit ⟨from',below,full,full,free⟩
      left
      rw [locked.adm]
      simpa using held

/- A command on the door that leaves the countdown as it was secures what it covers. -/
theorem coveredRelocks {mask : Mask} {s t : State n} (timed : Timed d s)
    (timer : (t.doors d).doorLockTimer = (s.doors d).doorLockTimer) (adm : (t.doors d).admDisableMask = mask)
    (outside : ∀ k, adminBit cfg d mask k = false → driven t.log k = driven s.log k)
    (within : ∀ k, driven t.log k = some .doUnlock → adminBit cfg d mask k = true ∨ driven s.log k = some .doUnlock) :
    Timed d t ∧ (FailSecure cfg d t ↔ 0 < (s.doors d).doorLockTimer ∨ Within cfg d mask s) := by
  have after : Timed d t := by
    unfold Timed
    rw [timer]
    exact timed
  refine ⟨after,?_⟩
  unfold FailSecure Within
  simp only [running after,timer,adm]
  constructor
  · intro safe
    by_cases still : 0 < (s.doors d).doorLockTimer
    · exact .inl still
    · refine .inr (fun k inside unlocked => ?_)
      cases covered : adminBit cfg d mask k with
      | true => rfl
      | false =>
        rw [← outside k covered] at unlocked
        have held := (safe k inside unlocked).resolve_right still
        rw [covered] at held
        exact held
  · intro condition k inside unlocked
    rcases condition with still | covers
    · exact .inr still
    · exact .inl ((within k unlocked).elim id (covers k inside))

theorem setUnlockRelocks (arg2) {s : State n} (timed : Timed d s) :
    Timed d (setUnlock cfg d arg2 s) ∧
    (FailSecure cfg d (setUnlock cfg d arg2 s) ↔ Relocks cfg d s (.setUnlock d arg2)) := by
  have adm : ((setUnlock cfg d arg2 s).doors d).admDisableMask = arg2 := by rw [setUnlockAdm,if_pos rfl]
  by_cases zero : effective cfg d arg2 = 0
  · have timer : ((setUnlock cfg d arg2 s).doors d).doorLockTimer = (s.doors d).doorLockTimer := by
      rw [setUnlockTimer,if_pos zero]
    have same : ∀ k, driven (setUnlock cfg d arg2 s).log k = driven s.log k := by
      intro k
      simp [setUnlockDriven,zero]
    obtain ⟨after,covered⟩ := coveredRelocks cfg timed timer adm (fun k _ => same k) (fun k h => .inr (same k ▸ h))
    refine ⟨after,covered.trans ?_⟩
    have nothing : (arg2 &&& (cfg d).maskFull) <<< (cfg d).maskOffset.toNat = 0 := zero
    simp only [Relocks,nothing,ne_eq,not_true_eq_false,or_false,forall_const]
  · have timer : ((setUnlock cfg d arg2 s).doors d).doorLockTimer = doorOpenTime := by
      rw [setUnlockTimer,if_neg zero,if_pos rfl]
    have after : Timed d (setUnlock cfg d arg2 s) := by
      unfold Timed
      rw [timer]
      decide
    refine ⟨after,fun _ _ => .inr (.inr zero),fun _ k _ _ => .inr ((running after).mpr ?_)⟩
    rw [timer]
    decide

theorem setLockRelocks (arg2) {s : State n} (timed : Timed d s) :
    Timed d (setLock cfg d arg2 s) ∧ (FailSecure cfg d (setLock cfg d arg2 s) ↔ Relocks cfg d s (.setLock d arg2)) := by
  have adm : ((setLock cfg d arg2 s).doors d).admDisableMask = arg2 := by rw [setLockAdm,if_pos rfl]
  have outside : ∀ k, adminBit cfg d arg2 k = false → driven (setLock cfg d arg2 s).log k = driven s.log k := by
    intro k free
    rw [setLockDriven]
    split
    · rename_i bit
      have named : adminBit cfg d arg2 k = true := ((effectiveBit ..).mp bit).2
      rw [free] at named
      contradiction
    · rfl
  have within : ∀ k, driven (setLock cfg d arg2 s).log k = some .doUnlock →
      adminBit cfg d arg2 k = true ∨ driven s.log k = some .doUnlock := by
    intro k unlocked
    rw [setLockDriven] at unlocked
    split at unlocked
    · contradiction
    · exact .inr unlocked
  have covered := coveredRelocks cfg timed (setLockTimer cfg d arg2 s d) adm outside within
  simpa only [Relocks,forall_const] using covered

theorem unsetRelocks {s : State n} (timed : Timed d s) :
    Timed d (unset d s) ∧ (FailSecure cfg d (unset d s) ↔ Relocks cfg d s (.unset d)) := by
  have adm : ((unset d s).doors d).admDisableMask = 0 := by simp [unset]
  have covered := coveredRelocks cfg (t := unset d s) timed (by simp [unset]) adm
    (fun _ _ => rfl) (fun _ h => .inr h)
  simpa only [Relocks,forall_const] using covered

/- A write to a record that leaves this door's countdown and disable mask. -/
theorem keptUpdate {i : Fin n} {f : Door → Door} (s : State n) (same : i = d → ∀ door, (f door).doorLockTimer = door.doorLockTimer ∧
    (f door).admDisableMask = door.admDisableMask) : Kept cfg d s (s.update i f) := by
  refine ⟨?_,?_,fun _ _ h => h⟩
  all_goals
    rw [updateDoor]
    split
  · rename_i own
    exact (same own.symm _).1
  · rfl
  · rename_i own
    exact (same own.symm _).2
  · rfl

/- One act: the door stays fail-secure exactly when the condition holds of the act. -/
theorem actRelocks (apart : ∀ i, i ≠ d → outputs cfg i &&& outputs cfg d = 0) (a : Act n) (taken : Takes cfg a s t)
    (timed : Timed d s) (safe : FailSecure cfg d s) : Timed d t ∧ (FailSecure cfg d t ↔ Relocks cfg d s a) := by
  have kept : Kept cfg d s t → Relocks cfg d s a → Timed d t ∧ (FailSecure cfg d t ↔ Relocks cfg d s a) :=
    fun kept holds => ⟨kept.timed timed,fun _ => holds,fun _ => kept.failSecure safe⟩
  cases a with
  | still => exact kept (keptStill taken) trivial
  | tick i =>
    cases taken
    by_cases own : i = d
    · subst own
      obtain ⟨after,secure⟩ := tickRelocks cfg timed safe
      exact ⟨after,fun _ => trivial,fun _ => secure⟩
    · exact kept (keptTick cfg own s) trivial
  | unlock i mask =>
    cases taken
    by_cases own : i = d
    · subst own
      obtain ⟨after,secure⟩ := unlockRelocks cfg mask timed safe
      exact ⟨after,fun _ => trivial,fun _ => secure⟩
    · exact kept (keptUnlock cfg own (apart i own) mask s) trivial
  | lock i mask => cases taken; exact kept (keptLock cfg i mask s) trivial
  | sense i input => cases taken; exact kept (keptSense cfg i _ input s) trivial
  | setUnlock i arg2 =>
    cases taken
    by_cases own : i = d
    · subst own
      exact setUnlockRelocks cfg arg2 timed
    · exact kept (keptSet cfg own (apart i own) arg2 s).1 (fun e => absurd e own)
  | setLock i arg2 =>
    cases taken
    by_cases own : i = d
    · subst own
      exact setLockRelocks cfg arg2 timed
    · exact kept (keptSet cfg own (apart i own) arg2 s).2 (fun e => absurd e own)
  | unset i =>
    cases taken
    by_cases own : i = d
    · subst own
      exact unsetRelocks cfg timed
    · unfold unset
      exact kept (keptUpdate cfg s fun e => absurd e own) (fun e => absurd e own)
  | block i arg2 =>
    cases taken
    unfold block
    exact kept (keptUpdate cfg s fun _ _ => ⟨rfl,rfl⟩) trivial
  | unblock i arg2 =>
    cases taken
    unfold unblock
    exact kept (keptUpdate cfg s fun _ _ => ⟨rfl,rfl⟩) trivial

theorem stillSecure (h : Still s t) : FailSecure cfg d t ↔ FailSecure cfg d s := by
  have lock := h.lock d
  simp only [FailSecure,Running,h.driven,lock]

theorem stillCondition (h : Still s t) (a : Act n) : Relocks cfg d t a ↔ Relocks cfg d s a := by
  have lock := h.lock d
  cases a <;> simp only [Relocks,Within,h.driven,lock]

theorem stillTimed (h : Still s t) (timed : Timed d s) : Timed d t := by
  have lock := h.lock d
  simpa only [Timed,lock] using timed

/- The calls of `unlock_door` on `d` that drove an output. -/
def opens (d : Fin n) : Effect n → Bool
  | .unlockDoor i _ result _ => decide (i = d) && decide (result ≠ 0)
  | _ => false
def openings (d : Fin n) (log : List (Effect n)) : Nat := log.countP (opens d)

theorem openingsCons {e : Effect n} (quiet : opens d e = false) (log) : openings d (e :: log) = openings d log := by
  simp [openings,quiet]

theorem quietOpenings {a b : List (Effect n)} (h : Grows Quiet a b) : openings d b = openings d a := by
  refine growsKeeps (fun e log quiet => openingsCons ?_ log) h
  cases e <;> first | exact quiet.elim | rfl

theorem lockOpenings (i mask) (s : State n) : openings d (lockDoor cfg i mask s).1.log = openings d s.log := by
  have log := lockLog cfg i mask s
  by_cases zero : lockMask cfg i mask (s.doors i) = 0
  · simp only [zero,if_true] at log
    rw [log]
  · simp only [zero,if_false] at log
    rw [quietOpenings log,openingsCons rfl]

theorem unlockOpenings (i mask) (s : State n) : openings d (unlockDoor cfg i mask s).1.log =
    openings d s.log + if i = d ∧ unlockMask cfg i mask (s.doors i) ≠ 0 then 1 else 0 := by
  have log := unlockLog cfg i mask s
  by_cases zero : unlockMask cfg i mask (s.doors i) = 0
  · simp only [zero,if_true] at log
    rw [log,openingsCons (by simp [opens])]
    simp [zero]
  · simp only [zero,if_false] at log
    obtain ⟨middle,before,after⟩ := log
    rw [quietOpenings after,openingsCons rfl,quietOpenings before,openings,List.countP_cons]
    simp only [opens,Bool.and_eq_true,decide_eq_true_eq]
    rfl

/- Unless the door was opened since, its countdown is at most `left`. -/
def Closing (d : Fin n) (since : Nat) (left : Int) (s : State n) : Prop :=
  since < openings d s.log ∨ since = openings d s.log ∧ (s.doors d).doorLockTimer ≤ left

theorem actClosing {a : Act n} (of : OfPass a) (taken : Takes cfg a s t) {since : Nat} {left : Int}
    (h : Closing d since left s) : Closing d since left t := by
  have keep : openings d t.log = openings d s.log → (t.doors d).doorLockTimer ≤ (s.doors d).doorLockTimer →
      Closing d since left t := by
    intro same less
    unfold Closing at h ⊢
    rw [same]
    exact h.imp_right (fun h => ⟨h.1,less.trans h.2⟩)
  cases a with
  | still => exact keep (quietOpenings taken.log) (le_of_eq (congrArg LockState.doorLockTimer (taken.lock d)))
  | tick i =>
    cases taken
    have less : ((ticked i s).doors d).doorLockTimer ≤ (s.doors d).doorLockTimer := by
      rw [ticked,updateDoor]
      split
      · dsimp only
        omega
      · exact le_refl _
    rcases lockTimerCases cfg i s with ⟨_,same⟩ | ⟨_,_,same⟩ | ⟨_,_,same⟩
    · rwa [same]
    · rw [same] at keep ⊢
      exact keep rfl less
    · rw [same] at keep ⊢
      refine keep (lockOpenings ..) ?_
      rw [lockKeepsTimer]
      exact less
  | unlock i mask =>
    cases taken
    by_cases opened : i = d ∧ unlockMask cfg i mask (s.doors i) ≠ 0
    · left
      rw [unlockOpenings,if_pos opened]
      rcases h with h | ⟨h,_⟩ <;> omega
    · refine keep (by rw [unlockOpenings,if_neg opened,Nat.add_zero]) ?_
      rw [unlockTimer]
      split
      · exact le_refl _
      · rename_i drove
        rw [if_neg (fun own => opened ⟨own.symm,drove⟩)]
  | sense i input =>
    cases taken
    refine keep (quietOpenings (senseLog ..)) ?_
    rw [senseDoors]
  | _ => exact of.elim

theorem tickClosing {since : Nat} {left : Int} (h : Closing d since left s) :
    Closing d since (max (left - 1) 0) (lockTimer cfg d s) := by
  have timer : ((ticked d s).doors d).doorLockTimer = (s.doors d).doorLockTimer - 1 := by simp [ticked]
  unfold Closing at h ⊢
  rcases lockTimerCases cfg d s with ⟨zero,same⟩ | ⟨_,_,same⟩ | ⟨_,_,same⟩ <;> rw [same]
  · exact h.imp_right (fun h => ⟨h.1,by omega⟩)
  · exact h.imp_right (fun h => ⟨h.1,by omega⟩)
  · rw [lockOpenings,lockKeepsTimer]
    exact h.imp_right (fun h => ⟨h.1,by omega⟩)

/- A pass counts the door down once; over `k` passes, `k` times. -/
theorem passClosing (pass : Pass n) {since : Nat} {left : Int} (h : Closing d since left s) :
    Closing d since (max (left - 1) 0) (mainLoop cfg pass s) := by
  have turns : Closing d since (max (left - 1) 0) (doorTurns cfg pass s) := by
    refine doorTurnsOnce cfg d (Closing d since left) (Closing d since (max (left - 1) 0)) (fun _ => tickClosing cfg) ?_ pass h
    intro a u v of taken
    have allowed : OfPass a := by
      obtain rfl | ⟨i,_,rfl⟩ | ⟨i,mask,rfl⟩ := of <;> trivial
    exact ⟨actClosing cfg allowed taken,actClosing cfg allowed taken⟩
  have inputs := checkInputsPath cfg pass.reading pass.inputVal (doorTurns cfg pass s)
  exact runInvariant (Closing d since (max (left - 1) 0)) (fun u a v of h taken => actClosing cfg of taken h) inputs turns

theorem passesClosing (passes : List (Pass n)) {s : State n} {since : Nat} {left : Int} (low : 0 ≤ left)
    (h : Closing d since left s) :
    Closing d since (max (left - passes.length) 0) (passes.foldl (fun s pass => mainLoop cfg pass s) s) := by
  induction passes generalizing s left with
  | nil => simpa [low] using h
  | cons pass passes ih =>
    have rest := ih (by omega) (passClosing cfg pass h)
    have bound : max (max (left - 1) 0 - (passes.length : Int)) 0 = max (left - ((pass :: passes).length : Int)) 0 := by
      simp only [List.length_cons]
      omega
    rwa [bound] at rest

theorem restoreTimed (row) (s : State n) (h : ∀ i, Running i s) : ∀ i, Running i (restoreRow cfg s row) := by
  have written : ∀ {t : State n} {i : Fin n} {mask : Mask}, (∀ j, Running j t) →
      ∀ j, Running j (t.update i (fun d => {d with admDisableMask := mask})) := by
    intro t i mask running j
    unfold Running
    rw [updateDoor]
    split <;> exact running j
  have unlocked : ∀ i mask, ∀ j, Running j (unlockDoor cfg i mask s).1 := by
    intro i mask j
    unfold Running
    rw [unlockTimer]
    split
    · exact h j
    · split
      · decide
      · exact h j
  have locked : ∀ i mask, ∀ j, Running j (lockDoor cfg i mask s).1 := by
    intro i mask j
    unfold Running
    rw [lockKeepsTimer]
    exact h j
  unfold restoreRow
  cases getDoorByName cfg row.door with
  | none => exact h
  | some i =>
    intro j
    unfold Running
    dsimp only
    rw [signalStatusDoors]
    split
    · exact written (unlocked i row.arg) j
    · split
      · exact written (locked i row.arg) j
      · exact h j

/- Every door starts with its countdown running, so that the first passes lock it. -/
theorem startRunning (rows) (i : Fin n) : Running i (start cfg rows) := by
  have fresh : ∀ i, Running i (initial (n := n) rows) := fun i => ⟨le_refl 1,show (1 : Int) ≤ 13 by decide⟩
  exact foldlInvariant (fun s => ∀ i, Running i s) (fun s row _ h => restoreTimed cfg row s h) fresh i

theorem runSecure (apart : ∀ i, i ≠ d → outputs cfg i &&& outputs cfg d = 0) {rows}
    (run : SystemRun cfg (RelockGuard cfg d) (start cfg rows) t) : Timed d t ∧ FailSecure cfg d t := by
  have started := startRunning cfg rows d
  refine systemInvariant cfg (fun t => Timed d t ∧ FailSecure cfg d t) ?_ ?_ ?_ run ⟨?_,fun _ _ _ => .inr started⟩
  · exact fun u v still ⟨timed,safe⟩ => ⟨stillTimed still timed,(stillSecure cfg still).mpr safe⟩
  · intro a of u v taken ⟨timed,safe⟩
    obtain ⟨after,secure⟩ := actRelocks cfg apart a taken timed safe
    exact ⟨after,secure.mpr (by cases a <;> trivial)⟩
  · intro datagram db u v w condition still taken ⟨timed,safe⟩
    obtain ⟨after,secure⟩ := actRelocks cfg apart _ taken timed safe
    exact ⟨after,secure.mpr ((stillCondition cfg still _).mpr condition)⟩
  · exact ⟨le_trans (by decide) started.1,started.2⟩

/- A run whose administrator commands meet the condition is fail-secure throughout, the
next datagram keeps it so exactly when it meets the condition too, and with no new
opening DOOR_OPEN_TIME passes lock every output that is not held. -/
theorem failSecureRuns (rows : List StateRow) (apart : ∀ i, i ≠ d → outputs cfg i &&& outputs cfg d = 0)
    (run : SystemRun cfg (RelockGuard cfg d) (start cfg rows) t) :
    FailSecure cfg d t ∧
    (∀ datagram db, FailSecure cfg d (checkNetwork cfg datagram db t) ↔
      Relocks cfg d t (datagramAct cfg datagram db)) ∧
    ∀ passes : List (Pass n), doorOpenTime ≤ passes.length →
      let later := passes.foldl (fun s pass => mainLoop cfg pass s) t
      openings d later.log = openings d t.log →
      ∀ k, (outputs cfg d).getLsbD k = true → driven later.log k = some .doUnlock →
        adminBit cfg d (later.doors d).admDisableMask k = true := by
  obtain ⟨timed,safe⟩ := runSecure cfg apart run
  refine ⟨safe,?_,?_⟩
  · intro datagram db
    by_cases empty : datagram = []
    · subst empty
      exact ⟨fun _ => trivial,fun _ => safe⟩
    · obtain ⟨v,w,before,taken,after⟩ := checkNetworkActing cfg empty db t
      have act := (actRelocks cfg apart _ taken (stillTimed before timed) ((stillSecure cfg before).mpr safe)).2
      exact (stillSecure cfg after).trans (act.trans (stillCondition cfg before _))
  · intro passes long later quiet k inside unlocked
    have lasting : SystemRun cfg (RelockGuard cfg d) t later :=
      foldlRuns (fun s pass _ => runOne (a := .mainLoop pass) trivial rfl) t
    have secure := runSecure cfg apart (runTrans run lasting)
    refine (secure.2 k inside unlocked).resolve_right (fun open' => ?_)
    have none : max (doorOpenTime - (passes.length : Int)) 0 = 0 := by omega
    have closing := passesClosing cfg passes (by decide) (.inr ⟨rfl,timed.2⟩)
    rw [none] at closing
    obtain more | ⟨_,done⟩ := closing
    · exact absurd more (by rw [quiet]; exact lt_irrefl _)
    · exact absurd (le_trans open'.1 done) (by decide)

/- One pass, then the administrator opens door A: the countdown runs. -/
def opening : State 2 := checkNetwork (site 1 modeCard (fun _ => none)) setUnlockA ⟨true,true⟩
  (mainLoop (site 1 modeCard (fun _ => none)) (quietPass 0x0c) (start (site 1 modeCard (fun _ => none)) []))

set_option maxRecDepth 10000 in
theorem openingSecure : FailSecure (site 1 modeCard (fun _ => none)) 0 opening ∧ driven opening.log 0 = some .doUnlock := by
  have act : datagramAct (site 1 modeCard (fun _ => none)) setUnlockA ⟨true,true⟩ = .setUnlock 0 1 := by decide
  refine ⟨(failSecureRuns (site 1 modeCard (fun _ => none)) [] ?_ (runTrans (runOne (a := .mainLoop (quietPass 0x0c)) trivial rfl)
    (runOne (a := .checkNetwork setUnlockA ⟨true,true⟩) ?_ rfl))).1,?_⟩
  · decide
  · unfold RelockGuard
    dsimp only
    rw [act]
    exact fun _ => .inr (.inr (by decide))
  · decide

/- Door A is opened by the administrator, its countdown ends while it is held, and the
hold is then taken away. -/
def lapse : List (Step 2) :=
  [.mainLoop (quietPass 0x0c),.checkNetwork setUnlockA ⟨true,true⟩] ++
    List.replicate 13 (.mainLoop (quietPass 0x0c)) ++ [.checkNetwork unsetUnlockA ⟨true,true⟩]

def lapsed : State 2 := lapse.foldl (step (site 1 modeCard (fun _ => none))) (start (site 1 modeCard (fun _ => none)) [])

theorem lapsedReached :
    SystemRun (site 1 modeCard (fun _ => none)) (fun _ _ => True) (start (site 1 modeCard (fun _ => none)) []) lapsed :=
  foldlRuns (fun _ _ _ => runOne trivial rfl) _

set_option maxRecDepth 10000 in
/- Output 0 is left unlocked with no hold and no countdown. -/
theorem lapsedUnlocked :
    SystemRun (site 1 modeCard (fun _ => none)) (fun _ _ => True) (start (site 1 modeCard (fun _ => none)) []) lapsed ∧
    outputs (site 1 modeCard (fun _ => none)) 1 &&& outputs (site 1 modeCard (fun _ => none)) 0 = 0 ∧
    driven lapsed.log 0 = some .doUnlock ∧ (lapsed.doors 0).admDisableMask = 0 ∧ (lapsed.doors 0).doorLockTimer = 0 ∧
    ¬ FailSecure (site 1 modeCard (fun _ => none)) 0 lapsed := by
  have unlocked : driven lapsed.log 0 = some .doUnlock := by decide
  have timer : (lapsed.doors 0).doorLockTimer = 0 := by decide
  have adm : (lapsed.doors 0).admDisableMask = 0 := by decide
  refine ⟨lapsedReached,by decide,unlocked,adm,timer,?_⟩
  intro safe
  rcases safe 0 (by decide) unlocked with held | ⟨running,_⟩
  · rw [adm] at held
    exact absurd held (by decide)
  · rw [timer] at running
    exact absurd running (by decide)

end AccessControl.Relock
