import AccessControl.LockActs

/-! The administrator's hold: an output in `admDisableMask` is left alone by every
act except the set and unset commands of its own door. -/
namespace AccessControl.AdminHold
open BitMask DoorTable Gpio DoorController RemoteControl Run LockSteps LockActs

variable {n : Nat} (cfg : Config n) {s t : State n} {d : Fin n} {k : Nat}

/- A datagram whose command is 'set' or 'unset' and whose door word finds `d`. -/
def SetsHold (d : Fin n) (datagram : Bytes) : Prop :=
  ((words datagram).cmd = some wSet ∨ (words datagram).cmd = some wUnset) ∧
  (words datagram).door.bind (getDoorByName cfg) = some d
instance (d : Fin n) (datagram) : Decidable (SetsHold cfg d datagram) := by
  unfold SetsHold; infer_instance

def LeavesHold (d : Fin n) (_ : State n) : Step n → Prop
  | .checkNetwork datagram _ => ¬ SetsHold cfg d datagram
  | _ => True

def held (d : Fin n) (s : State n) : Mask := effective cfg d (s.doors d).admDisableMask

/- Effects that do not drive output `k`. -/
def Spares (k : Nat) : Effect n → Prop
  | .setDoorState _ mask => mask.getLsbD k = false
  | _ => True

theorem quietSpares (e : Effect n) (quiet : Quiet e) : Spares k e := by
  cases e <;> first | exact quiet.elim | trivial

theorem sparesDriven {a b : List (Effect n)} (h : Grows (Spares k) a b) : driven b k = driven a k := by
  refine growsKeeps (f := fun log => driven log k) (fun e log spares => ?_) h
  cases e with
  | setDoorState operation mask =>
    have off : ¬ mask.getLsbD k = true := Bool.eq_false_iff.mp spares
    exact if_neg off
  | _ => rfl

theorem unlockSpares {i mask} (off : (unlockMask cfg i mask (s.doors i)).getLsbD k = false) :
    Grows (Spares k) s.log (unlockDoor cfg i mask s).1.log := by
  have called := growsCons (P := Spares k) (e := .unlockDoor i mask (unlockMask cfg i mask (s.doors i)) s.doors) trivial s.log
  have log := unlockLog cfg i mask s
  by_cases zero : unlockMask cfg i mask (s.doors i) = 0
  · simp only [zero,if_true] at log called
    rw [log]
    exact called
  · simp only [zero,if_false] at log
    obtain ⟨middle,before,after⟩ := log
    have driving := growsCons (P := Spares k) (e := .setDoorState .doUnlock _) off middle
    exact growsTrans called (growsTrans (growsMono quietSpares before) (growsTrans driving (growsMono quietSpares after)))

theorem lockSpares {i mask} (off : (lockMask cfg i mask (s.doors i)).getLsbD k = false) :
    Grows (Spares k) s.log (lockDoor cfg i mask s).1.log := by
  have log := lockLog cfg i mask s
  by_cases zero : lockMask cfg i mask (s.doors i) = 0
  · simp only [zero,if_true] at log
    rw [log]
    exact growsRefl _
  · simp only [zero,if_false] at log
    have driving := growsCons (P := Spares k) (e := .setDoorState .doLock _) off s.log
    exact growsTrans driving (growsMono quietSpares log)

/- No operation but the two commands writes the administrator's mask. -/
theorem tickedAdm (i : Fin n) (s : State n) (j : Fin n) :
    ((ticked i s).doors j).admDisableMask = (s.doors j).admDisableMask := by
  rw [ticked,updateDoor]
  split <;> rfl

/- A held output is outside every mask that any door may drive. -/
structure Sheltered (d : Fin n) (k : Nat) (s : State n) : Prop where
  own : (held cfg d s).getLsbD k = true
  others : ∀ i, i ≠ d → outputs cfg i &&& outputs cfg d = 0

section
variable {cfg}

theorem heldBit (h : (held cfg d s).getLsbD k = true) :
    (s.doors d).admDisableMask.getLsbD (k - (cfg d).maskOffset.toNat) = true ∧ (outputs cfg d).getLsbD k = true :=
  ((effectiveBit ..).mp h).symm

theorem Sheltered.unlockOther (h : Sheltered cfg d k s) {i} (ne : i ≠ d) (mask door) :
    (unlockMask cfg i mask door).getLsbD k = false := unlockApart cfg (h.others i ne) (heldBit h.own).2 mask door
theorem Sheltered.lockOther (h : Sheltered cfg d k s) {i} (ne : i ≠ d) (mask door) :
    (lockMask cfg i mask door).getLsbD k = false := lockApart cfg (h.others i ne) (heldBit h.own).2 mask door

theorem Sheltered.unlock (h : Sheltered cfg d k s) (i mask) :
    (unlockMask cfg i mask (s.doors i)).getLsbD k = false := by
  by_cases own : i = d
  · subst own
    apply Bool.eq_false_iff.mpr
    intro bit
    obtain ⟨_,_,_,_,_,free⟩ := (unlockMaskBit ..).mp bit
    simp [(heldBit h.own).1] at free
  · exact h.unlockOther own mask _

theorem Sheltered.lock (h : Sheltered cfg d k s) (i mask) :
    (lockMask cfg i mask (s.doors i)).getLsbD k = false := by
  by_cases own : i = d
  · subst own
    apply Bool.eq_false_iff.mpr
    intro bit
    obtain ⟨_,_,_,_,free⟩ := (lockMaskBit ..).mp bit
    simp [(heldBit h.own).1] at free
  · exact h.lockOther own mask _

/- What an act keeps: the hold itself, and the outputs under it. -/
structure Frozen (d : Fin n) (k : Nat) (s t : State n) : Prop where
  adm : (t.doors d).admDisableMask = (s.doors d).admDisableMask
  log : Grows (Spares k) s.log t.log

theorem Frozen.refl (s : State n) : Frozen d k s s := ⟨rfl,growsRefl _⟩
theorem Frozen.trans {u : State n} (first : Frozen d k s t) (second : Frozen d k t u) : Frozen d k s u :=
  ⟨second.adm.trans first.adm,growsTrans first.log second.log⟩

theorem Frozen.sheltered (frozen : Frozen d k s t) (h : Sheltered cfg d k s) : Sheltered cfg d k t := by
  refine ⟨?_,h.others⟩
  have own := h.own
  unfold held at own ⊢
  rw [frozen.adm]
  exact own

theorem stillFrozen (h : Still s t) : Frozen d k s t :=
  ⟨congrArg LockState.admDisableMask (h.lock d),growsMono quietSpares h.log⟩

end

/- The acts that rewrite the administrator's mask of `d`. -/
def OnHold (d : Fin n) : Act n → Prop
  | .setUnlock i _ | .setLock i _ | .unset i => i = d
  | _ => False

theorem tickFrozen (h : Sheltered cfg d k s) (i) : Frozen d k s (lockTimer cfg i s) := by
  have counted : Frozen d k s (ticked i s) := ⟨tickedAdm i s d,by simp [ticked]⟩
  rcases lockTimerCases cfg i s with ⟨_,same⟩ | ⟨_,_,same⟩ | ⟨_,_,same⟩ <;> rw [same]
  · exact .refl s
  · exact counted
  · exact counted.trans ⟨lockAdm cfg i _ _ d,lockSpares cfg ((counted.sheltered h).lock i _)⟩

theorem senseFrozen (i diff input) (s : State n) : Frozen d k s (inputSense cfg i diff input s) :=
  ⟨by rw [senseDoors],growsMono quietSpares (senseLog cfg i diff input s)⟩

theorem updateFrozen {i : Fin n} {f : Door → Door} (same : i = d → ∀ door, (f door).admDisableMask = door.admDisableMask)
    (s : State n) : Frozen d k s (s.update i f) := by
  refine ⟨?_,by simp⟩
  rw [updateDoor]
  split
  · rename_i own
    exact same own.symm _
  · rfl

theorem setFrozen (h : Sheltered cfg d k s) {i} (ne : i ≠ d) (arg2) :
    Frozen d k s (setUnlock cfg i arg2 s) ∧ Frozen d k s (setLock cfg i arg2 s) := by
  have write : ∀ (f : Door → Door) (s : State n), Frozen d k s (s.update i f) :=
    fun f s => updateFrozen (fun own => absurd own ne) s
  constructor
  · unfold setUnlock
    exact (write _ s).trans (Frozen.trans ⟨unlockAdm cfg i _ _ d,unlockSpares cfg (h.unlockOther ne _ _)⟩ (write _ _))
  · unfold setLock
    exact (write _ s).trans (Frozen.trans ⟨lockAdm cfg i _ _ d,lockSpares cfg (h.lockOther ne _ _)⟩ (write _ _))

theorem actFrozen (a : Act n) (other : ¬ OnHold d a) (taken : Takes cfg a s t) (h : Sheltered cfg d k s) :
    Frozen d k s t := by
  cases a with
  | still => exact stillFrozen taken
  | tick i => cases taken; exact tickFrozen cfg h i
  | unlock i mask => cases taken; exact ⟨unlockAdm cfg i mask s d,unlockSpares cfg (h.unlock i mask)⟩
  | lock i mask => cases taken; exact ⟨lockAdm cfg i mask s d,lockSpares cfg (h.lock i mask)⟩
  | sense i input => cases taken; exact senseFrozen cfg i _ input s
  | setUnlock i arg2 => cases taken; exact (setFrozen cfg h other arg2).1
  | setLock i arg2 => cases taken; exact (setFrozen cfg h other arg2).2
  | unset i => cases taken; exact updateFrozen (fun own => absurd own other) s
  | block i arg2 =>
    cases taken
    unfold block
    refine updateFrozen ?_ s
    intro _ _
    rfl
  | unblock i arg2 =>
    cases taken
    unfold unblock
    refine updateFrozen ?_ s
    intro _ _
    rfl

theorem commandOnHold {db i cmd arg1 argX} (on : OnHold d (commandAct db i cmd arg1 argX)) :
    (cmd = wSet ∨ cmd = wUnset) ∧ i = d := by
  unfold commandAct at on
  dsimp only at on
  split at on
  · exact on.elim
  · split at on
    · rename_i set
      split at on
      · exact ⟨.inl set.1,on⟩
      · split at on
        · exact ⟨.inl set.1,on⟩
        · exact on.elim
    · split at on
      · rename_i unset
        split at on
        · exact ⟨.inr unset,on⟩
        · exact on.elim
      · repeat' split at on
        all_goals exact on.elim

/- Only a datagram that names `d` with 'set' or 'unset' is an act on its hold. -/
theorem leavesAct {datagram} (leaves : ¬ SetsHold cfg d datagram) (db) : ¬ OnHold d (datagramAct cfg datagram db) := by
  unfold SetsHold at leaves
  unfold datagramAct
  generalize words datagram = w at leaves ⊢
  obtain ⟨cmd,door,arg1,argX⟩ := w
  cases cmd <;> cases door <;> cases arg1 <;> try exact id
  rename_i cmd door arg1
  dsimp only [Option.bind_some] at leaves ⊢
  cases found : getDoorByName cfg door with
  | none => exact id
  | some i =>
    intro on
    obtain ⟨setting,own⟩ := commandOnHold on
    exact leaves ⟨setting.imp (congrArg some) (congrArg some),by rw [found,own]⟩

/- No run without a set or unset of `d` drives an output under its hold, so the board
shows on it what it showed before. -/
theorem heldOutputsFrozen (apart : ∀ i, i ≠ d → outputs cfg i &&& outputs cfg d = 0)
    (run : SystemRun cfg (LeavesHold cfg d) s t) (under : (held cfg d s).getLsbD k = true) :
    Grows (Spares k) s.log t.log ∧ driven t.log k = driven s.log k ∧
    ∀ i : Fin doorOutputsNum, i.val = k → lines t.log i = lines s.log i := by
  have frozen : Frozen d k s t ∧ Sheltered cfg d k t := by
    refine systemInvariant cfg (fun t => Frozen d k s t ∧ Sheltered cfg d k t) ?_ ?_ ?_ run ⟨.refl s,under,apart⟩
    · intro u v still ⟨before,sheltered⟩
      exact ⟨before.trans (stillFrozen still),(stillFrozen still).sheltered sheltered⟩
    · intro a of u v taken ⟨before,sheltered⟩
      have other : ¬ OnHold d a := by cases a <;> first | exact id | exact of.elim
      have now := actFrozen cfg a other taken sheltered
      exact ⟨before.trans now,now.sheltered sheltered⟩
    · intro datagram db u v w leaves _ taken ⟨before,sheltered⟩
      have now := actFrozen cfg _ (leavesAct cfg leaves db) taken sheltered
      exact ⟨before.trans now,now.sheltered sheltered⟩
  have same := sparesDriven frozen.1.log
  refine ⟨frozen.1.log,same,?_⟩
  rintro i rfl
  rw [linesDriven,linesDriven,same]

/- Door A with output 0 held unlocked by the administrator. -/
def holding : State 2 := checkNetwork (site 3 modeCard (fun _ => none)) setUnlockA ⟨true,true⟩ (initial [])

set_option maxRecDepth 10000 in
/- 'do A lock 3' then locks output 1 and leaves output 0 alone. -/
theorem heldOutputFrozen :
    let locked := step (site 3 modeCard (fun _ => none)) holding (.checkNetwork doLockA ⟨true,true⟩)
    (Grows (Spares 0) holding.log locked.log ∧ driven locked.log 0 = driven holding.log 0 ∧
      ∀ i : Fin doorOutputsNum, i.val = 0 → lines locked.log i = lines holding.log i) ∧
    driven holding.log 0 = some .doUnlock ∧ driven locked.log 1 = some .doLock := by
  refine ⟨heldOutputsFrozen (site 3 modeCard (fun _ => none)) (d := 0) ?_ (runOne ?_ rfl) ?_,?_,?_⟩
  · decide
  · unfold LeavesHold
    decide
  · decide
  · decide
  · decide

end AccessControl.AdminHold
