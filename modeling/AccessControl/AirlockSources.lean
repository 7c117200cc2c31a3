import AccessControl.AirlockRelease
import AccessControl.Relock

/-! Several sources of one blockade: the doors that name a partner, and remote control. All
of them write one mask of the partner, so each can take away what another has put there. -/
namespace AccessControl.AirlockSources
open BitMask DoorTable Gpio DoorController RemoteControl Run LockSteps LockActs Relock

variable {n : Nat} (cfg : Config n) {s t u : State n} {a b i : Fin n}

def Names (a b : Fin n) : Prop := (cfg a).airLockPartnerLocal = some b

/- Some unlock of the door drove an output, and with that blocked its partner. -/
def Unlocked (a : Fin n) (log : List (Effect n)) : Prop := ∃ mask result doors, .unlockDoor a mask result doors ∈ log ∧ result ≠ 0

def unlockOf (a : Fin n) : Effect n → Bool
  | .unlockDoor i _ result _ => i == a && result != 0
  | _ => false

theorem unlockedAny (a : Fin n) (log : List (Effect n)) : log.any (unlockOf a) = true ↔ Unlocked a log := by
  rw [List.any_eq_true]
  constructor
  · rintro ⟨e,inside,driven⟩
    cases e with
    | unlockDoor i mask result doors =>
      simp only [unlockOf,Bool.and_eq_true,beq_iff_eq,bne_iff_ne] at driven
      obtain ⟨rfl,driven⟩ := driven
      exact ⟨mask,result,doors,inside,driven⟩
    | _ => exact absurd driven (by simp [unlockOf])
  · rintro ⟨mask,result,doors,inside,driven⟩
    exact ⟨_,inside,by simpa [unlockOf] using driven⟩

instance (a : Fin n) (log : List (Effect n)) : Decidable (Unlocked a log) := decidable_of_iff _ (unlockedAny a log)

/- The door is open, or still unlocked by an unlock. -/
def Holds (s : State n) (a : Fin n) : Prop :=
  (s.doors a).lastInput.getLsbD 2 = false ∨ 0 < (s.doors a).doorLockTimer ∧ Unlocked a s.log

instance (s : State n) (a : Fin n) : Decidable (Holds s a) := inferInstanceAs (Decidable (_ ∨ _))

/- The bits that remote control has blocked and not unblocked since. -/
abbrev Remote (n : Nat) := Fin n → Mask

structure Kept (s : State n) (remote : Remote n) : Prop where
  doors : ∀ a b, Names cfg a b → Holds s a → ∀ k, (cfg b).maskFull.getLsbD k = true → (s.doors b).airLockMask.getLsbD k = true
  remote : ∀ b k, (remote b).getLsbD k = true → (s.doors b).airLockMask.getLsbD k = true

/- Nobody but `a` holds `b`; a full blockade leaves room for what remote control has put there. -/
structure Free (s : State n) (remote : Remote n) (a b : Fin n) : Prop where
  doors : ∀ c, c ≠ a → Names cfg c b → ¬ Holds s c
  remote : remote b = 0

def Room (remote : Remote n) (b : Fin n) : Prop := ∀ k, (remote b).getLsbD k = true → (cfg b).maskFull.getLsbD k = true

def Unowed (s : State n) (remote : Remote n) (b : Fin n) : Prop := (∀ c, Names cfg c b → ¬ Holds s c) ∧ remote b = 0

/- Locked and shut, so that an unblocking call clears the partner's mask. -/
def Shut (d : Door) : Prop := d.doorLockTimer ≤ 0 ∧ d.lastInput.getLsbD 2 = true

/- No act takes away what another source has put there: the partner is freed for everybody,
blocked afresh, or cleared by a command only where nothing of another source is lost. -/
def Apart (s : State n) (remote : Remote n) : Act n → Prop
  | .tick i => (s.doors i).doorLockTimer ≠ 0 → (s.doors i).doorLockTimer ≤ 1 → (s.doors i).lastInput.getLsbD 2 = true →
      lockMask cfg i (cfg i).maskFull (s.doors i) ≠ 0 → ∀ b, Names cfg i b → Free cfg s remote i b
  | .unlock i mask => unlockMask cfg i mask (s.doors i) ≠ 0 → ∀ b, Names cfg i b → Room cfg remote b
  | .lock i mask => lockMask cfg i mask (s.doors i) ≠ 0 → Shut (s.doors i) → ∀ b, Names cfg i b → Free cfg s remote i b
  | .sense i input =>
    let diff := inputDiff (s.doors i) input
    (diff.getLsbD 2 = true → input.getLsbD 2 = true → Shut (s.doors i) → ∀ b, Names cfg i b → Free cfg s remote i b) ∧
    (diff.getLsbD 1 = true ∧ input.getLsbD 1 = true ∨ diff.getLsbD 2 = true ∧ input.getLsbD 2 = false →
      ∀ b, Names cfg i b → Room cfg remote b)
  | .setUnlock i arg2 => Unowed cfg s remote i ∧ (effective cfg i arg2 ≠ 0 → ∀ b, Names cfg i b → Room cfg remote b)
  | .setLock i arg2 => Unowed cfg s remote i ∧
      (effective cfg i arg2 ≠ 0 → Shut (s.doors i) → ∀ b, Names cfg i b → Free cfg s remote i b)
  | .unblock i arg2 => ∀ c, Names cfg c i → Holds s c → ∀ k, (cfg i).maskFull.getLsbD k = true → arg2.getLsbD k = false
  | .block .. | .unset _ | .still => True

def remoteAct : Act n → Remote n → Remote n
  | .block i arg2, remote => Function.update remote i (remote i ||| arg2)
  | .unblock i arg2, remote => Function.update remote i (remote i &&& ~~~arg2)
  | _, remote => remote

section
variable {cfg} {remote : Remote n}

theorem unlockedGrows {P : Effect n → Prop} (calm : ∀ e, P e → ∀ mask result doors, e ≠ .unlockDoor a mask result doors)
    {x y : List (Effect n)} (h : Grows P x y) : Unlocked a y ↔ Unlocked a x := by
  obtain ⟨added,rfl,each⟩ := h
  constructor
  · rintro ⟨mask,result,doors,inside,driven⟩
    rcases List.mem_append.mp inside with new | old
    · exact absurd rfl (calm _ (each _ new) mask result doors)
    · exact ⟨mask,result,doors,old,driven⟩
  · rintro ⟨mask,result,doors,inside,driven⟩
    exact ⟨mask,result,doors,List.mem_append_right _ inside,driven⟩

theorem quietCalm {e : Effect n} (quiet : Quiet e) : ∀ mask result doors, e ≠ .unlockDoor a mask result doors := by
  rintro mask result doors rfl
  exact quiet

theorem unlockedQuiet {x y : List (Effect n)} (h : Grows Quiet x y) : Unlocked a y ↔ Unlocked a x :=
  unlockedGrows (fun _ => quietCalm) h

theorem unlockedSet {x y : List (Effect n)} {operation mask} (h : Grows Quiet (.setDoorState operation mask :: x) y) :
    Unlocked a y ↔ Unlocked a x := by
  have driven := growsCons (P := fun e => e = .setDoorState operation mask) rfl x
  refine (unlockedQuiet h).trans (unlockedGrows ?_ driven)
  rintro e rfl mask result doors same
  cases same

theorem unlockedUnlock (i : Fin n) (mask : Mask) (s : State n) : Unlocked a (unlockDoor cfg i mask s).1.log ↔
    a = i ∧ unlockMask cfg i mask (s.doors i) ≠ 0 ∨ Unlocked a s.log := by
  have called : Unlocked a (.unlockDoor i mask (unlockMask cfg i mask (s.doors i)) s.doors :: s.log) ↔
      a = i ∧ unlockMask cfg i mask (s.doors i) ≠ 0 ∨ Unlocked a s.log := by
    constructor
    · rintro ⟨m,result,doors,inside,driven⟩
      rcases List.mem_cons.mp inside with same | old
      · cases same
        exact .inl ⟨rfl,driven⟩
      · exact .inr ⟨m,result,doors,old,driven⟩
    · rintro (⟨rfl,driven⟩ | ⟨m,result,doors,inside,driven⟩)
      · exact ⟨_,_,_,List.mem_cons_self,driven⟩
      · exact ⟨m,result,doors,List.mem_cons_of_mem _ inside,driven⟩
  have log := unlockLog cfg i mask s
  by_cases zero : unlockMask cfg i mask (s.doors i) = 0
  · simp only [zero,if_true] at log
    rw [zero] at called
    rw [log,zero]
    exact called
  · simp only [zero,if_false] at log
    obtain ⟨middle,before,after⟩ := log
    exact (unlockedSet after).trans ((unlockedQuiet before).trans called)

theorem unlockedLock (i : Fin n) (mask : Mask) (s : State n) : Unlocked a (lockDoor cfg i mask s).1.log ↔ Unlocked a s.log := by
  have log := lockLog cfg i mask s
  by_cases zero : lockMask cfg i mask (s.doors i) = 0
  · simp only [zero,if_true] at log
    rw [log]
  · simp only [zero,if_false] at log
    exact unlockedSet log

theorem holdsSame (timer : (t.doors a).doorLockTimer = (s.doors a).doorLockTimer)
    (input : (t.doors a).lastInput = (s.doors a).lastInput) (log : Unlocked a t.log ↔ Unlocked a s.log) :
    Holds t a ↔ Holds s a := by
  unfold Holds
  rw [timer,input,log]

theorem shutHolds (shut : Shut (s.doors a)) : ¬ Holds s a := by
  rintro (opened | ⟨running,_⟩)
  · rw [shut.2] at opened
    contradiction
  · exact absurd shut.1 (by omega)

/- What the act of door `i` did to its partner: nothing, and the door does not begin to hold;
a full blockade; or a release by a door that no longer holds, with nobody else there. -/
def Outcome (cfg : Config n) (remote : Remote n) (s t : State n) (i b : Fin n) : Prop :=
  (t.doors b).airLockMask = (s.doors b).airLockMask ∧ (Holds t i → Holds s i) ∨
  (t.doors b).airLockMask = (cfg b).maskFull ∧ Room cfg remote b ∨
  (t.doors b).airLockMask = 0 ∧ ¬ Holds t i ∧ Free cfg s remote i b

theorem keptMove (i : Fin n) (kept : Kept cfg s remote) (others : ∀ a, a ≠ i → Holds t a → Holds s a)
    (named : ∀ b, Names cfg i b → Outcome cfg remote s t i b)
    (rest : ∀ b, ¬ Names cfg i b → (t.doors b).airLockMask = (s.doors b).airLockMask) : Kept cfg t remote := by
  constructor
  · intro a b names holds k full
    by_cases partner : Names cfg i b
    · rcases named b partner with ⟨same,keeps⟩ | ⟨blocked,_⟩ | ⟨_,ended,free⟩
      · have held : Holds s a := by
          by_cases own : a = i
          · subst own
            exact keeps holds
          · exact others a own holds
        rw [same]
        exact kept.doors a b names held k full
      · rw [blocked]
        exact full
      · by_cases own : a = i
        · subst own
          exact absurd holds ended
        · exact absurd (others a own holds) (free.doors a own names)
    · have own : a ≠ i := by
        rintro rfl
        exact partner names
      rw [rest b partner]
      exact kept.doors a b names (others a own holds) k full
  · intro b k bit
    by_cases partner : Names cfg i b
    · rcases named b partner with ⟨same,_⟩ | ⟨blocked,room⟩ | ⟨_,_,free⟩
      · rw [same]
        exact kept.remote b k bit
      · rw [blocked]
        exact room k bit
      · rw [free.remote] at bit
        simp at bit
    · rw [rest b partner]
      exact kept.remote b k bit

/- A step that changes neither the blockades nor who holds. -/
theorem keptSame (kept : Kept cfg s remote) (air : ∀ b, (t.doors b).airLockMask = (s.doors b).airLockMask)
    (holds : ∀ a, Holds t a → Holds s a) : Kept cfg t remote :=
  ⟨fun a b names held k full => by rw [air]; exact kept.doors a b names (holds a held) k full,
    fun b k bit => by rw [air]; exact kept.remote b k bit⟩

theorem holdsStill (h : Still s t) (a : Fin n) : Holds t a ↔ Holds s a :=
  holdsSame (congrArg LockState.doorLockTimer (h.lock a)) (congrArg LockState.lastInput (h.lock a)) (unlockedQuiet h.log)

theorem keptStill (h : Still s t) (kept : Kept cfg s remote) : Kept cfg t remote :=
  keptSame kept (fun b => congrArg LockState.airLockMask (h.lock b)) (fun a => (holdsStill h a).mp)

/- The acts, each by what it does to its own door and to the partner. -/
theorem unlockOthers {mask : Mask} (ne : a ≠ i) (holds : Holds (unlockDoor cfg i mask s).1 a) : Holds s a := by
  refine (holdsSame ?_ ?_ ?_).mp holds
  · rw [unlockTimer,if_neg ne]
    exact ite_self _
  · rw [unlockDoors]
    split <;> rfl
  · rw [unlockedUnlock]
    exact or_iff_right fun own => ne own.1

theorem keptUnlock {mask : Mask} (kept : Kept cfg s remote)
    (room : unlockMask cfg i mask (s.doors i) ≠ 0 → ∀ b, Names cfg i b → Room cfg remote b) :
    Kept cfg (unlockDoor cfg i mask s).1 remote := by
  refine keptMove i kept (fun a ne => unlockOthers ne) (fun b names => ?_) (fun b other => ?_)
  · by_cases zero : unlockMask cfg i mask (s.doors i) = 0
    · refine .inl ⟨by rw [unlockDoors,if_pos zero],fun holds => ?_⟩
      refine (holdsSame (by rw [unlockDoors,if_pos zero]) (by rw [unlockDoors,if_pos zero]) ?_).mp holds
      rw [unlockedUnlock]
      exact or_iff_right fun own => own.2 zero
    · refine .inr (.inl ⟨?_,room zero b names⟩)
      rw [unlockDoors,if_neg zero]
      exact (blockadeFull cfg i s b).trans (if_pos names)
  · rw [unlockDoors]
    split
    · rfl
    · exact (blockadeFull cfg i s b).trans (if_neg other)

theorem lockHolds (i : Fin n) (mask : Mask) (s : State n) (a : Fin n) : Holds (lockDoor cfg i mask s).1 a ↔ Holds s a := by
  refine holdsSame (lockKeepsTimer ..) ?_ (unlockedLock i mask s)
  rw [lockDoors]
  split <;> rfl

theorem keptLock {mask : Mask} (kept : Kept cfg s remote)
    (free : lockMask cfg i mask (s.doors i) ≠ 0 → Shut (s.doors i) → ∀ b, Names cfg i b → Free cfg s remote i b) :
    Kept cfg (lockDoor cfg i mask s).1 remote := by
  refine keptMove i kept (fun a _ => (lockHolds i mask s a).mp) (fun b names => ?_) (fun b other => ?_)
  · by_cases zero : lockMask cfg i mask (s.doors i) = 0
    · exact .inl ⟨by rw [lockDoors,if_pos zero],(lockHolds i mask s i).mp⟩
    · by_cases shut : Shut (s.doors i)
      · refine .inr (.inr ⟨?_,fun holds => shutHolds shut ((lockHolds i mask s i).mp holds),free zero shut b names⟩)
        rw [lockDoors,if_neg zero]
        exact (blockadeZero cfg i s b).trans ((if_pos names).trans (if_pos shut))
      · refine .inl ⟨?_,(lockHolds i mask s i).mp⟩
        rw [lockDoors,if_neg zero]
        exact (blockadeZero cfg i s b).trans ((if_pos names).trans (if_neg shut))
  · rw [lockDoors]
    split
    · rfl
    · exact (blockadeZero cfg i s b).trans (if_neg other)

/- The countdown alone can only end a hold. -/
theorem tickedHolds (i : Fin n) (s : State n) (a : Fin n) (holds : Holds (ticked i s) a) : Holds s a := by
  unfold ticked at holds
  unfold Holds at holds ⊢
  rw [updateDoor] at holds
  by_cases own : a = i
  · rw [if_pos own] at holds
    refine holds.imp id (fun running => ⟨?_,running.2⟩)
    have left := running.1
    dsimp only at left
    omega
  · rw [if_neg own] at holds
    exact holds

theorem tickedAir (i : Fin n) (s : State n) (b : Fin n) : ((ticked i s).doors b).airLockMask = (s.doors b).airLockMask := by
  rw [ticked,updateDoor]
  split <;> rfl

theorem keptTick (kept : Kept cfg s remote) (apart : Apart cfg s remote (.tick i)) : Kept cfg (lockTimer cfg i s) remote := by
  have counted : Kept cfg (ticked i s) remote := keptSame kept (tickedAir i s) (tickedHolds i s)
  rcases lockTimerCases cfg i s with ⟨_,same⟩ | ⟨_,_,same⟩ | ⟨running,last,same⟩ <;> rw [same]
  · exact kept
  · exact counted
  · refine keptLock counted fun driven shut b names => ?_
    have door : (ticked i s).doors i = {s.doors i with doorLockTimer := (s.doors i).doorLockTimer - 1} := by rw [ticked,updateSelf]
    rw [door] at driven shut
    have free := apart running last shut.2 driven b names
    exact ⟨fun c other named holds => free.doors c other named (tickedHolds i s c holds),free.remote⟩

theorem senseTimer (i : Fin n) (diff input : Byte) (s : State n) (a : Fin n) :
    ((inputSense cfg i diff input s).doors a).doorLockTimer = (s.doors a).doorLockTimer := by rw [senseDoors]

theorem senseInput (i : Fin n) (diff input : Byte) (s : State n) (a : Fin n) :
    ((inputSense cfg i diff input s).doors a).lastInput = if a = i then input else (s.doors a).lastInput := by rw [senseDoors]

/- A line that did not change reads as it was stored, once the door was read. -/
theorem diffSame {d : Door} {input : Byte} (same : (inputDiff d input).getLsbD 2 = false) :
    input.getLsbD 2 = false → d.lastInput.getLsbD 2 = false := by
  intro opened
  unfold inputDiff at same
  split at same
  · exact same
  · rw [BitVec.getLsbD_xor,opened,Bool.false_xor] at same
    exact same

theorem senseHolds (i : Fin n) (diff input : Byte) (s : State n) : Holds (inputSense cfg i diff input s) i ↔
    input.getLsbD 2 = false ∨ 0 < (s.doors i).doorLockTimer ∧ Unlocked i s.log := by
  unfold Holds
  rw [senseTimer,senseInput,if_pos rfl,unlockedQuiet (senseLog cfg i diff input s)]

/- What the reading of a door does to its partner: the close line comes first, and where it
brought nothing an emergency blocks the partner or all stays. -/
theorem senseOutcome {input : Byte} (apart : Apart cfg s remote (.sense i input)) (names : Names cfg i b) :
    Outcome cfg remote s (inputSense cfg i (inputDiff (s.doors i) input) input s) i b := by
  obtain ⟨frees,blocks⟩ := apart
  have own : Holds (inputSense cfg i (inputDiff (s.doors i) input) input s) i ↔
      input.getLsbD 2 = false ∨ 0 < (s.doors i).doorLockTimer ∧ Unlocked i s.log := senseHolds i _ input s
  have mask : ((inputSense cfg i (inputDiff (s.doors i) input) input s).doors b).airLockMask =
      sensed cfg i (inputDiff (s.doors i) input) input s b := by rw [senseDoors]
  have calm : (input.getLsbD 2 = false → (s.doors i).lastInput.getLsbD 2 = false) →
      ((inputSense cfg i (inputDiff (s.doors i) input) input s).doors b).airLockMask =
        (if (inputDiff (s.doors i) input).getLsbD 1 = true ∧ input.getLsbD 1 = true then (cfg b).maskFull
          else (s.doors b).airLockMask) →
      Outcome cfg remote s (inputSense cfg i (inputDiff (s.doors i) input) input s) i b := by
    intro opened mask
    split at mask
    · rename_i emergency
      exact .inr (.inl ⟨mask,blocks (.inl emergency) b names⟩)
    · exact .inl ⟨mask,fun holds => (own.mp holds).imp opened id⟩
  rw [sensed,if_pos (show (cfg i).airLockPartnerLocal = some b from names)] at mask
  dsimp only at mask
  split at mask
  · rename_i changed
    split at mask
    · rename_i closed
      split at mask
      · rename_i shut
        have ended : ¬ Holds (inputSense cfg i (inputDiff (s.doors i) input) input s) i := by
          intro holds
          rcases own.mp holds with opened | ⟨running,_⟩
          · rw [closed] at opened
            contradiction
          · exact absurd shut.1 (by omega)
        exact .inr (.inr ⟨mask,ended,frees changed closed shut b names⟩)
      · exact calm (fun opened => absurd (closed.symm.trans opened) (by decide)) mask
    · rename_i opened
      exact .inr (.inl ⟨mask,blocks (.inr ⟨changed,Bool.eq_false_iff.mpr opened⟩) b names⟩)
  · rename_i unchanged
    exact calm (diffSame (Bool.eq_false_iff.mpr unchanged)) mask

theorem keptSense {input : Byte} (kept : Kept cfg s remote) (apart : Apart cfg s remote (.sense i input)) :
    Kept cfg (inputSense cfg i (inputDiff (s.doors i) input) input s) remote := by
  refine keptMove i kept (fun a ne holds => ?_) (fun b names => senseOutcome apart names) (fun b other => ?_)
  · exact (holdsSame (senseTimer ..) ((senseInput ..).trans (if_neg ne)) (unlockedQuiet (senseLog ..))).mp holds
  · rw [senseDoors,sensed,if_neg (show ¬ (cfg i).airLockPartnerLocal = some b from other)]

/- `set` clears the door's own blockade first, which nobody may be owed. -/
def cleared (i : Fin n) (s : State n) : State n := s.update i (fun d => {d with admDisableMask := 0, airLockMask := 0})

theorem clearedHolds (i : Fin n) (s : State n) (a : Fin n) : Holds (cleared i s) a ↔ Holds s a := by
  refine holdsSame ?_ ?_ Iff.rfl <;> rw [cleared,updateDoor] <;> split <;> rfl

theorem clearedLock (i : Fin n) (s : State n) : ((cleared i s).doors i).toLockState =
    {(s.doors i).toLockState with admDisableMask := 0, airLockMask := 0} := by rw [cleared,updateSelf]

theorem keptCleared (kept : Kept cfg s remote) (unowed : Unowed cfg s remote i) : Kept cfg (cleared i s) remote := by
  have other : ∀ b, b ≠ i → ((cleared i s).doors b).airLockMask = (s.doors b).airLockMask := by
    intro b ne
    rw [cleared,updateOther _ _ ne]
  constructor
  · intro a b names holds k full
    rw [clearedHolds] at holds
    have ne : b ≠ i := by
      rintro rfl
      exact unowed.1 a names holds
    rw [other b ne]
    exact kept.doors a b names holds k full
  · intro b k bit
    have ne : b ≠ i := by
      rintro rfl
      rw [unowed.2] at bit
      simp at bit
    rw [other b ne]
    exact kept.remote b k bit

theorem keptAdm (arg2 : Mask) (kept : Kept cfg s remote) : Kept cfg (s.update i (fun d => {d with admDisableMask := arg2})) remote := by
  have same : ∀ a, Holds (s.update i (fun d => {d with admDisableMask := arg2})) a ↔ Holds s a := by
    intro a
    refine holdsSame ?_ ?_ Iff.rfl <;> rw [updateDoor] <;> split <;> rfl
  refine keptSame kept (fun b => ?_) (fun a => (same a).mp)
  rw [updateDoor]
  split <;> rfl

theorem keptSetUnlock {arg2 : Mask} (kept : Kept cfg s remote) (apart : Apart cfg s remote (.setUnlock i arg2)) :
    Kept cfg (setUnlock cfg i arg2 s) remote := by
  obtain ⟨unowed,room⟩ := apart
  refine keptAdm arg2 (keptUnlock (s := cleared i s) (keptCleared kept unowed) fun driven => room ?_)
  have masks := clearedLock i s
  rwa [unlockMaskFree cfg i arg2 (congrArg LockState.admDisableMask masks) (congrArg LockState.airLockMask masks)] at driven

theorem keptSetLock {arg2 : Mask} (kept : Kept cfg s remote) (apart : Apart cfg s remote (.setLock i arg2)) :
    Kept cfg (setLock cfg i arg2 s) remote := by
  obtain ⟨unowed,free⟩ := apart
  refine keptAdm arg2 (keptLock (s := cleared i s) (keptCleared kept unowed) fun driven shut b names => ?_)
  have masks := clearedLock i s
  rw [lockMaskFree cfg i arg2 (congrArg LockState.admDisableMask masks)] at driven
  have shut' : Shut (s.doors i) := by
    unfold Shut at shut ⊢
    rw [masks] at shut
    exact shut
  have there := free driven shut' b names
  exact ⟨fun c ne named holds => there.doors c ne named ((clearedHolds i s c).mp holds),there.remote⟩

theorem blockHolds (i : Fin n) (f : Mask → Mask) (s : State n) (a : Fin n) :
    Holds (s.update i (fun d => {d with airLockMask := f d.airLockMask})) a ↔ Holds s a := by
  refine holdsSame ?_ ?_ Iff.rfl <;> rw [updateDoor] <;> split <;> rfl

theorem keptBlock (arg2 : Mask) (kept : Kept cfg s remote) : Kept cfg (block i arg2 s) (remoteAct (.block i arg2) remote) := by
  have air : ∀ b k, (s.doors b).airLockMask.getLsbD k = true → ((block i arg2 s).doors b).airLockMask.getLsbD k = true := by
    intro b k bit
    rw [block,updateDoor]
    split
    · simp [bit]
    · exact bit
  constructor
  · intro a b names holds k full
    exact air b k (kept.doors a b names ((blockHolds i (· ||| arg2) s a).mp holds) k full)
  · intro b k bit
    by_cases own : b = i
    · subst own
      rw [remoteAct,Function.update_self,BitVec.getLsbD_or,Bool.or_eq_true] at bit
      rcases bit with old | new
      · exact air b k (kept.remote b k old)
      · rw [block,updateSelf]
        simp [new]
    · rw [remoteAct,Function.update_of_ne own] at bit
      exact air b k (kept.remote b k bit)

theorem keptUnblock {arg2 : Mask} (kept : Kept cfg s remote) (apart : Apart cfg s remote (.unblock i arg2)) :
    Kept cfg (unblock i arg2 s) (remoteAct (.unblock i arg2) remote) := by
  have air : ∀ b k, (b = i → arg2.getLsbD k = false) → (s.doors b).airLockMask.getLsbD k = true →
      ((unblock i arg2 s).doors b).airLockMask.getLsbD k = true := by
    intro b k spared bit
    rw [unblock,updateDoor]
    split
    · rename_i own
      subst own
      have small : k < 32 := BitVec.lt_of_getLsbD bit
      have clear := spared rfl
      rw [BitVec.getLsbD_and,bit,BitVec.getLsbD_not,clear]
      simp [small]
    · exact bit
  constructor
  · intro a b names holds k full
    rw [show Holds (unblock i arg2 s) a ↔ Holds s a from blockHolds i (· &&& ~~~arg2) s a] at holds
    refine air b k (fun own => ?_) (kept.doors a b names holds k full)
    subst own
    exact apart a names holds k full
  · intro b k bit
    by_cases own : b = i
    · subst own
      rw [remoteAct,Function.update_self,BitVec.getLsbD_and,BitVec.getLsbD_not,Bool.and_eq_true,Bool.and_eq_true,
        Bool.not_eq_true'] at bit
      exact air b k (fun _ => bit.2.2) (kept.remote b k bit.1)
    · rw [remoteAct,Function.update_of_ne own] at bit
      exact air b k (fun e => absurd e own) (kept.remote b k bit)

/- One act: what every source has put there stays, if the act is apart. -/
theorem keptAct {act : Act n} (kept : Kept cfg s remote) (apart : Apart cfg s remote act) (taken : Takes cfg act s t) :
    Kept cfg t (remoteAct act remote) := by
  cases act with
  | still => exact keptStill taken kept
  | tick i => exact taken ▸ keptTick kept apart
  | unlock i mask => exact taken ▸ keptUnlock kept apart
  | lock i mask => exact taken ▸ keptLock kept apart
  | sense i input => exact taken ▸ keptSense kept apart
  | setUnlock i arg2 => exact taken ▸ keptSetUnlock kept apart
  | setLock i arg2 => exact taken ▸ keptSetLock kept apart
  | unset i => exact taken ▸ keptAdm 0 kept
  | block i arg2 => exact taken ▸ keptBlock arg2 kept
  | unblock i arg2 => exact taken ▸ keptUnblock kept apart

end

/- A run of acts beside the bits that remote control owns. -/
def Audited (act : Act n) (p q : State n × Remote n) : Prop := Takes cfg act p.1 q.1 ∧ q.2 = remoteAct act p.2

def remoteStep : Step n → Remote n → Remote n
  | .checkNetwork datagram db, remote => remoteAct (datagramAct cfg datagram db) remote
  | _, remote => remote

def audit (p : State n × Remote n) (a : Step n) : State n × Remote n := (step cfg p.1 a,remoteStep cfg a p.2)

/- The step is a run of acts each of which is apart where it is taken. -/
def Meets (p : State n × Remote n) (a : Step n) : Prop :=
  Runs (Audited cfg) (fun p act => Apart cfg p.1 p.2 act) p (audit cfg p a)

abbrev AuditRun (guard : State n × Remote n → Step n → Prop) : State n × Remote n → State n × Remote n → Prop :=
  Runs (fun a p q => q = audit cfg p a) guard

def started (rows : List StateRow) : State n × Remote n := (start cfg rows,fun _ => 0)

/- Nothing is released in the replay: every countdown is still running. -/
theorem restoreKept (row) {s : State n} (running : ∀ i, Running i s) (kept : Kept cfg s (fun _ => 0)) :
    Kept cfg (restoreRow cfg s row) (fun _ => 0) := by
  have room : ∀ b : Fin n, Room cfg (fun _ => 0) b := fun b k bit => absurd bit (by simp)
  have unlocked : ∀ i, Kept cfg (unlockDoor cfg i row.arg s).1 (fun _ => 0) :=
    fun i => keptUnlock kept (fun _ b _ => room b)
  have locked : ∀ i, Kept cfg (lockDoor cfg i row.arg s).1 (fun _ => 0) :=
    fun i => keptLock kept (fun _ shut => absurd shut.1 (by have low := (running i).1; omega))
  unfold restoreRow
  cases getDoorByName cfg row.door with
  | none => exact kept
  | some i =>
    refine keptStill (stillStatus cfg i _) ?_
    split
    · exact keptAdm row.arg (unlocked i)
    · split
      · exact keptAdm row.arg (locked i)
      · exact kept

theorem startKept (rows : List StateRow) : Kept cfg (start cfg rows) (fun _ => 0) := by
  have fresh : (∀ i, Running i (initial (n := n) rows)) ∧ Kept cfg (initial rows) (fun _ => 0) := by
    refine ⟨fun i => ⟨le_refl 1,show (1 : Int) ≤ 13 by decide⟩,⟨?_,fun b k bit => absurd bit (by simp)⟩⟩
    rintro a b _ (opened | ⟨_,_,_,_,inside,_⟩)
    · exact absurd opened (by simp [initial])
    · exact absurd inside (by simp [initial])
  exact (foldlInvariant (fun s => (∀ i, Running i s) ∧ Kept cfg s (fun _ => 0))
    (fun s row _ h => ⟨restoreTimed cfg row s h.1,restoreKept cfg row h.1 h.2⟩) fresh).2

theorem stepKept {p : State n × Remote n} {a : Step n} (kept : Kept cfg p.1 p.2) (meets : Meets cfg p a) :
    Kept cfg (audit cfg p a).1 (audit cfg p a).2 := by
  refine runInvariant (fun p => Kept cfg p.1 p.2) ?_ meets kept
  rintro p act q apart kept ⟨taken,owned⟩
  rw [owned]
  exact keptAct kept apart taken

/- In a run whose acts are all apart no source ever loses what it has put on a partner. -/
theorem blockadesKept (rows : List StateRow) {p : State n × Remote n} (run : AuditRun cfg (Meets cfg) (started cfg rows) p) :
    Kept cfg p.1 p.2 := by
  refine runInvariant (fun p => Kept cfg p.1 p.2) ?_ run (startKept cfg rows)
  rintro p a q meets kept rfl
  exact stepKept cfg kept meets

/- Quiet steps before an act do not change whether it is apart. -/
theorem apartStill {s t : State n} {remote : Remote n} {act : Act n} (h : Still s t) (apart : Apart cfg s remote act) :
    Apart cfg t remote act := by
  have lock : ∀ i, (t.doors i).toLockState = (s.doors i).toLockState := h.lock
  have timer : ∀ i, (t.doors i).doorLockTimer = (s.doors i).doorLockTimer := fun i => congrArg LockState.doorLockTimer (lock i)
  have input : ∀ i, (t.doors i).lastInput = (s.doors i).lastInput := fun i => congrArg LockState.lastInput (lock i)
  have adm : ∀ i, (t.doors i).admDisableMask = (s.doors i).admDisableMask := fun i => congrArg LockState.admDisableMask (lock i)
  have air : ∀ i, (t.doors i).airLockMask = (s.doors i).airLockMask := fun i => congrArg LockState.airLockMask (lock i)
  have free : ∀ {a b}, Free cfg s remote a b → Free cfg t remote a b := fun there =>
    ⟨fun c ne names holds => there.doors c ne names ((holdsStill h c).mp holds),there.remote⟩
  have unowed : ∀ {b}, Unowed cfg s remote b → Unowed cfg t remote b := fun there =>
    ⟨fun c names holds => there.1 c names ((holdsStill h c).mp holds),there.2⟩
  have shut : ∀ {i}, Shut (t.doors i) → Shut (s.doors i) := by
    intro i closed
    unfold Shut at closed ⊢
    rwa [timer,input] at closed
  cases act with
  | tick i =>
    intro running last closed driven b names
    rw [timer] at running last
    rw [input] at closed
    rw [lockMask,adm] at driven
    exact free (apart running last closed driven b names)
  | unlock i mask =>
    intro driven b names
    rw [unlockMask,air,adm] at driven
    exact apart driven b names
  | lock i mask =>
    intro driven closed b names
    rw [lockMask,adm] at driven
    exact free (apart driven (shut closed) b names)
  | sense i reading =>
    have diff : inputDiff (t.doors i) reading = inputDiff (s.doors i) reading := by
      unfold inputDiff
      rw [input]
    obtain ⟨frees,blocks⟩ := apart
    refine ⟨fun changed closed locked b names => ?_,fun event => ?_⟩
    · rw [diff] at changed
      exact free (frees changed closed (shut locked) b names)
    · rw [diff] at event
      exact blocks event
  | setUnlock i arg2 => exact ⟨unowed apart.1,apart.2⟩
  | setLock i arg2 =>
    refine ⟨unowed apart.1,fun driven closed b names => ?_⟩
    exact free (apart.2 driven (shut closed) b names)
  | unblock i arg2 => exact fun c names holds => apart c names ((holdsStill h c).mp holds)
  | _ => trivial

/- A datagram meets the condition when its one act does. -/
theorem networkMeets {p : State n × Remote n} {datagram : Bytes} {db : Sqlite}
    (apart : Apart cfg p.1 p.2 (datagramAct cfg datagram db)) : Meets cfg p (.checkNetwork datagram db) := by
  by_cases nonempty : datagram = []
  · subst nonempty
    exact runRefl p
  · obtain ⟨v,w,before,taken,after⟩ := checkNetworkActing cfg nonempty db p.1
    have first : Runs (Audited cfg) (fun p act => Apart cfg p.1 p.2 act) p (v,p.2) := runOne (a := .still) trivial ⟨before,rfl⟩
    have second : Runs (Audited cfg) (fun p act => Apart cfg p.1 p.2 act) (v,p.2)
        (w,remoteAct (datagramAct cfg datagram db) p.2) := runOne (apartStill cfg before apart) ⟨taken,rfl⟩
    exact runTrans first (runTrans second (runOne (a := .still) trivial ⟨after,rfl⟩))

/- One door to a partner, and nothing of remote control on it. -/
structure Sole (remote : Remote n) : Prop where
  doors : ∀ a c b, Names cfg a b → Names cfg c b → c = a
  remote : ∀ a b, Names cfg a b → remote b = 0

theorem soleApart {remote : Remote n} (sole : Sole cfg remote) {act : Act n} (of : OfPass act) (s : State n) :
    Apart cfg s remote act ∧ remoteAct act remote = remote := by
  have free : ∀ a b, Names cfg a b → Free cfg s remote a b :=
    fun a b names => ⟨fun c ne other => absurd (sole.doors a c b names other) ne,sole.remote a b names⟩
  have room : ∀ a b, Names cfg a b → Room cfg remote b := by
    intro a b names k bit
    rw [sole.remote a b names] at bit
    simp at bit
  cases act with
  | still => exact ⟨trivial,rfl⟩
  | tick i => exact ⟨fun _ _ _ _ b names => free i b names,rfl⟩
  | unlock i mask => exact ⟨fun _ b names => room i b names,rfl⟩
  | sense i input => exact ⟨⟨fun _ _ _ b names => free i b names,fun _ b names => room i b names⟩,rfl⟩
  | _ => exact of.elim

/- Without datagrams every step meets it, in a site where each partner has one door. -/
theorem soleMeets {p : State n × Remote n} (sole : Sole cfg p.2) {a : Step n} (served : ∀ datagram db, a ≠ .checkNetwork datagram db) :
    Meets cfg p a := by
  have same : remoteStep cfg a p.2 = p.2 := by
    cases a with
    | checkNetwork datagram db => exact absurd rfl (served datagram db)
    | _ => rfl
  unfold Meets audit
  rw [same]
  refine runInvariant (fun t => Runs (Audited cfg) (fun p act => Apart cfg p.1 p.2 act) p (t,p.2)) ?_ (servedPath cfg served p.1) (runRefl p)
  intro u act v of reached taken
  have now := soleApart cfg sole of u
  exact runTrans reached (runOne now.1 ⟨taken,now.2.symm⟩)

/- So such a site loses no blockade before its first datagram. -/
theorem soleRun (rows : List StateRow) (sole : ∀ a c b, Names cfg a b → Names cfg c b → c = a) {steps : List (Step n)}
    (served : ∀ a ∈ steps, ∀ datagram db, a ≠ .checkNetwork datagram db) :
    AuditRun cfg (Meets cfg) (started cfg rows) (steps.foldl (audit cfg) (started cfg rows)) := by
  have onward : ∀ p : State n × Remote n, p.2 = (fun _ => 0) → AuditRun cfg (Meets cfg) p (steps.foldl (audit cfg) p) := by
    induction steps with
    | nil => exact fun p _ => runRefl p
    | cons a steps ih =>
      intro p none
      have first := served a List.mem_cons_self
      have meets : Meets cfg p a := soleMeets cfg ⟨sole,fun _ b _ => congrFun none b⟩ first
      have kept : (audit cfg p a).2 = fun _ => 0 := by
        cases a with
        | checkNetwork datagram db => exact absurd rfl (first datagram db)
        | _ => exact none
      exact runTrans (runOne meets rfl) (ih (fun b inside => served b (List.mem_cons_of_mem a inside)) _ kept)
  exact onward _ rfl

/- A and C both name B as their partner. -/
def lobby : Config 3 := fun i =>
  ⟨ascii [if i = 0 then 'A' else if i = 1 then 'B' else 'C'],fun side => ⟨decide (side = .A),modeCard⟩,
    if i = 0 then 0 else if i = 1 then 2 else 4,1,if i = 1 then none else some 1⟩

def doUnlockA : Bytes := ascii ['d','o',' ','A',' ','u','n','l','o','c','k',' ','1']
def doUnlockC : Bytes := ascii ['d','o',' ','C',' ','u','n','l','o','c','k',' ','1']
def doBlockB : Bytes := ascii ['d','o',' ','B',' ','b','l','o','c','k',' ','1']
def doRelockA : Bytes := ascii ['d','o',' ','A',' ','l','o','c','k',' ','1']

def settle : Step 3 := .mainLoop ⟨fun _ => [],some (fun k => (0x0c : Byte).getLsbD (k.val % inputsTypes)),fun _ => 0x0c⟩
def told (datagram : Bytes) : Step 3 := .checkNetwork datagram ⟨true,true⟩

def followed (steps : List (Step 3)) : State 3 × Remote 3 := steps.foldl (audit lobby) (started lobby [])

def elapsed (steps : List (Step 2)) : State 2 × Remote 2 := steps.foldl (audit airlock) (started airlock [])

/- Both hold B, and remote control has blocked it too; where A alone names B, it lifts its blockade
when its countdown ends. -/
theorem heldAndLifted : (Kept lobby (followed [told doUnlockA,told doUnlockC,told doBlockB]).1
        (followed [told doUnlockA,told doUnlockC,told doBlockB]).2 ∧
      Holds (followed [told doUnlockA,told doUnlockC,told doBlockB]).1 0 ∧
      Holds (followed [told doUnlockA,told doUnlockC,told doBlockB]).1 2 ∧
      (followed [told doUnlockA,told doUnlockC,told doBlockB]).2 1 = 1) ∧
    Kept airlock (elapsed AirlockRelease.elapseA).1 (elapsed AirlockRelease.elapseA).2 ∧
      Holds (elapsed AirlockRelease.pressA).1 0 ∧ ((elapsed AirlockRelease.pressA).1.doors 1).airLockMask = 1 ∧
      ((elapsed AirlockRelease.elapseA).1.doors 1).airLockMask = 0 := by
  have unlocks : ∀ (p : State 3 × Remote 3) datagram i, p.2 = (fun _ => 0) →
      datagramAct lobby datagram ⟨true,true⟩ = .unlock i 1 → Meets lobby p (told datagram) := by
    intro p datagram i none same
    refine networkMeets lobby ?_
    rw [same,none]
    exact fun _ b _ k bit => absurd bit (by simp)
  have blocks : ∀ p : State 3 × Remote 3, Meets lobby p (told doBlockB) := by
    intro p
    refine networkMeets lobby ?_
    rw [show datagramAct lobby doBlockB ⟨true,true⟩ = .block 1 1 by decide]
    trivial
  have sole : ∀ a c b, Names airlock a b → Names airlock c b → c = a := by
    unfold Names
    decide
  have passes : ∀ a ∈ AirlockRelease.elapseA, ∀ datagram db, a ≠ .checkNetwork datagram db := by
    intro a inside datagram db
    rcases List.mem_append.mp inside with first | later
    · simp only [AirlockRelease.pressA,List.mem_cons,List.not_mem_nil,or_false] at first
      rcases first with rfl | rfl <;> exact nofun
    · rw [List.eq_of_mem_replicate later]
      exact nofun
  refine ⟨⟨blockadesKept lobby [] (runTrans (runOne (a := told doUnlockA) ?_ rfl) (runTrans (runOne (a := told doUnlockC) ?_ rfl)
    (runOne (a := told doBlockB) ?_ rfl))),by decide,by decide,by decide⟩,blockadesKept airlock [] (soleRun airlock [] sole passes),by decide +kernel,
    by decide +kernel,by decide +kernel⟩
  · exact unlocks _ doUnlockA 0 rfl (by decide)
  · exact unlocks _ doUnlockC 2 (by decide) (by decide)
  · exact blocks _

/- Once C is unlocked, or remote control has blocked B, locking A frees B. -/
set_option maxRecDepth 10000 in
theorem lockFrees : ¬ (∀ p, AuditRun lobby (fun _ _ => True) (started lobby []) p →
      ∀ a b, Names lobby a b → Holds p.1 a → ∀ k, (lobby b).maskFull.getLsbD k = true → (p.1.doors b).airLockMask.getLsbD k = true) ∧
    ¬ (∀ p, AuditRun lobby (fun _ _ => True) (started lobby []) p →
      ∀ b k, (p.2 b).getLsbD k = true → (p.1.doors b).airLockMask.getLsbD k = true) := by
  have reached : ∀ steps, AuditRun lobby (fun _ _ => True) (started lobby []) (followed steps) :=
    fun steps => foldlRuns (fun _ _ _ => runOne trivial rfl) _
  constructor
  · intro all
    have covered := all _ (reached [settle,told doUnlockC,told doRelockA]) 2 1 rfl (by decide) 0 (by decide)
    exact absurd covered (by decide)
  · intro all
    have covered := all _ (reached [settle,told doBlockB,told doRelockA]) 1 0 (by decide)
    exact absurd covered (by decide)

end AccessControl.AirlockSources
