import AccessControl.LockActs

/-! Airlock mutual exclusion: while a door is unlocked or open, its partner's
outputs are blockaded. Doors take their turns one after another in a pass and the
close line is stored last, so the invariant is about two doors between any two acts. -/
namespace AccessControl.AirlockExclusion
open BitMask DoorTable Gpio DoorController RemoteControl Run LockSteps LockActs

variable {n : Nat} (cfg : Config n) {s t u : State n} {a b : Fin n}

/- Each door is the partner of at most one. -/
def Paired : Prop :=
  ∀ i j p, (cfg i).airLockPartnerLocal = some p → (cfg j).airLockPartnerLocal = some p → i = j

def Covered (b : Fin n) (s : State n) : Prop := (cfg b).maskFull &&& ~~~(s.doors b).airLockMask = 0

def closed (a : Fin n) (s : State n) : Bool := (s.doors a).lastInput.getLsbD 2

structure Gate (a b : Fin n) (s : State n) : Prop where
  low : 0 ≤ (s.doors a).doorLockTimer
  covered : 0 < (s.doors a).doorLockTimer ∨ closed a s = false → Covered cfg b s

/- Before the first pass the countdown of 1 runs without a blockade. -/
structure Waiting (a b : Fin n) (s : State n) : Prop where
  low : 0 ≤ (s.doors a).doorLockTimer
  shut : closed a s = true
  covered : 1 < (s.doors a).doorLockTimer → Covered cfg b s

/- Passes and the commands 'get', 'do lock' and 'do unlock'. -/
def Permitted (_ : State n) : Step n → Prop
  | .mainLoop _ => True
  | .checkNetwork datagram _ => (words datagram).cmd = some wGet ∨
      (words datagram).cmd = some wDo ∧ ((words datagram).arg1 = some wLock ∨ (words datagram).arg1 = some wUnlock)
  | _ => False

/- A call that drives outputs of `b` finds `a` locked and closed. -/
def Excludes (a b : Fin n) : Effect n → Prop
  | .unlockDoor i _ result doors => i = b → result ≠ 0 →
      (doors a).doorLockTimer = 0 ∧ flag diIsDoorClose (doors a).lastInput = true
  | _ => True

theorem coveredFull (full : (s.doors b).airLockMask = (cfg b).maskFull) : Covered cfg b s := by
  unfold Covered
  rw [full]
  exact BitVec.and_not_self _

theorem coveredBit (h : Covered cfg b s) {k : Nat} (bit : (cfg b).maskFull.getLsbD k = true) :
    (s.doors b).airLockMask.getLsbD k = true := by
  have off := maskZero.mp h k
  rw [BitVec.getLsbD_and,BitVec.getLsbD_not,bit,decide_eq_true (BitVec.lt_of_getLsbD bit)] at off
  simpa using off

theorem quietExcludes (e : Effect n) (quiet : Quiet e) : Excludes a b e := by
  cases e <;> first | exact quiet.elim | trivial

/- What an act may do to the pair, field by field. -/
theorem stillPair (h : Still s t) : (Gate cfg a b s → Gate cfg a b t) ∧ (Waiting cfg a b s → Waiting cfg a b t) := by
  have ofA := h.lock a
  have ofB := h.lock b
  have timer : (t.doors a).doorLockTimer = (s.doors a).doorLockTimer := congrArg LockState.doorLockTimer ofA
  have input : closed a t = closed a s := congrArg (fun l => (LockState.lastInput l).getLsbD 2) ofA
  have cover : Covered cfg b t ↔ Covered cfg b s := by simp only [Covered,ofB]
  constructor
  · rintro ⟨low,covered⟩
    exact ⟨timer ▸ low,fun h => cover.mpr (covered (by rwa [timer,input] at h))⟩
  · rintro ⟨low,shut,covered⟩
    exact ⟨timer ▸ low,input ▸ shut,fun h => cover.mpr (covered (by rwa [timer] at h))⟩

theorem unlockCovers (i mask) (h : Covered cfg b s) : Covered cfg b (unlockDoor cfg i mask s).1 := by
  by_cases zero : unlockMask cfg i mask (s.doors i) = 0
  · unfold Covered
    rw [unlockDoors,if_pos zero]
    exact h
  · by_cases partner : (cfg i).airLockPartnerLocal = some b
    · apply coveredFull
      simp only [unlockDoors,if_neg zero,blockadeFull,if_pos partner]
    · unfold Covered
      simp only [unlockDoors,if_neg zero,blockadeFull,if_neg partner]
      exact h

theorem unlockPair (pair : (cfg a).airLockPartnerLocal = some b) (i mask) (s : State n) :
    (Gate cfg a b s → Gate cfg a b (unlockDoor cfg i mask s).1) ∧
    (Waiting cfg a b s → Waiting cfg a b (unlockDoor cfg i mask s).1) := by
  have input : closed a (unlockDoor cfg i mask s).1 = closed a s := by
    unfold closed
    rw [unlockDoors]
    split <;> rfl
  have timer : ((unlockDoor cfg i mask s).1.doors a).doorLockTimer = (s.doors a).doorLockTimer ∨
      ((unlockDoor cfg i mask s).1.doors a).doorLockTimer = doorOpenTime ∧ Covered cfg b (unlockDoor cfg i mask s).1 := by
    rw [unlockTimer]
    by_cases zero : unlockMask cfg i mask (s.doors i) = 0
    · simp only [if_pos zero,true_or]
    · by_cases own : a = i
      · subst own
        refine .inr ⟨by rw [if_neg zero,if_pos rfl],coveredFull cfg ?_⟩
        simp only [unlockDoors,if_neg zero,blockadeFull,if_pos pair]
      · simp only [if_neg zero,if_neg own,true_or]
  rcases timer with same | ⟨open',covers⟩
  · constructor
    · rintro ⟨low,covered⟩
      exact ⟨same ▸ low,fun h => unlockCovers cfg i mask (covered (by rwa [same,input] at h))⟩
    · rintro ⟨low,shut,covered⟩
      exact ⟨same ▸ low,input ▸ shut,fun h => unlockCovers cfg i mask (covered (same ▸ h))⟩
  · constructor
    · exact fun _ => ⟨by rw [open']; decide,fun _ => covers⟩
    · exact fun h => ⟨by rw [open']; decide,input ▸ h.shut,fun _ => covers⟩

/- `lock_door` lifts the blockade of the partner only where the door is locked and closed. -/
theorem lockCovers (paired : Paired cfg) (pair : (cfg a).airLockPartnerLocal = some b) (i mask) (s : State n)
    (kept : 0 < (s.doors a).doorLockTimer ∨ closed a s = false) (h : Covered cfg b s) :
    Covered cfg b (lockDoor cfg i mask s).1 := by
  have air : ((lockDoor cfg i mask s).1.doors b).airLockMask = (s.doors b).airLockMask := by
    rw [lockDoors]
    split
    · rfl
    · simp only [blockadeZero]
      split
      · rename_i partner
        have own := paired i a b partner pair
        subst own
        have busy : ¬ ((s.doors i).doorLockTimer ≤ 0 ∧ (s.doors i).lastInput.getLsbD 2 = true) := by
          rintro ⟨done,shut⟩
          rcases kept with running | ajar
          · omega
          · rw [closed,shut] at ajar
            contradiction
        rw [if_neg busy]
      · rfl
  unfold Covered
  rw [air]
  exact h

theorem lockPair (paired : Paired cfg) (pair : (cfg a).airLockPartnerLocal = some b) (i mask) (s : State n) :
    (Gate cfg a b s → Gate cfg a b (lockDoor cfg i mask s).1) ∧
    (Waiting cfg a b s → Waiting cfg a b (lockDoor cfg i mask s).1) := by
  have timer := lockKeepsTimer cfg i mask s a
  have input : closed a (lockDoor cfg i mask s).1 = closed a s := by
    unfold closed
    rw [lockDoors]
    split <;> rfl
  constructor
  · intro gate
    refine ⟨timer ▸ gate.low,fun h => ?_⟩
    rw [timer,input] at h
    exact lockCovers cfg paired pair i mask s h (gate.covered h)
  · intro waiting
    refine ⟨timer ▸ waiting.low,input ▸ waiting.shut,fun h => ?_⟩
    rw [timer] at h
    exact lockCovers cfg paired pair i mask s (.inl (by omega)) (waiting.covered h)

theorem tickedPair (i : Fin n) (s : State n) : closed a (ticked i s) = closed a s ∧
    (Covered cfg b (ticked i s) ↔ Covered cfg b s) ∧
    ((ticked i s).doors a).doorLockTimer = (s.doors a).doorLockTimer - if a = i then 1 else 0 := by
  have field : ∀ j, ((ticked i s).doors j).lastInput = (s.doors j).lastInput ∧
      ((ticked i s).doors j).airLockMask = (s.doors j).airLockMask := by
    intro j
    rw [ticked,updateDoor]
    split <;> exact ⟨rfl,rfl⟩
  refine ⟨by rw [closed,(field a).1]; rfl,by simp only [Covered,(field b).2],?_⟩
  rw [ticked,updateDoor]
  split <;> simp

/- The countdown keeps the gate, and turns the wait of the first pass into it. -/
theorem tickPair (paired : Paired cfg) (pair : (cfg a).airLockPartnerLocal = some b) (i : Fin n) (s : State n) :
    (Gate cfg a b s → Gate cfg a b (lockTimer cfg i s)) ∧
    (i ≠ a → Waiting cfg a b s → Waiting cfg a b (lockTimer cfg i s)) := by
  obtain ⟨input,cover,timer⟩ := tickedPair cfg (a := a) (b := b) i s
  have gate : (s.doors i).doorLockTimer ≠ 0 → Gate cfg a b s → Gate cfg a b (ticked i s) := by
    intro running ⟨low,covered⟩
    have less : 0 ≤ ((ticked i s).doors a).doorLockTimer ∧
        ((ticked i s).doors a).doorLockTimer ≤ (s.doors a).doorLockTimer := by
      rw [timer]
      split
      · rename_i own
        subst own
        omega
      · omega
    exact ⟨less.1,fun h => cover.mpr (covered (h.imp (by omega) (by rw [input]; exact id)))⟩
  have waiting : i ≠ a → Waiting cfg a b s → Waiting cfg a b (ticked i s) := by
    intro ne ⟨low,shut,covered⟩
    have same : ((ticked i s).doors a).doorLockTimer = (s.doors a).doorLockTimer := by
      rw [timer,if_neg (fun e => ne e.symm),sub_zero]
    exact ⟨same ▸ low,input ▸ shut,fun h => cover.mpr (covered (same ▸ h))⟩
  rcases lockTimerCases cfg i s with ⟨_,same⟩ | ⟨ne,_,same⟩ | ⟨ne,_,same⟩ <;> rw [same]
  · exact ⟨id,fun _ => id⟩
  · exact ⟨gate ne,waiting⟩
  · have locked := lockPair cfg paired pair i (cfg i).maskFull (ticked i s)
    exact ⟨fun h => locked.1 (gate ne h),fun own h => locked.2 (waiting own h)⟩

theorem tickWaiting (paired : Paired cfg) (pair : (cfg a).airLockPartnerLocal = some b) (h : Waiting cfg a b s) :
    Gate cfg a b (lockTimer cfg a s) := by
  obtain ⟨input,cover,timer⟩ := tickedPair cfg (a := a) (b := b) a s
  rw [if_pos rfl] at timer
  obtain ⟨low,shut,covered⟩ := h
  rcases lockTimerCases cfg a s with ⟨zero,same⟩ | ⟨_,more,same⟩ | ⟨_,last,same⟩ <;> rw [same]
  · refine ⟨low,fun h => ?_⟩
    rcases h with running | ajar
    · omega
    · rw [shut] at ajar
      contradiction
  · exact ⟨by omega,fun _ => cover.mpr (covered more)⟩
  · refine (lockPair cfg paired pair a (cfg a).maskFull (ticked a s)).1 ⟨by omega,fun h => ?_⟩
    rcases h with running | ajar
    · omega
    · rw [input,shut] at ajar
      contradiction

/- With the door shut now and no change seen, it was shut before. -/
theorem lineUnchanged {i : Fin n} {input} (same : (inputDiff (s.doors i) input).getLsbD 2 = false) (shut : input.getLsbD 2 = false) :
    closed i s = false := by
  unfold inputDiff at same
  split at same
  · exact same
  · rw [BitVec.getLsbD_xor,shut] at same
    simpa [closed] using same

theorem emergencyCovered {input diff : Bool} (cover : Covered cfg b s) : (cfg b).maskFull &&&
    ~~~(if diff = true ∧ input = true then (cfg b).maskFull else (s.doors b).airLockMask) = 0 := by
  split
  · exact BitVec.and_not_self _
  · exact cover

/- A reading stores the close line after it was compared with the stored one. -/
theorem sensePair (paired : Paired cfg) (pair : (cfg a).airLockPartnerLocal = some b) (i input) (h : Gate cfg a b s) :
    Gate cfg a b (inputSense cfg i (inputDiff (s.doors i) input) input s) := by
  obtain ⟨low,covered⟩ := h
  have timer : ((inputSense cfg i (inputDiff (s.doors i) input) input s).doors a).doorLockTimer =
      (s.doors a).doorLockTimer := by rw [senseDoors]
  refine ⟨timer ▸ low,fun gate => ?_⟩
  rw [timer] at gate
  by_cases own : i = a
  · subst own
    have now : closed i (inputSense cfg i (inputDiff (s.doors i) input) input s) = input.getLsbD 2 := by
      rw [closed,senseDoors]
      simp
    rw [now] at gate
    -- With the door shut and its countdown over there is nothing to show; else the blockade stands.
    have stale : (inputDiff (s.doors i) input).getLsbD 2 = false → 0 < (s.doors i).doorLockTimer ∨ closed i s = false :=
      fun same => gate.imp_right (lineUnchanged same)
    unfold Covered
    rw [senseDoors]
    simp only [sensed,if_pos pair]
    split
    · split
      · rename_i changed shut
        have running : 0 < (s.doors i).doorLockTimer := by
          rcases gate with running | ajar
          · exact running
          · rw [shut] at ajar
            contradiction
        rw [if_neg (fun h => by omega)]
        exact emergencyCovered cfg (covered (.inl running))
      · exact BitVec.and_not_self _
    · rename_i unchanged
      exact emergencyCovered cfg (covered (stale (by simpa using unchanged)))
  · have input' : closed a (inputSense cfg i (inputDiff (s.doors i) input) input s) = closed a s := by
      rw [closed,senseDoors]
      simp only [if_neg (fun e : a = i => own e.symm)]
      rfl
    have other : (cfg i).airLockPartnerLocal ≠ some b := fun e => own (paired i a b e pair)
    unfold Covered
    rw [senseDoors]
    simp only [sensed,if_neg other]
    exact covered (input' ▸ gate)

/- The acts of passes and of the permitted commands. -/
def Plain : Act n → Prop
  | .still | .tick _ | .unlock .. | .lock .. | .sense .. => True
  | _ => False

theorem unlockExcludes (gate : Gate cfg a b s) (i mask) :
    Grows (Excludes a b) s.log (unlockDoor cfg i mask s).1.log := by
  have call : Excludes a b (.unlockDoor i mask (unlockMask cfg i mask (s.doors i)) s.doors) := by
    intro own drove
    subst own
    obtain ⟨k,bit⟩ := maskNonzero.mp drove
    obtain ⟨_,_,_,full,air,_⟩ := (unlockMaskBit ..).mp bit
    have bare : ¬ Covered cfg i s := by
      intro cover
      rw [coveredBit cfg cover full] at air
      contradiction
    have rest : ¬ (0 < (s.doors a).doorLockTimer ∨ closed a s = false) := fun h => bare (gate.covered h)
    have low := gate.low
    rw [flagDoorClose]
    refine ⟨by omega,?_⟩
    cases shut : closed a s with
    | true => exact shut
    | false => exact absurd (.inr shut) rest
  have called := growsCons call s.log
  have log := unlockLog cfg i mask s
  by_cases zero : unlockMask cfg i mask (s.doors i) = 0
  · simp only [zero,if_true] at log called
    rw [log]
    exact called
  · simp only [zero,if_false] at log
    obtain ⟨middle,before,after⟩ := log
    have driving := growsCons (P := Excludes a b) (e := .setDoorState .doUnlock (unlockMask cfg i mask (s.doors i)))
      trivial middle
    exact growsTrans called (growsTrans (growsMono quietExcludes before) (growsTrans driving (growsMono quietExcludes after)))

theorem lockExcludes (i mask) (s : State n) : Grows (Excludes a b) s.log (lockDoor cfg i mask s).1.log := by
  have log := lockLog cfg i mask s
  by_cases zero : lockMask cfg i mask (s.doors i) = 0
  · simp only [zero,if_true] at log
    rw [log]
    exact growsRefl _
  · simp only [zero,if_false] at log
    exact growsTrans (growsCons (P := Excludes a b) (e := .setDoorState .doLock _) trivial _) (growsMono quietExcludes log)

theorem tickExcludes (i : Fin n) (s : State n) : Grows (Excludes a b) s.log (lockTimer cfg i s).log := by
  rcases lockTimerCases cfg i s with ⟨_,same⟩ | ⟨_,_,same⟩ | ⟨_,_,same⟩ <;> rw [same]
  · exact growsRefl _
  · exact growsRefl _
  · exact lockExcludes cfg i _ (ticked i s)

theorem actGate (paired : Paired cfg) (pair : (cfg a).airLockPartnerLocal = some b) {x : Act n} (plain : Plain x)
    (taken : Takes cfg x s t) (gate : Gate cfg a b s) : Gate cfg a b t ∧ Grows (Excludes a b) s.log t.log := by
  cases x with
  | still => exact ⟨(stillPair cfg taken).1 gate,growsMono quietExcludes taken.log⟩
  | tick i => cases taken; exact ⟨(tickPair cfg paired pair i s).1 gate,tickExcludes cfg i s⟩
  | unlock i mask => cases taken; exact ⟨(unlockPair cfg pair i mask s).1 gate,unlockExcludes cfg gate i mask⟩
  | lock i mask => cases taken; exact ⟨(lockPair cfg paired pair i mask s).1 gate,lockExcludes cfg i mask s⟩
  | sense i input =>
    cases taken
    exact ⟨sensePair cfg paired pair i input gate,growsMono quietExcludes (senseLog cfg i _ input s)⟩
  | _ => exact plain.elim

theorem permittedAct {datagram db} (permitted : Permitted s (.checkNetwork datagram db)) :
    datagramAct cfg datagram db = .still ∨ (∃ i mask, datagramAct cfg datagram db = .unlock i mask) ∨
      ∃ i mask, datagramAct cfg datagram db = .lock i mask := by
  dsimp only [Permitted] at permitted
  unfold datagramAct
  generalize words datagram = w at permitted ⊢
  obtain ⟨cmd,door,arg1,argX⟩ := w
  cases cmd <;> cases door <;> cases arg1 <;> try exact .inl rfl
  rename_i cmd door arg1
  dsimp only at permitted ⊢
  cases getDoorByName cfg door with
  | none => exact .inl rfl
  | some i =>
    dsimp only
    have names : wDo ≠ wGet ∧ wDo ≠ wSet ∧ wDo ≠ wUnset ∧ wLock ≠ wUnlock := by decide
    rcases permitted with get | ⟨does,arg⟩
    · rw [Option.some.injEq] at get
      simp only [commandAct,get,if_true,true_or]
    · rw [Option.some.injEq] at does
      subst does
      simp only [commandAct,if_neg names.1,names.2.1,names.2.2.1,false_and,if_false,true_and]
      cases argX with
      | none => exact .inl rfl
      | some mask =>
        rcases arg with arg | arg <;> rw [Option.some.injEq] at arg <;> subst arg
        · simp only [Option.map_some,Option.isSome_some,if_true,if_neg names.2.2.2]
          exact .inr (.inr ⟨_,_,rfl⟩)
        · simp only [Option.map_some,Option.isSome_some,if_true]
          exact .inr (.inl ⟨_,_,rfl⟩)

theorem mainLoopGate (paired : Paired cfg) (pair : (cfg a).airLockPartnerLocal = some b) (pass : Pass n)
    (h : Waiting cfg a b s ∨ Gate cfg a b s) : Gate cfg a b (mainLoop cfg pass s) := by
  have turns : Gate cfg a b (doorTurns cfg pass s) := by
    refine doorTurnsOnce cfg a (fun s => Waiting cfg a b s ∨ Gate cfg a b s) (Gate cfg a b) ?_ ?_ pass h
    · exact fun s h => h.elim (tickWaiting cfg paired pair) (tickPair cfg paired pair a s).1
    · intro x u v of taken
      have gate : Gate cfg a b u → Gate cfg a b v := by
        have plain : Plain x := by obtain rfl | ⟨i,_,rfl⟩ | ⟨i,mask,rfl⟩ := of <;> trivial
        exact fun gate => (actGate cfg paired pair plain taken gate).1
      have waiting : Waiting cfg a b u → Waiting cfg a b v := by
        obtain rfl | ⟨i,ne,rfl⟩ | ⟨i,mask,rfl⟩ := of
        · exact (stillPair cfg taken).2
        · cases taken
          exact (tickPair cfg paired pair i u).2 ne
        · cases taken
          exact (unlockPair cfg pair i mask u).2
      exact ⟨Or.imp waiting gate,gate⟩
  have plain : ∀ x : Act n, OfPass x → Plain x := by
    intro x of
    cases x <;> trivial
  exact runInvariant (Gate cfg a b) (fun u x v of gate taken => (actGate cfg paired pair (plain x of) taken gate).1)
    (checkInputsPath cfg pass.reading pass.inputVal _) turns

theorem startWaiting (pair : (cfg a).airLockPartnerLocal = some b) (paired : Paired cfg) (rows) :
    Waiting cfg a b (start cfg rows) := by
  refine foldlInvariant (Waiting cfg a b) ?_ ⟨show (0 : Int) ≤ 1 by decide,show (diStateIsDiff ||| 0x0f).getLsbD 2 = true by decide,
    fun h => absurd h (show ¬ (1 : Int) < 1 by decide)⟩
  intro s row _ h
  have written : ∀ {s : State n} {i : Fin n} {mask : Mask}, Waiting cfg a b s →
      Waiting cfg a b (s.update i (fun d => {d with admDisableMask := mask})) := by
    intro s i mask h
    have field : ∀ j, ((s.update i (fun d => {d with admDisableMask := mask})).doors j).lastInput = (s.doors j).lastInput ∧
        ((s.update i (fun d => {d with admDisableMask := mask})).doors j).doorLockTimer = (s.doors j).doorLockTimer ∧
        ((s.update i (fun d => {d with admDisableMask := mask})).doors j).airLockMask = (s.doors j).airLockMask := by
      intro j
      rw [updateDoor]
      split <;> exact ⟨rfl,rfl,rfl⟩
    obtain ⟨low,shut,covered⟩ := h
    exact ⟨(field a).2.1 ▸ low,by rw [closed,(field a).1]; exact shut,
      fun h => by rw [Covered,(field b).2.2]; exact covered ((field a).2.1 ▸ h)⟩
  unfold restoreRow
  cases getDoorByName cfg row.door with
  | none => exact h
  | some i =>
    refine (stillPair cfg (stillStatus cfg i _)).2 ?_
    split
    · exact written ((unlockPair cfg pair i row.arg s).2 h)
    · split
      · exact written ((lockPair cfg paired pair i row.arg s).2 h)
      · exact h

/- Once a pass has completed, no call drives outputs of `b` unless `a` is locked and
closed, since until then the blockade covers them all. -/
theorem airlockExcludes (rows : List StateRow) (paired : Paired cfg) (pair : (cfg a).airLockPartnerLocal = some b)
    (before : SystemRun cfg Permitted (start cfg rows) s) (pass : Pass n)
    (after : SystemRun cfg Permitted (mainLoop cfg pass s) t) :
    Grows (Excludes a b) (mainLoop cfg pass s).log t.log ∧
    (0 < (t.doors a).doorLockTimer ∨ flag diIsDoorClose (t.doors a).lastInput = false → Covered cfg b t) := by
  have waited : Waiting cfg a b s ∨ Gate cfg a b s := by
    refine runInvariant (fun s => Waiting cfg a b s ∨ Gate cfg a b s) ?_ before (.inl (startWaiting cfg pair paired rows))
    rintro s x t permitted h rfl
    cases x with
    | mainLoop pass => exact .inr (mainLoopGate cfg paired pair pass h)
    | checkNetwork datagram db =>
      by_cases empty : datagram = []
      · subst empty
        exact h
      · obtain ⟨v,w,still,taken,done⟩ := checkNetworkActing cfg empty db s
        have entered := h.imp (stillPair cfg still).2 (stillPair cfg still).1
        refine Or.imp (stillPair cfg done).2 (stillPair cfg done).1 ?_
        obtain act | ⟨i,mask,act⟩ | ⟨i,mask,act⟩ := permittedAct cfg permitted <;> rw [act] at taken
        · exact entered.imp (stillPair cfg taken).2 (stillPair cfg taken).1
        · cases taken
          exact entered.imp (unlockPair cfg pair i mask v).2 (unlockPair cfg pair i mask v).1
        · cases taken
          exact entered.imp (lockPair cfg paired pair i mask v).2 (lockPair cfg paired pair i mask v).1
    | processUserInfo r cb => exact permitted.elim
    | checkInputs reading inputVal => exact permitted.elim
  have gated := mainLoopGate cfg paired pair pass waited
  have kept : Gate cfg a b t ∧ Grows (Excludes a b) (mainLoop cfg pass s).log t.log := by
    refine systemInvariant cfg (fun t => Gate cfg a b t ∧ Grows (Excludes a b) (mainLoop cfg pass s).log t.log)
      ?_ ?_ ?_ after ⟨gated,growsRefl _⟩
    · exact fun u v still ⟨gate,log⟩ => ⟨(stillPair cfg still).1 gate,growsTrans log (growsMono quietExcludes still.log)⟩
    · intro x of u v taken ⟨gate,log⟩
      have now := actGate cfg paired pair (by cases x <;> trivial) taken gate
      exact ⟨now.1,growsTrans log now.2⟩
    · intro datagram db u v w permitted _ taken ⟨gate,log⟩
      have plain : Plain (datagramAct cfg datagram db) := by
        obtain act | ⟨i,mask,act⟩ | ⟨i,mask,act⟩ := permittedAct cfg permitted <;> rw [act] <;> trivial
      have now := actGate cfg paired pair plain taken gate
      exact ⟨now.1,growsTrans log now.2⟩
  refine ⟨kept.2,fun h => kept.1.covered ?_⟩
  rwa [flagDoorClose] at h

/- After one pass with both doors shut, 'do B unlock 1' opens B. -/
def passedShut : State 2 := mainLoop airlock (quietPass 0x0c) (start airlock [])
def openedB : State 2 := checkNetwork airlock doUnlockB ⟨true,true⟩ passedShut

set_option maxRecDepth 10000 in
theorem openedShut : (Grows (Excludes 0 1) passedShut.log openedB.log ∧
      (0 < (openedB.doors 0).doorLockTimer ∨ flag diIsDoorClose (openedB.doors 0).lastInput = false →
        Covered airlock 1 openedB)) ∧
    driven openedB.log 2 = some .doUnlock := by
  refine ⟨airlockExcludes airlock [] ?_ rfl (runRefl _) (quietPass 0x0c)
    (runOne (a := .checkNetwork doUnlockB ⟨true,true⟩) ?_ rfl),?_⟩
  · unfold Paired
    decide
  · dsimp only [Permitted]
    decide
  · decide

end AccessControl.AirlockExclusion
