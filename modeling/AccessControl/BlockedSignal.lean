import AccessControl.AirlockSources

/-! What the readers of a door show. Each act signals the door it belongs to; the masks of
the partner, and those that remote control blocks, change without a signal of their own. -/
namespace AccessControl.BlockedSignal
open BitMask DoorTable Gpio DoorController RemoteControl Run LockSteps LockActs
open AirlockSources (Names Shut)

variable {n : Nat} (cfg : Config n) {s t u : State n} {i j p : Fin n}

def Blocked (d : Door) : Prop := d.admDisableMask ≠ 0 ∨ d.airLockMask ≠ 0

instance (d : Door) : Decidable (Blocked d) := inferInstanceAs (Decidable (_ ∨ _))

def status : Signal → Option Bool
  | .blocked => some true
  | .unblocked => some false
  | _ => none

/- What a reader was told last; nothing counts as unblocked. -/
def shown (r : ReaderId n) : List (Effect n) → Bool
  | [] => false
  | .readerSignal signal q :: older => if q = r then (status signal).getD (shown r older) else shown r older
  | _ :: older => shown r older

def Present (r : ReaderId n) : Prop := ((cfg r.door).reader r.side).present = true

instance (r : ReaderId n) : Decidable (Present cfg r) := inferInstanceAs (Decidable (_ = _))

def TrueAt (i : Fin n) (s : State n) : Prop := ∀ side, Present cfg ⟨i,side⟩ → (shown ⟨i,side⟩ s.log = true ↔ Blocked (s.doors i))

/- Every reader shows whether its door is blocked. -/
def Truthful (s : State n) : Prop := ∀ i, TrueAt cfg i s

def HasReader (i : Fin n) : Prop := ∃ side, Present cfg ⟨i,side⟩

/- Another door, with readers, that is the partner. -/
structure Other (i p : Fin n) : Prop where
  names : Names cfg i p
  other : p ≠ i
  reader : HasReader cfg p

/- With that mask in place of its own the door is blocked if it was. -/
def Keeps (s : State n) (i : Fin n) (air : Mask) : Prop :=
  (s.doors i).admDisableMask = 0 → ((s.doors i).airLockMask = 0 ↔ air = 0)

/- No act changes whether a door is blocked that it does not signal. -/
def Tells (s : State n) : Act n → Prop
  | .tick i => (s.doors i).doorLockTimer ≠ 0 → (s.doors i).doorLockTimer ≤ 1 → (s.doors i).lastInput.getLsbD 2 = true →
      lockMask cfg i (cfg i).maskFull (s.doors i) ≠ 0 → ∀ p, Other cfg i p → Keeps s p 0
  | .unlock i mask => unlockMask cfg i mask (s.doors i) ≠ 0 → ∀ p, Other cfg i p → Keeps s p (cfg p).maskFull
  | .lock i mask => lockMask cfg i mask (s.doors i) ≠ 0 → Shut (s.doors i) → ∀ p, Other cfg i p → Keeps s p 0
  | .sense i input =>
    let diff := inputDiff (s.doors i) input
    let releases := diff.getLsbD 2 = true ∧ input.getLsbD 2 = true ∧ Shut (s.doors i)
    let blocks := diff.getLsbD 1 = true ∧ input.getLsbD 1 = true ∨ diff.getLsbD 2 = true ∧ input.getLsbD 2 = false
    (releases → ∀ p, Other cfg i p → Keeps s p 0) ∧ (¬ releases → blocks → ∀ p, Other cfg i p → Keeps s p (cfg p).maskFull)
  | .setUnlock i arg2 => effective cfg i arg2 ≠ 0 → ∀ p, Other cfg i p → Keeps s p (cfg p).maskFull
  | .setLock i arg2 => effective cfg i arg2 ≠ 0 → Shut (s.doors i) → ∀ p, Other cfg i p → Keeps s p 0
  | .block i arg2 => HasReader cfg i → Keeps s i ((s.doors i).airLockMask ||| arg2)
  | .unblock i arg2 => HasReader cfg i → Keeps s i ((s.doors i).airLockMask &&& ~~~arg2)
  | .unset _ | .still => True

/- The acts with the signals that belong to them: `set` and `unset` show the door behind the change. -/
def Moves : Act n → State n → State n → Prop
  | .still, s, t => Hushed s t ∨ ∃ i, t = signalDoorStatus cfg i s
  | .setUnlock i arg2, s, t => ∃ v, Hushed (setUnlock cfg i arg2 s) v ∧ t = signalDoorStatus cfg i v
  | .setLock i arg2, s, t => ∃ v, Hushed (setLock cfg i arg2 s) v ∧ t = signalDoorStatus cfg i v
  | .unset i, s, t => t = signalDoorStatus cfg i (unset i s)
  | act, s, t => Takes cfg act s t

section
variable {cfg}

theorem statusHush {signal : Signal} (blocked : signal ≠ .blocked) (free : signal ≠ .unblocked) : status signal = none := by
  cases signal <;> first | rfl | exact absurd rfl blocked | exact absurd rfl free

theorem shownHush {a b : List (Effect n)} (h : Grows Hush a b) (r : ReaderId n) : shown r b = shown r a := by
  refine growsKeeps (fun e log hush => ?_) h
  cases e with
  | readerSignal signal q => rw [shown,statusHush hush.1 hush.2,Option.getD_none,ite_self]
  | _ => rfl

theorem shownSignal (i : Fin n) (signal) (s : State n) (r : ReaderId n) : shown r (doorSignal cfg i signal s).log =
    if r.door = i ∧ Present cfg r then (status signal).getD (shown r s.log) else shown r s.log := by
  obtain ⟨j,side⟩ := r
  have same : ∀ side', (⟨i,side'⟩ : ReaderId n) = ⟨j,side⟩ ↔ j = i ∧ side = side' := by
    intro side'
    rw [ReaderId.mk.injEq]
    tauto
  unfold doorSignal Present
  by_cases own : j = i
  · subst own
    cases side <;> by_cases first : ((cfg j).reader .A).present = true <;> by_cases second : ((cfg j).reader .B).present = true <;>
      simp [first,second,shown]
  · split <;> split <;> simp [shown,same,own]

theorem shownStatus (i : Fin n) (s : State n) (r : ReaderId n) : shown r (signalDoorStatus cfg i s).log =
    if r.door = i ∧ Present cfg r then decide (Blocked (s.doors i)) else shown r s.log := by
  unfold signalDoorStatus
  by_cases blocked : Blocked (s.doors i)
  · rw [if_pos (show _ ∨ _ from blocked),shownSignal,decide_eq_true blocked]
    rfl
  · rw [if_neg (show ¬ (_ ∨ _) from blocked),shownSignal,decide_eq_false blocked]
    rfl

/- From `s` to `t` no reader but those of door `i` is told anything, and those are told the truth. -/
def Spares (i : Fin n) (s t : State n) : Prop := ∀ r, r.door ≠ i → shown r t.log = shown r s.log

structure Tends (cfg : Config n) (i : Fin n) (s t : State n) : Prop where
  spares : Spares i s t
  own : TrueAt cfg i s → TrueAt cfg i t

theorem Tends.trans (first : Tends cfg i s t) (second : Tends cfg i t u) : Tends cfg i s u :=
  ⟨fun r ne => (second.spares r ne).trans (first.spares r ne),fun true' => second.own (first.own true')⟩

theorem tendsSame (log : ∀ r, shown r t.log = shown r s.log) (adm : (t.doors i).admDisableMask = (s.doors i).admDisableMask)
    (air : (t.doors i).airLockMask = (s.doors i).airLockMask) : Tends cfg i s t := by
  refine ⟨fun r _ => log r,fun true' side present => ?_⟩
  rw [log,true' side present,Blocked,Blocked,adm,air]

theorem tendsHushed (h : Hushed s t) (i : Fin n) : Tends cfg i s t :=
  tendsSame (shownHush h.log) (congrArg LockState.admDisableMask (h.lock i)) (congrArg LockState.airLockMask (h.lock i))

theorem tendsStatus {v : State n} (spares : Spares i s v) : Tends cfg i s (signalDoorStatus cfg i v) := by
  constructor
  · intro r ne
    rw [shownStatus,if_neg fun own => ne own.1]
    exact spares r ne
  · intro _ side present
    rw [shownStatus,if_pos ⟨rfl,present⟩,signalStatusDoors,decide_eq_true_iff]

theorem tendsAirLock (i : Fin n) (mask) (s : State n) : Tends cfg i s (airLockOnPartner cfg i mask s) := by
  unfold airLockOnPartner
  cases (cfg i).airLockPartnerLocal with
  | none => exact tendsHushed (.refl s) i
  | some p =>
    refine tendsStatus fun r _ => ?_
    split
    · split <;> rfl
    · rfl

theorem tendsSignal {signal} (silent : status signal = none) (i : Fin n) (s : State n) : Tends cfg i s (doorSignal cfg i signal s) := by
  refine tendsSame (fun r => ?_) (by rw [doorSignalDoors]) (by rw [doorSignalDoors])
  rw [shownSignal,silent,Option.getD_none,ite_self]

theorem tendsEvent (i : Fin n) (event) (s : State n) : Tends cfg i s (sendEvent cfg i event s) := tendsHushed (restedEvent cfg i event s).toHushed i

theorem tendsUnlock (i : Fin n) (mask) (s : State n) : Tends cfg i s (unlockDoor cfg i mask s).1 := by
  have called : ∀ result, Tends cfg i s (s.emit (.unlockDoor i mask result s.doors)) := fun _ => tendsSame (fun _ => rfl) rfl rfl
  unfold unlockDoor
  generalize unlockMask cfg i mask (s.doors i) = result
  dsimp only
  split
  · refine ((called result).trans (tendsAirLock i (-1) _)).trans ?_
    have driven : ∀ (u : State n) result, Tends cfg i u (u.emit (.setDoorState .doUnlock result)) := fun _ _ => tendsSame (fun _ => rfl) rfl rfl
    have armed : ∀ u : State n, Tends cfg i u (u.update i (fun d => {d with doorLockTimer := doorOpenTime})) :=
      fun _ => tendsSame (fun _ => rfl) (by rw [updateSelf]) (by rw [updateSelf])
    exact (((driven _ _).trans (tendsEvent i _ _)).trans (armed _)).trans (tendsSignal rfl i _)
  · exact called result

theorem tendsLock (i : Fin n) (mask) (s : State n) : Tends cfg i s (lockDoor cfg i mask s).1 := by
  unfold lockDoor
  dsimp only
  split
  · have driven : ∀ result, Tends cfg i s (s.emit (.setDoorState .doLock result)) := fun _ => tendsSame (fun _ => rfl) rfl rfl
    exact (((driven _).trans (tendsAirLock i 0 _)).trans (tendsEvent i _ _)).trans (tendsSignal rfl i _)
  · exact tendsHushed (.refl s) i

theorem tendsSense (i : Fin n) (diff input) (s : State n) : Tends cfg i s (inputSense cfg i diff input s) := by
  have emergency : Tends cfg i s (inputEmergency cfg i diff input s) := by
    unfold inputEmergency
    split
    · split
      · exact (tendsEvent i _ s).trans (tendsAirLock i _ _)
      · exact tendsEvent i _ s
    · exact tendsHushed (.refl s) i
  have close : ∀ s : State n, Tends cfg i s (inputDoorClose cfg i diff input s) := by
    intro s
    unfold inputDoorClose
    split
    · split <;> exact (tendsEvent i _ s).trans (tendsAirLock i _ _)
    · exact tendsHushed (.refl s) i
  have lock : ∀ s : State n, Tends cfg i s (inputDoorLock cfg i diff input s) := by
    intro s
    unfold inputDoorLock
    split
    · split <;> exact tendsEvent i _ s
    · exact tendsHushed (.refl s) i
  have stored : ∀ s : State n, Tends cfg i s (s.update i (fun d => {d with lastInput := input})) :=
    fun _ => tendsSame (fun _ => rfl) (by rw [updateSelf]) (by rw [updateSelf])
  exact ((emergency.trans (close _)).trans (lock _)).trans (stored _)

theorem keepsSame (s : State n) (i : Fin n) : Keeps s i (s.doors i).airLockMask := fun _ => Iff.rfl

theorem blockedKeeps (adm : (t.doors i).admDisableMask = (s.doors i).admDisableMask) :
    (Blocked (t.doors i) ↔ Blocked (s.doors i)) ↔ Keeps s i (t.doors i).airLockMask := by
  unfold Blocked Keeps
  rw [adm]
  tauto

/- After an act that says nothing of door `i` all is true as before just when it is blocked as before. -/
theorem truthfulAt (log : ∀ side, shown ⟨i,side⟩ t.log = shown ⟨i,side⟩ s.log) (true' : TrueAt cfg i s)
    (adm : (t.doors i).admDisableMask = (s.doors i).admDisableMask) :
    TrueAt cfg i t ↔ (HasReader cfg i → Keeps s i (t.doors i).airLockMask) := by
  rw [← blockedKeeps adm]
  constructor
  · rintro now ⟨side,present⟩
    rw [← now side present,log,true' side present]
  · intro keeps side present
    rw [log,true' side present,keeps ⟨side,present⟩]

/- An act of door `i` that gives its partner the blockade `air p` under a condition. -/
theorem truthfulTends {c : Prop} {air : Fin n → Mask} (truthful : Truthful cfg s) (tends : Tends cfg i s t)
    (adm : ∀ p, p ≠ i → (t.doors p).admDisableMask = (s.doors p).admDisableMask)
    (given : c → ∀ p, p ≠ i → Names cfg i p → (t.doors p).airLockMask = air p)
    (rest : ∀ p, p ≠ i → ¬ (c ∧ Names cfg i p) → (t.doors p).airLockMask = (s.doors p).airLockMask) :
    Truthful cfg t ↔ (c → ∀ p, Other cfg i p → Keeps s p (air p)) := by
  have each : ∀ p, p ≠ i → (TrueAt cfg p t ↔ (HasReader cfg p → Keeps s p (t.doors p).airLockMask)) :=
    fun p ne => truthfulAt (fun side => tends.spares ⟨p,side⟩ ne) (truthful p) (adm p ne)
  constructor
  · intro now holds p partner
    rw [← given holds p partner.other partner.names]
    exact (each p partner.other).mp (now p) partner.reader
  · intro keeps p
    by_cases own : p = i
    · subst own
      exact tends.own (truthful p)
    refine (each p own).mpr fun reader => ?_
    by_cases partner : c ∧ Names cfg i p
    · rw [given partner.1 p own partner.2]
      exact keeps partner.1 p ⟨partner.2,own,reader⟩
    · rw [rest p own partner]
      exact keepsSame s p

theorem unlockTells (mask) (truthful : Truthful cfg s) : Truthful cfg (unlockDoor cfg i mask s).1 ↔ Tells cfg s (.unlock i mask) := by
  have doors := unlockDoors cfg i mask s
  refine truthfulTends truthful (tendsUnlock i mask s) (fun p _ => unlockAdm cfg i mask s p) (fun driven p _ names => ?_) (fun p _ other => ?_)
  · rw [doors,if_neg driven]
    exact (blockadeFull cfg i s p).trans (if_pos names)
  · rw [doors]
    split
    · rfl
    · rename_i driven
      exact (blockadeFull cfg i s p).trans (if_neg fun names => other ⟨driven,names⟩)

theorem lockTells (mask) (truthful : Truthful cfg s) : Truthful cfg (lockDoor cfg i mask s).1 ↔ Tells cfg s (.lock i mask) := by
  have doors := lockDoors cfg i mask s
  have tells : Tells cfg s (.lock i mask) ↔
      (lockMask cfg i mask (s.doors i) ≠ 0 ∧ Shut (s.doors i) → ∀ p, Other cfg i p → Keeps s p 0) := and_imp.symm
  rw [tells]
  refine truthfulTends truthful (tendsLock i mask s) (fun p _ => lockAdm cfg i mask s p) (fun ⟨driven,shut⟩ p _ names => ?_) (fun p _ other => ?_)
  · rw [doors,if_neg driven]
    exact (blockadeZero cfg i s p).trans ((if_pos names).trans (if_pos shut))
  · rw [doors]
    split
    · rfl
    · rename_i driven
      refine (blockadeZero cfg i s p).trans ?_
      split
      · rename_i names
        exact if_neg fun shut => other ⟨⟨driven,shut⟩,names⟩
      · rfl

/- The countdown changes nothing that is shown or kept. -/
theorem tickedKeeps (s : State n) (p : Fin n) (air : Mask) : Keeps (ticked i s) p air ↔ Keeps s p air := by
  unfold Keeps ticked
  rw [updateDoor]
  split <;> rfl

theorem tickedTruthful (truthful : Truthful cfg s) : Truthful cfg (ticked i s) := by
  intro p side present
  have same : Blocked ((ticked i s).doors p) ↔ Blocked (s.doors p) := by
    unfold ticked
    rw [updateDoor]
    split <;> rfl
  rw [same]
  exact truthful p side present

theorem tickTells (truthful : Truthful cfg s) : Truthful cfg (lockTimer cfg i s) ↔ Tells cfg s (.tick i) := by
  rcases lockTimerCases cfg i s with ⟨idle,same⟩ | ⟨_,more,same⟩ | ⟨running,last,same⟩ <;> rw [same]
  · exact iff_of_true truthful fun running => absurd idle running
  · exact iff_of_true (tickedTruthful truthful) fun _ last => absurd last (by omega)
  · have door : (ticked i s).doors i = {s.doors i with doorLockTimer := (s.doors i).doorLockTimer - 1} := by rw [ticked,updateSelf]
    have driven : lockMask cfg i (cfg i).maskFull ((ticked i s).doors i) = lockMask cfg i (cfg i).maskFull (s.doors i) := by rw [door]; rfl
    have shut : Shut ((ticked i s).doors i) ↔ (s.doors i).lastInput.getLsbD 2 = true := by
      rw [door]
      exact and_iff_right (show (s.doors i).doorLockTimer - 1 ≤ 0 by omega)
    rw [lockTells _ (tickedTruthful truthful)]
    unfold Tells
    simp only [driven,shut,tickedKeeps,forall_prop_of_true running,forall_prop_of_true last]
    exact ⟨fun h closed on => h on closed,fun h on closed => h closed on⟩

/- The reading of a door: a release by its close line, or else a full blockade by the close line or an emergency. -/
theorem senseTells (input : Byte) (truthful : Truthful cfg s) :
    Truthful cfg (inputSense cfg i (inputDiff (s.doors i) input) input s) ↔ Tells cfg s (.sense i input) := by
  unfold Tells
  dsimp only
  generalize inputDiff (s.doors i) input = diff
  have doors := senseDoors cfg i diff input s
  have tends : Tends cfg i s (inputSense cfg i diff input s) := tendsSense i diff input s
  have adm : ∀ p, p ≠ i → ((inputSense cfg i diff input s).doors p).admDisableMask = (s.doors p).admDisableMask := by
    intro p _
    rw [doors]
  by_cases releases : diff.getLsbD 2 = true ∧ input.getLsbD 2 = true ∧ Shut (s.doors i)
  · rw [forall_prop_of_true releases,and_iff_left fun other => absurd releases other]
    refine (truthfulTends (c := True) truthful tends adm (fun _ p _ names => ?_) fun p _ other => ?_).trans (forall_prop_of_true trivial)
    · rw [doors]
      exact (if_pos names).trans ((if_pos releases.1).trans ((if_pos releases.2.1).trans (if_pos releases.2.2)))
    · rw [doors]
      exact if_neg fun names => other ⟨trivial,names⟩
  · rw [forall_prop_of_true releases,and_iff_right fun now => absurd now releases]
    have sensed : ∀ p, Names cfg i p → sensed cfg i diff input s p =
        if diff.getLsbD 1 = true ∧ input.getLsbD 1 = true ∨ diff.getLsbD 2 = true ∧ input.getLsbD 2 = false
        then (cfg p).maskFull else (s.doors p).airLockMask := by
      intro p names
      have closed : ¬ ((s.doors i).doorLockTimer ≤ 0 ∧ (s.doors i).lastInput.getLsbD 2 = true ∧
          diff.getLsbD 2 = true ∧ input.getLsbD 2 = true) := fun h => releases ⟨h.2.2.1,h.2.2.2,h.1,h.2.1⟩
      rw [sensed,if_pos (show (cfg i).airLockPartnerLocal = some p from names)]
      grind
    refine truthfulTends truthful tends adm (fun blocks p _ names => ?_) fun p _ other => ?_
    · rw [doors]
      exact (sensed p names).trans (if_pos blocks)
    · rw [doors]
      by_cases names : Names cfg i p
      · exact (sensed p names).trans (if_neg fun blocks => other ⟨blocks,names⟩)
      · exact if_neg names

/- A command that signals its door behind the change. -/
theorem truthfulShown {c : Prop} {air : Fin n → Mask} {u v : State n} (truthful : Truthful cfg s) (spares : Spares i s u) (hushed : Hushed u v)
    (adm : ∀ p, p ≠ i → (u.doors p).admDisableMask = (s.doors p).admDisableMask)
    (given : c → ∀ p, p ≠ i → Names cfg i p → (u.doors p).airLockMask = air p)
    (rest : ∀ p, p ≠ i → ¬ (c ∧ Names cfg i p) → (u.doors p).airLockMask = (s.doors p).airLockMask) :
    Truthful cfg (signalDoorStatus cfg i v) ↔ (c → ∀ p, Other cfg i p → Keeps s p (air p)) := by
  have silent : Spares i s v := fun r ne => (shownHush hushed.log r).trans (spares r ne)
  refine truthfulTends truthful (tendsStatus silent) (fun p ne => ?_) (fun holds p ne names => ?_) (fun p ne other => ?_) <;> rw [signalStatusDoors]
  · exact (congrArg LockState.admDisableMask (hushed.lock p)).trans (adm p ne)
  · exact (congrArg LockState.airLockMask (hushed.lock p)).trans (given holds p ne names)
  · exact (congrArg LockState.airLockMask (hushed.lock p)).trans (rest p ne other)

/- An unlock or a lock from `w`, which may already differ from `s` at its own door, and the new mask of that door. -/
theorem unlockShown (arg : Mask) {w v : State n} (truthful : Truthful cfg s) (spares : Spares i s w) (before : ∀ p, p ≠ i → w.doors p = s.doors p)
    (hushed : Hushed ((unlockDoor cfg i arg w).1.update i (fun d => {d with admDisableMask := arg})) v) :
    Truthful cfg (signalDoorStatus cfg i v) ↔
      (unlockMask cfg i arg (w.doors i) ≠ 0 → ∀ p, Other cfg i p → Keeps s p (cfg p).maskFull) := by
  have doors := unlockDoors cfg i arg w
  have same : ∀ p, p ≠ i → ((unlockDoor cfg i arg w).1.update i (fun d => {d with admDisableMask := arg})).doors p =
      (unlockDoor cfg i arg w).1.doors p := fun p ne => updateOther _ _ ne
  refine truthfulShown truthful (fun r ne => ?_) hushed (fun p ne => ?_) (fun driven p ne names => ?_) (fun p ne other => ?_)
  · exact ((tendsUnlock i arg w).spares r ne).trans (spares r ne)
  · rw [same p ne,unlockAdm,before p ne]
  · rw [same p ne,doors,if_neg driven]
    exact (blockadeFull cfg i _ p).trans (if_pos names)
  · rw [same p ne,doors]
    split
    · rw [before p ne]
    · rename_i driven
      refine (blockadeFull cfg i _ p).trans ((if_neg fun names => other ⟨driven,names⟩).trans ?_)
      rw [before p ne]

theorem lockShown (arg : Mask) {w v : State n} (truthful : Truthful cfg s) (spares : Spares i s w) (before : ∀ p, p ≠ i → w.doors p = s.doors p)
    (hushed : Hushed ((lockDoor cfg i arg w).1.update i (fun d => {d with admDisableMask := arg})) v) :
    Truthful cfg (signalDoorStatus cfg i v) ↔
      (lockMask cfg i arg (w.doors i) ≠ 0 ∧ Shut (w.doors i) → ∀ p, Other cfg i p → Keeps s p 0) := by
  have doors := lockDoors cfg i arg w
  have same : ∀ p, p ≠ i → ((lockDoor cfg i arg w).1.update i (fun d => {d with admDisableMask := arg})).doors p =
      (lockDoor cfg i arg w).1.doors p := fun p ne => updateOther _ _ ne
  refine truthfulShown truthful (fun r ne => ?_) hushed (fun p ne => ?_) (fun ⟨driven,shut⟩ p ne names => ?_) (fun p ne other => ?_)
  · exact ((tendsLock i arg w).spares r ne).trans (spares r ne)
  · rw [same p ne,lockAdm,before p ne]
  · rw [same p ne,doors,if_neg driven]
    exact (blockadeZero cfg i _ p).trans ((if_pos names).trans (if_pos shut))
  · rw [same p ne,doors]
    split
    · rw [before p ne]
    · rename_i driven
      have calm : blockade cfg i 0 w p = (w.doors p).airLockMask := by
        refine (blockadeZero cfg i _ p).trans ?_
        split
        · rename_i names
          exact if_neg fun shut => other ⟨⟨driven,shut⟩,names⟩
        · rfl
      exact calm.trans (congrArg (fun d => d.airLockMask) (before p ne))

theorem setUnlockTells (arg2) {v : State n} (truthful : Truthful cfg s) (hushed : Hushed (setUnlock cfg i arg2 s) v) :
    Truthful cfg (signalDoorStatus cfg i v) ↔ Tells cfg s (.setUnlock i arg2) := by
  have masks := AirlockSources.clearedLock i s
  have shown' := unlockShown arg2 (w := AirlockSources.cleared i s) truthful (fun _ _ => rfl) (fun p ne => updateOther _ _ ne) hushed
  rwa [unlockMaskFree cfg i arg2 (congrArg LockState.admDisableMask masks) (congrArg LockState.airLockMask masks)] at shown'

theorem setLockTells (arg2) {v : State n} (truthful : Truthful cfg s) (hushed : Hushed (setLock cfg i arg2 s) v) :
    Truthful cfg (signalDoorStatus cfg i v) ↔ Tells cfg s (.setLock i arg2) := by
  have masks := AirlockSources.clearedLock i s
  have shut : Shut ((AirlockSources.cleared i s).doors i) ↔ Shut (s.doors i) := by
    unfold Shut
    rw [masks]
  have shown' := lockShown arg2 (w := AirlockSources.cleared i s) truthful (fun _ _ => rfl) (fun p ne => updateOther _ _ ne) hushed
  rw [lockMaskFree cfg i arg2 (congrArg LockState.admDisableMask masks),shut,and_imp] at shown'
  exact shown'

theorem unsetTells (truthful : Truthful cfg s) : Truthful cfg (signalDoorStatus cfg i (unset i s)) := by
  have same : ∀ p, p ≠ i → (unset i s).doors p = s.doors p := fun p ne => updateOther _ _ ne
  refine (truthfulShown (c := False) (u := unset i s) truthful (fun _ _ => rfl) (.refl _) (fun p ne => ?_) (fun h => h.elim) (fun p ne _ => ?_)).mpr
    (fun h => h.elim (C := ∀ p, Other cfg i p → Keeps s p 0))
  · rw [same p ne]
  · rw [same p ne]

theorem statusTells (truthful : Truthful cfg s) : Truthful cfg (signalDoorStatus cfg i s) :=
  (truthfulShown (c := False) truthful (fun _ _ => rfl) (.refl s) (fun _ _ => rfl) (fun h => h.elim) (fun _ _ _ => rfl)).mpr
    (fun h => h.elim (C := ∀ p, Other cfg i p → Keeps s p 0))

theorem hushedTells (h : Hushed s t) (truthful : Truthful cfg s) : Truthful cfg t := fun i => (tendsHushed h i).own (truthful i)

/- Remote control's own bits: no signal at all. -/
theorem blockTells (f : Mask → Mask) (truthful : Truthful cfg s) :
    Truthful cfg (s.update i (fun d => {d with airLockMask := f d.airLockMask})) ↔ (HasReader cfg i → Keeps s i (f (s.doors i).airLockMask)) := by
  have own : (s.update i (fun d => {d with airLockMask := f d.airLockMask})).doors i = {s.doors i with airLockMask := f (s.doors i).airLockMask} :=
    updateSelf _ _ _
  have here := truthfulAt (s := s) (t := s.update i (fun d => {d with airLockMask := f d.airLockMask})) (fun _ => rfl) (truthful i) (by rw [own])
  rw [own] at here
  rw [← here]
  constructor
  · exact fun now => now i
  · intro now p
    by_cases same : p = i
    · rw [same]
      exact now
    · intro side present
      rw [updateOther _ _ same]
      exact truthful p side present

/- One act: where all is true before, it is true afterwards just when the act tells. -/
theorem actTells {act : Act n} (truthful : Truthful cfg s) (moved : Moves cfg act s t) : Truthful cfg t ↔ Tells cfg s act := by
  cases act with
  | still =>
    rcases moved with hushed | ⟨i,rfl⟩
    · exact iff_of_true (hushedTells hushed truthful) trivial
    · exact iff_of_true (statusTells truthful) trivial
  | tick i => exact moved ▸ tickTells truthful
  | unlock i mask => exact moved ▸ unlockTells mask truthful
  | lock i mask => exact moved ▸ lockTells mask truthful
  | sense i input => exact moved ▸ senseTells input truthful
  | setUnlock i arg2 =>
    obtain ⟨v,hushed,rfl⟩ := moved
    exact setUnlockTells arg2 truthful hushed
  | setLock i arg2 =>
    obtain ⟨v,hushed,rfl⟩ := moved
    exact setLockTells arg2 truthful hushed
  | unset i => exact iff_of_true (moved ▸ unsetTells truthful) trivial
  | block i arg2 => exact moved ▸ blockTells (· ||| arg2) truthful
  | unblock i arg2 => exact moved ▸ blockTells (· &&& ~~~arg2) truthful

end

/- The step is a run of acts each of which tells where it is taken. -/
def Meets (s : State n) (a : Step n) : Prop := Runs (Moves cfg) (Tells cfg) s (step cfg s a)

/- One row of the replay: its own door is signalled behind the change. -/
def RowTells (s : State n) (row : StateRow) : Prop :=
  ∀ i, getDoorByName cfg row.door = some i → row.mode = wUnlock → Tells cfg s (.unlock i row.arg)

def Replays : State n → List StateRow → Prop
  | _, [] => True
  | s, row :: rows => RowTells cfg s row ∧ Replays (restoreRow cfg s row) rows

theorem rowTruthful (row) {s : State n} (timed : ∀ i, Relock.Running i s) (truthful : Truthful cfg s) (tells : RowTells cfg s row) :
    Truthful cfg (restoreRow cfg s row) := by
  unfold restoreRow
  cases found : getDoorByName cfg row.door with
  | none => exact truthful
  | some i =>
    dsimp only
    split
    · rename_i mode
      exact (unlockShown row.arg truthful (fun _ _ => rfl) (fun _ _ => rfl) (.refl _)).mpr (tells i found mode)
    · split
      · -- Every countdown still runs, so that nothing is released.
        refine (lockShown row.arg truthful (fun _ _ => rfl) (fun _ _ => rfl) (.refl _)).mpr fun ⟨_,shut⟩ => ?_
        exact absurd shut.1 (by have low := (timed i).1; omega)
      · exact statusTells truthful

theorem startTruthful (rows : List StateRow) (replays : Replays cfg (initial rows) rows) : Truthful cfg (start cfg rows) := by
  have fresh : Truthful cfg (initial rows) := fun i side _ => iff_of_false Bool.false_ne_true (fun blocked => blocked.elim (absurd rfl) (absurd rfl))
  have timed : ∀ i, Relock.Running i (initial (n := n) rows) := fun i => ⟨le_refl 1,show (1 : Int) ≤ 13 by decide⟩
  have run : ∀ (some' : List StateRow) (s : State n), (∀ i, Relock.Running i s) → Truthful cfg s → Replays cfg s some' →
      Truthful cfg (some'.foldl (restoreRow cfg) s) := by
    intro some'
    induction some' with
    | nil => exact fun s _ truthful _ => truthful
    | cons row rest ih =>
      intro s timed truthful replays
      exact ih _ (Relock.restoreTimed cfg row s timed) (rowTruthful cfg row timed truthful replays.1) replays.2
  exact run rows _ timed fresh replays

theorem stepTruthful {a : Step n} (truthful : Truthful cfg s) (meets : Meets cfg s a) : Truthful cfg (step cfg s a) := by
  refine runInvariant (Truthful cfg) ?_ meets truthful
  intro s act t tells truthful moved
  exact (actTells truthful moved).mpr tells

/- In a run whose acts all tell, every reader shows the state of its door after every step. -/
theorem signalsTrue (rows : List StateRow) (replays : Replays cfg (initial rows) rows) (run : SystemRun cfg (Meets cfg) (start cfg rows) t) :
    Truthful cfg t := by
  refine runInvariant (Truthful cfg) ?_ run (startTruthful cfg rows replays)
  rintro s a _ meets truthful rfl
  exact stepTruthful cfg truthful meets

section
variable {cfg} {guard : State n → Act n → Prop}

theorem movesCloses (still : ∀ s, guard s .still) : Closes (Runs (Moves cfg) guard) where
  refl := runRefl
  trans := runTrans
  rested h := runOne (a := .still) (still _) (.inl h.toHushed)

theorem movesHushed (still : ∀ s, guard s .still) (h : Hushed s t) : Runs (Moves cfg) guard s t := runOne (a := .still) (still s) (.inl h)
theorem movesStatus (still : ∀ s, guard s .still) (i : Fin n) (s : State n) : Runs (Moves cfg) guard s (signalDoorStatus cfg i s) :=
  runOne (a := .still) (still s) (.inr ⟨i,rfl⟩)

end

/- Every step but a datagram's is a run of acts of a pass. -/
theorem servedMoves {a : Step n} (served : ∀ datagram db, a ≠ .checkNetwork datagram db) (s : State n) :
    Runs (Moves cfg) (fun _ => OfPass) s (step cfg s a) := by
  have closes : Closes (Runs (Moves cfg) (fun _ => OfPass)) := movesCloses fun _ => trivial
  have tick : ∀ i s, Runs (Moves cfg) (fun _ => OfPass) s (lockTimer cfg i s) := fun i s => runOne (a := .tick i) trivial rfl
  have unlock : ∀ i mask s, Runs (Moves cfg) (fun _ => OfPass) s (unlockDoor cfg i mask s).1 :=
    fun i mask s => runOne (a := .unlock i mask) trivial rfl
  have sense : ∀ i input s, Runs (Moves cfg) (fun _ => OfPass) s (inputSense cfg i (inputDiff (s.doors i) input) input s) :=
    fun i input s => runOne (a := .sense i input) trivial rfl
  have alarm : ∀ i input s, Runs (Moves cfg) (fun _ => OfPass) s (inputAlarm cfg i input s) :=
    fun i input s => movesHushed (fun _ => trivial) (hushedAlarm cfg i input s)
  cases a with
  | checkNetwork datagram db => exact absurd rfl (served datagram db)
  | mainLoop pass =>
    exact runTrans (doorTurnsWithin cfg closes tick unlock pass s) (checkInputsWithin cfg closes (fun i => unlock i 1) sense alarm _ _ _)
  | processUserInfo r cb => exact processUserInfoWithin cfg closes (unlock r.door) cb s
  | checkInputs reading inputVal => exact checkInputsWithin cfg closes (fun i => unlock i 1) sense alarm reading inputVal s

/- A datagram is its one act, taken with the locks of the state `b` that it came to, between steps that only reply,
report or show. -/
def Locked (b s : State n) : Prop := ∀ i, (s.doors i).toLockState = (b.doors i).toLockState

def OfAct (b : State n) (act : Act n) (s : State n) (a : Act n) : Prop := a = .still ∨ a = act ∧ Locked b s

section
variable {b : State n} {act : Act n}

theorem ofHushed (h : Hushed s t) : Runs (Moves cfg) (OfAct b act) s t := movesHushed (fun _ => .inl rfl) h
theorem ofStatus (i : Fin n) (s : State n) : Runs (Moves cfg) (OfAct b act) s (signalDoorStatus cfg i s) :=
  movesStatus (fun _ => .inl rfl) i s
theorem ofAct (base : Locked b s) (moved : Moves cfg act s t) : Runs (Moves cfg) (OfAct b act) s t := runOne (a := act) (.inr ⟨rfl,base⟩) moved
theorem ofSend (reply) (s : State n) : Runs (Moves cfg) (OfAct b act) s (sendto reply s) := ofHushed cfg (restedSendto reply s).toHushed

end

theorem setMoves {b : State n} (db i door arg1 argX) {s : State n} (base : Locked b s) (present : argX.isSome = true) :
    Runs (Moves cfg) (OfAct b (commandAct db i wSet arg1 argX)) s (setCommand cfg db i door arg1 (argX.getD 0) s) := by
  have notGet : wSet ≠ wGet := by decide
  simp only [commandAct,if_neg notGet,true_and,present,if_true]
  unfold setCommand
  have reply : ∀ {act : Act n} (ret : Nat) (s : State n), Runs (Moves cfg) (OfAct b act) s (if ret = 0 then sendto rOk s else sendto rErr s) := by
    intro act ret s
    split <;> exact ofSend cfg _ s
  split
  · exact runTrans (ofAct cfg base ⟨_,(restedRow door wLock wUnlock (argX.getD 0) db _).toHushed,rfl⟩) (reply _ _)
  · split
    · exact runTrans (ofAct cfg base ⟨_,(restedRow door wUnlock wLock (argX.getD 0) db _).toHushed,rfl⟩) (reply _ _)
    · exact ofSend cfg _ s

theorem unsetMoves {b : State n} (db i door arg1 argX) {s : State n} (base : Locked b s) :
    Runs (Moves cfg) (OfAct b (commandAct db i wUnset arg1 argX)) s (unsetCommand cfg db i door arg1 (argX.getD 0) s) := by
  have notGet : wUnset ≠ wGet := by decide
  have notSet : wUnset ≠ wSet := by decide
  simp only [commandAct,if_neg notGet,notSet,false_and,if_false,if_true]
  have stored := (restedDb door arg1 (argX.getD 0) .dbUnset db.first s).toHushed
  unfold unsetCommand
  dsimp only
  by_cases done : db.first = true
  · rw [if_pos ((dbDone ..).mpr done)]
    by_cases held : arg1 = wUnlock ∨ arg1 = wLock
    · rw [if_pos ⟨done,held⟩,if_pos held]
      exact runTrans (ofHushed cfg stored) (runTrans (ofAct cfg (fun j => (stored.lock j).trans (base j)) rfl) (ofSend cfg _ _))
    · rw [if_neg (fun h => held h.2),if_neg held]
      exact runTrans (ofHushed cfg stored) (ofSend cfg _ _)
  · rw [if_neg (fun h => done ((dbDone ..).mp h)),if_neg (fun h => done h.1)]
    exact runTrans (ofHushed cfg stored) (ofSend cfg _ _)

theorem doMoves {b : State n} (db i arg1 argX) {s : State n} (base : Locked b s) (present : argX.isSome = true) :
    Runs (Moves cfg) (OfAct b (commandAct db i wDo arg1 argX)) s (doCommand cfg i arg1 (argX.getD 0) s) := by
  have notGet : wDo ≠ wGet := by decide
  have notSet : wDo ≠ wSet := by decide
  have notUnset : wDo ≠ wUnset := by decide
  simp only [commandAct,if_neg notGet,notSet,notUnset,false_and,if_false,true_and,present,if_true]
  have reply : ∀ {act : Act n} (ret : Mask) (s : State n),
      Runs (Moves cfg) (OfAct b act) s (if ret ≠ 0 then signalDoorStatus cfg i (sendto rOk s) else sendto rErr s) := by
    intro act ret s
    split
    · exact runTrans (ofSend cfg _ s) (ofStatus cfg i _)
    · exact ofSend cfg _ s
  unfold doCommand
  split
  · exact runTrans (ofAct cfg base rfl) (reply _ _)
  · split
    · exact runTrans (ofAct cfg base rfl) (reply _ _)
    · split
      · exact runTrans (ofAct cfg base rfl) (ofSend cfg _ _)
      · split
        · exact runTrans (ofAct cfg base rfl) (ofSend cfg _ _)
        · exact ofSend cfg _ s

theorem commandMoves {b : State n} (db i cmd door arg1 argX) {s : State n} (base : Locked b s) :
    Runs (Moves cfg) (OfAct b (commandAct db i cmd arg1 argX)) s (command cfg db i cmd door arg1 argX s) := by
  unfold command
  dsimp only
  split
  · exact ofHushed cfg (restedGet db i door arg1 s).toHushed
  · split
    · rename_i set
      obtain ⟨rfl,present⟩ := set
      exact setMoves cfg db i door arg1 argX base present
    · split
      · rename_i unset
        subst unset
        exact unsetMoves cfg db i door arg1 argX base
      · split
        · rename_i does
          obtain ⟨rfl,present⟩ := does
          exact doMoves cfg db i arg1 argX base present
        · exact ofSend cfg _ s

theorem networkMoves (datagram db) (s : State n) :
    Runs (Moves cfg) (OfAct s (datagramAct cfg datagram db)) s (checkNetwork cfg datagram db s) := by
  by_cases empty : datagram = []
  · rw [checkNetwork,if_pos empty]
    exact runRefl s
  unfold checkNetwork datagramAct
  simp only [empty,if_false]
  generalize words datagram = w
  obtain ⟨cmd,door,arg1,argX⟩ := w
  have seen : ∀ {act : Act n} event name, Runs (Moves cfg) (OfAct s act) s (s.emit (.sendEvent event name)) :=
    fun event name => ofHushed cfg (restedEmit (e := .sendEvent event name) trivial s).toHushed
  cases cmd <;> cases door <;> cases arg1
  case some.some.some cmd door arg1 =>
    dsimp only
    cases getDoorByName cfg door with
    | none => exact runTrans (seen _ _) (ofSend cfg _ _)
    | some i => exact runTrans (seen _ _) (commandMoves cfg db i cmd door arg1 (argX.map toInt) fun _ => rfl)
  all_goals exact runTrans (seen _ _) (ofSend cfg _ _)

def unsignalled : Act n → Bool
  | .block .. | .unblock .. => true
  | _ => false

/- Where no door has another one as its partner, every step but a `block` or `unblock` meets the condition. -/
theorem singleMeets (single : ∀ i p, ¬ Other cfg i p) {a : Step n}
    (signalled : ∀ datagram db, a = .checkNetwork datagram db → unsignalled (datagramAct cfg datagram db) = false) (s : State n) :
    Meets cfg s a := by
  have tells : ∀ (s : State n) (act : Act n), unsignalled act = false → Tells cfg s act := by
    intro s act told
    cases act with
    | tick i => exact fun _ _ _ _ p other => absurd other (single i p)
    | unlock i mask => exact fun _ p other => absurd other (single i p)
    | lock i mask => exact fun _ _ p other => absurd other (single i p)
    | sense i input => exact ⟨fun _ p other => absurd other (single i p),fun _ _ p other => absurd other (single i p)⟩
    | setUnlock i arg2 => exact fun _ p other => absurd other (single i p)
    | setLock i arg2 => exact fun _ _ p other => absurd other (single i p)
    | block i arg2 => cases told
    | unblock i arg2 => cases told
    | _ => trivial
  by_cases served : ∀ datagram db, a ≠ .checkNetwork datagram db
  · refine runMono (fun s act of => tells s act ?_) (servedMoves cfg served s)
    cases act <;> first | rfl | exact of.elim
  · obtain ⟨datagram,db,rfl⟩ : ∃ datagram db, a = .checkNetwork datagram db := by simpa using served
    refine runMono (fun s act of => tells s act ?_) (networkMoves cfg datagram db s)
    rcases of with rfl | ⟨rfl,_⟩
    · rfl
    · exact signalled datagram db rfl

theorem tellsLocked {b : State n} (base : Locked b s) (act : Act n) : Tells cfg s act ↔ Tells cfg b act := by
  have timer : ∀ i, (s.doors i).doorLockTimer = (b.doors i).doorLockTimer := fun i => congrArg LockState.doorLockTimer (base i)
  have input : ∀ i, (s.doors i).lastInput = (b.doors i).lastInput := fun i => congrArg LockState.lastInput (base i)
  have adm : ∀ i, (s.doors i).admDisableMask = (b.doors i).admDisableMask := fun i => congrArg LockState.admDisableMask (base i)
  have air : ∀ i, (s.doors i).airLockMask = (b.doors i).airLockMask := fun i => congrArg LockState.airLockMask (base i)
  have shut : ∀ i, Shut (s.doors i) ↔ Shut (b.doors i) := fun i => by rw [Shut,Shut,timer,input]
  have keeps : ∀ i mask, Keeps s i mask ↔ Keeps b i mask := fun i mask => by rw [Keeps,Keeps,adm,air]
  have unlocks : ∀ i mask, unlockMask cfg i mask (s.doors i) = unlockMask cfg i mask (b.doors i) := fun i mask => by
    rw [unlockMask,unlockMask,adm,air]
  have locks : ∀ i mask, lockMask cfg i mask (s.doors i) = lockMask cfg i mask (b.doors i) := fun i mask => by rw [lockMask,lockMask,adm]
  have diff : ∀ i reading, inputDiff (s.doors i) reading = inputDiff (b.doors i) reading := fun i reading => by
    rw [inputDiff,inputDiff,input]
  unfold Tells
  cases act <;> simp only [timer,input,air,shut,keeps,unlocks,locks,diff]

/- A datagram meets the condition when its one act tells. -/
theorem networkMeets {datagram : Bytes} {db : Sqlite} (tells : Tells cfg s (datagramAct cfg datagram db)) :
    Meets cfg s (.checkNetwork datagram db) := by
  refine runMono ?_ (networkMoves cfg datagram db s)
  rintro u act (rfl | ⟨rfl,base⟩)
  · trivial
  · exact (tellsLocked cfg base _).mpr tells

def setUnlockB : Bytes := ascii ['s','e','t',' ','B',' ','u','n','l','o','c','k',' ','1']
def blockB : Bytes := ascii ['d','o',' ','B',' ','b','l','o','c','k',' ','1']
def unlockA : Bytes := ascii ['d','o',' ','A',' ','u','n','l','o','c','k',' ','1']

def commanded (datagrams : List Bytes) : State 2 :=
  datagrams.foldl (fun s datagram => step airlock s (.checkNetwork datagram ⟨true,true⟩)) (start airlock [])

/- B is blocked by its administrator and shows it; the blockade that A's unlock adds changes nothing to that. -/
theorem heldShown : Truthful airlock (commanded [setUnlockB,unlockA]) ∧ Blocked ((commanded [setUnlockB,unlockA]).doors 1) ∧
    ((commanded [setUnlockB,unlockA]).doors 1).airLockMask = 1 := by
  have first : Meets airlock (start airlock []) (.checkNetwork setUnlockB ⟨true,true⟩) := by
    refine networkMeets airlock ?_
    rw [show datagramAct airlock setUnlockB ⟨true,true⟩ = .setUnlock 1 1 by decide]
    intro _ p other
    have partner : (airlock 1).airLockPartnerLocal = some p := other.names
    cases partner
  have second : Meets airlock (commanded [setUnlockB]) (.checkNetwork unlockA ⟨true,true⟩) := by
    refine networkMeets airlock ?_
    rw [show datagramAct airlock unlockA ⟨true,true⟩ = .unlock 0 1 by decide]
    intro _ p other
    have partner : p = 1 := (Option.some.inj other.names).symm
    subst partner
    exact fun free => absurd free (by decide)
  exact ⟨signalsTrue airlock [] trivial (runTrans (runOne first rfl) (runOne second rfl)),by decide,by decide⟩

/- A's unlock blocks B, and `block` does, and B's reader is told nothing. -/
theorem blockedUnshown :
    ¬ (∀ t, SystemRun airlock (fun _ _ => True) (start airlock []) t → Truthful airlock t) ∧
    ¬ Truthful airlock (commanded [unlockA]) ∧ ¬ Truthful airlock (commanded [blockB]) := by
  have unlocked : ¬ Truthful airlock (commanded [unlockA]) := fun truthful =>
    absurd ((truthful 1 .A (by decide)).mpr (by decide)) (by decide)
  refine ⟨fun always => unlocked (always _ (runOne (a := .checkNetwork unlockA ⟨true,true⟩) trivial rfl)),unlocked,fun truthful => ?_⟩
  exact absurd ((truthful 1 .A (by decide)).mpr (by decide)) (by decide)

end AccessControl.BlockedSignal
