import AccessControl.StateTable

/-! The replay of the table after a restart beside the live set commands. A set command
clears both masks of its door first; the replay does not, so the blockade that one
restored unlock puts on its partner stops the partner's own. -/
namespace AccessControl.Restore
open BitMask DoorTable Gpio DoorController RemoteControl Run LockSteps LockActs StateTable

variable {n : Nat} (cfg : Config n) {s t : State n} {rows table : List StateRow} {row : StateRow}

/- At most one row of mode 'unlock' or 'lock' for a door. -/
def Exclusive (a b : StateRow) : Prop := a.door = b.door → Holding a.mode → ¬ Holding b.mode
instance : Std.Symm Exclusive := ⟨fun _ _ h same heldB heldA => h same.symm heldA heldB⟩
def OnePerDoor (rows : List StateRow) : Prop := rows.Pairwise Exclusive

/- The live set command that corresponds to a row, for a door that is configured. -/
def liveRow (s : State n) (row : StateRow) : State n :=
  match getDoorByName cfg row.door with
  | none => s
  | some i => setCommand cfg ⟨true,true⟩ i row.door row.mode row.arg s

def live (rows : List StateRow) : State n := rows.foldl (liveRow cfg) (initial [])

/- Every output under a restored mask is driven as by the live commands, whatever the
order of the rows is in the one and the other. -/
def Faithful (table : List StateRow) : Prop :=
  ∀ rows commands, rows.Perm table → commands.Perm table →
    ∀ i k, (effective cfg i ((start cfg rows).doors i).admDisableMask).getLsbD k = true →
      driven (start cfg rows).log k = driven (live cfg commands).log k

def Covers (row : StateRow) (k : Nat) : Prop :=
  ∃ i, getDoorByName cfg row.door = some i ∧ (effective cfg i row.arg).getLsbD k = true

/- The door of `b` is opened by its row and has the door of `a` as its partner. -/
def Blocks (b a : StateRow) : Prop :=
  ∃ i j, getDoorByName cfg a.door = some i ∧ getDoorByName cfg b.door = some j ∧
    (cfg j).airLockPartnerLocal = some i ∧ effective cfg j b.arg ≠ 0

def Apart (table : List StateRow) : Prop :=
  ∀ a ∈ table, ∀ b ∈ table, a.mode = wUnlock → b.mode = wLock → ∀ k, Covers cfg a k → ¬ Covers cfg b k

/- Each output some row unlocks has an unlock row that only rows over the same output can
block: whoever comes first, one of them drives it. -/
def Free (table : List StateRow) : Prop :=
  ∀ k, (∃ a ∈ table, a.mode = wUnlock ∧ Covers cfg a k) →
    ∃ a ∈ table, a.mode = wUnlock ∧ Covers cfg a k ∧
      ∀ b ∈ table, b.mode = wUnlock → Blocks cfg b a → Covers cfg b k

def operation (row : StateRow) : DoorOperations := if row.mode = wUnlock then .doUnlock else .doLock

theorem lockNotUnlock : wLock ≠ wUnlock := by decide

section
variable {cfg}

theorem coversFound {i : Fin n} (found : getDoorByName cfg row.door = some i) (k : Nat) :
    Covers cfg row k ↔ (effective cfg i row.arg).getLsbD k = true := by
  constructor
  · rintro ⟨j,same,bit⟩
    cases Option.some.inj (found.symm.trans same)
    exact bit
  · exact fun bit => ⟨i,found,bit⟩

end

/- A live command drives what its row covers, and nothing else. -/
theorem liveDriven (row) (s : State n) (k : Nat) :
    (Covers cfg row k ∧ Holding row.mode → driven (liveRow cfg s row).log k = some (operation row)) ∧
    (¬ (Covers cfg row k ∧ Holding row.mode) → driven (liveRow cfg s row).log k = driven s.log k) := by
  unfold liveRow
  cases found : getDoorByName cfg row.door with
  | none => exact ⟨fun h => by simp [Covers,found] at h,fun _ => rfl⟩
  | some i =>
    have notGet : wSet ≠ wGet := by decide
    obtain ⟨v,w,before,taken,after⟩ := setActing cfg ⟨true,true⟩ i row.door row.mode (some row.arg) s rfl
    simp only [commandAct,if_neg notGet,true_and,Option.isSome_some,if_true,Option.getD_some] at taken
    dsimp only [Option.getD_some] at after ⊢
    rw [after.driven,coversFound found k]
    unfold operation Holding
    by_cases unlock : row.mode = wUnlock
    · simp only [unlock,if_true] at taken ⊢
      rw [show w = setUnlock cfg i row.arg v from taken,setUnlockDriven,before.driven]
      exact ⟨fun h => if_pos h.1,fun h => if_neg (fun bit => h ⟨bit,.inl trivial⟩)⟩
    · by_cases lock : row.mode = wLock
      · simp only [lock,lockNotUnlock,if_true,if_false] at taken ⊢
        rw [show w = setLock cfg i row.arg v from taken,setLockDriven,before.driven]
        exact ⟨fun h => if_pos h.1,fun h => if_neg (fun bit => h ⟨bit,.inr trivial⟩)⟩
      · simp only [if_neg unlock,if_neg lock] at taken
        have still : Still v w := taken
        rw [still.driven,before.driven]
        exact ⟨fun h => absurd h.2 (fun e => e.elim unlock lock),fun _ => rfl⟩

theorem liveOnly {o : DoorOperations} {k : Nat} (same : ∀ row ∈ rows, Covers cfg row k → Holding row.mode → operation row = o)
    (s : State n) (start : driven s.log k = some o ∨ ∃ row ∈ rows, Covers cfg row k ∧ Holding row.mode) :
    driven (rows.foldl (liveRow cfg) s).log k = some o := by
  induction rows generalizing s with
  | nil =>
    obtain driven' | ⟨_,none,_⟩ := start
    · exact driven'
    · exact absurd none List.not_mem_nil
  | cons row rows ih =>
    refine ih (fun row inside => same row (List.mem_cons_of_mem _ inside)) _ ?_
    by_cases covers : Covers cfg row k ∧ Holding row.mode
    · left
      rw [(liveDriven cfg row s k).1 covers,same row List.mem_cons_self covers.1 covers.2]
    · rw [(liveDriven cfg row s k).2 covers]
      refine start.imp id ?_
      rintro ⟨other,inside,h⟩
      rcases List.mem_cons.mp inside with rfl | later
      · exact absurd h covers
      · exact ⟨other,later,h⟩

theorem liveLast {k : Nat} (covers : Covers cfg row k ∧ Holding row.mode) (rows : List StateRow) :
    driven (live cfg (rows ++ [row])).log k = some (operation row) := by
  rw [live,List.foldl_append]
  exact (liveDriven cfg row _ k).1 covers

/- Before a row is replayed: no countdown has ended, the masks of the doors still to come
are clear, and a blockade is none or full. -/
structure Ready (rows : List StateRow) (s : State n) : Prop where
  timer : ∀ i, 0 < (s.doors i).doorLockTimer
  adm : ∀ row ∈ rows, ∀ i, Hits cfg i row → (s.doors i).admDisableMask = 0
  air : ∀ i, (s.doors i).airLockMask = 0 ∨ (s.doors i).airLockMask = (cfg i).maskFull

theorem startReady (rows table) : Ready cfg rows (initial table) :=
  ⟨fun _ => show (0 : Int) < 1 by decide,fun _ _ _ _ => rfl,fun _ => .inl rfl⟩

/- A row in each of its cases: it unlocks, is blocked, locks, or is passed over. -/
inductive Replays (row : StateRow) (s t : State n) : Prop where
  | unlocks (i) (found : getDoorByName cfg row.door = some i) (mode : row.mode = wUnlock)
      (free : (s.doors i).airLockMask = 0)
      (driven : ∀ k, driven t.log k = if (effective cfg i row.arg).getLsbD k then some .doUnlock else driven s.log k)
      (air : ∀ j, (t.doors j).airLockMask = if effective cfg i row.arg ≠ 0 ∧ (cfg i).airLockPartnerLocal = some j
        then (cfg j).maskFull else (s.doors j).airLockMask)
  | blocked (i) (found : getDoorByName cfg row.door = some i) (mode : row.mode = wUnlock)
      (full : (s.doors i).airLockMask = (cfg i).maskFull) (some : (s.doors i).airLockMask ≠ 0)
      (driven : ∀ k, driven t.log k = driven s.log k) (air : ∀ j, (t.doors j).airLockMask = (s.doors j).airLockMask)
  | locks (i) (found : getDoorByName cfg row.door = some i) (mode : row.mode = wLock)
      (driven : ∀ k, driven t.log k = if (effective cfg i row.arg).getLsbD k then some .doLock else driven s.log k)
      (air : ∀ j, (t.doors j).airLockMask = (s.doors j).airLockMask)
  | passes (none : ∀ i, ¬ Hits cfg i row) (driven : ∀ k, driven t.log k = driven s.log k)
      (air : ∀ j, (t.doors j).airLockMask = (s.doors j).airLockMask)

theorem blockedMask {i : Fin n} {d : Door} (full : d.airLockMask = (cfg i).maskFull) (mask) : unlockMask cfg i mask d = 0 := by
  apply maskZero.mpr
  intro k
  apply Bool.eq_false_iff.mpr
  intro bit
  obtain ⟨_,_,_,set,clear,_⟩ := (unlockMaskBit ..).mp bit
  rw [full,set] at clear
  contradiction

theorem restoreReplays (ready : Ready cfg (row :: rows) s) : Replays cfg row s (restoreRow cfg s row) := by
  have written : ∀ (t : State n) (i j : Fin n),
      ((t.update i (fun d => {d with admDisableMask := row.arg})).doors j).airLockMask = (t.doors j).airLockMask := by
    intro t i j
    rw [updateDoor]
    split <;> rfl
  unfold restoreRow
  cases found : getDoorByName cfg row.door with
  | none => exact .passes (fun i hits => by simp [Hits,found] at hits) (fun _ => rfl) (fun _ => rfl)
  | some i =>
    dsimp only
    have status := fun s : State n => drivenQuiet (signalStatusLog cfg i s)
    by_cases unlock : row.mode = wUnlock
    · have adm := ready.adm row List.mem_cons_self i ⟨found,.inl unlock⟩
      simp only [if_pos unlock]
      by_cases free : (s.doors i).airLockMask = 0
      · have mask := unlockMaskFree cfg i row.arg adm free
        refine .unlocks i found unlock free (fun k => ?_) (fun j => ?_)
        · rw [status,updateLog,unlockDriven,mask]
        · rw [signalStatusDoors,written,unlockDoors,mask]
          by_cases zero : effective cfg i row.arg = 0
          · simp only [zero,if_true,ne_eq,not_true_eq_false,false_and,if_false]
          · simp only [zero,if_false,blockadeFull,ne_eq,not_false_eq_true,true_and]
      · have full := (ready.air i).resolve_left free
        have none := blockedMask cfg full row.arg
        refine .blocked i found unlock full free (fun k => ?_) (fun j => ?_)
        · rw [status,updateLog,unlockDriven,none]
          simp
        · rw [signalStatusDoors,written,unlockDoors,if_pos none]
    · by_cases lock : row.mode = wLock
      · have adm := ready.adm row List.mem_cons_self i ⟨found,.inr lock⟩
        have mask := lockMaskFree cfg i row.arg adm
        simp only [if_neg unlock,if_pos lock]
        refine .locks i found lock (fun k => ?_) (fun j => ?_)
        · rw [status,updateLog,lockDriven,mask]
        · have running : ¬ ((s.doors i).doorLockTimer ≤ 0 ∧ (s.doors i).lastInput.getLsbD 2 = true) := by
            have positive := ready.timer i
            omega
          rw [signalStatusDoors,written,lockDoors]
          split
          · rfl
          · simp only [blockadeZero,if_neg running,ite_self]
      · refine .passes (fun j hits => hits.2.elim unlock lock) (fun k => ?_) (fun j => ?_)
        · simp only [if_neg unlock,if_neg lock]
          exact status s k
        · simp only [if_neg unlock,if_neg lock,signalStatusDoors]

theorem restoreReady (once : OnePerDoor (row :: rows)) (ready : Ready cfg (row :: rows) s) :
    Ready cfg rows (restoreRow cfg s row) := by
  refine ⟨fun i => ?_,fun other inside i hits => ?_,fun i => ?_⟩
  · have written : ∀ (t : State n) (j : Fin n),
        ((t.update j (fun d => {d with admDisableMask := row.arg})).doors i).doorLockTimer = (t.doors i).doorLockTimer := by
      intro t j
      rw [updateDoor]
      split <;> rfl
    have positive := ready.timer i
    unfold restoreRow
    cases getDoorByName cfg row.door with
    | none => exact positive
    | some j =>
      dsimp only
      rw [signalStatusDoors]
      split
      · rw [written,unlockTimer]
        split
        · exact positive
        · split
          · decide
          · exact positive
      · split
        · rw [written,lockKeepsTimer]
          exact positive
        · exact positive
  · have apart : ¬ Hits cfg i row := by
      intro mine
      exact (List.pairwise_cons.mp once).1 other inside (sameDoor cfg mine.1 hits.1) mine.2 hits.2
    rw [restoreAdm,if_neg apart]
    exact ready.adm other (List.mem_cons_of_mem _ inside) i hits
  · cases restoreReplays cfg ready with
    | unlocks j found mode free driven air =>
      rw [air]
      split
      · exact .inr rfl
      · exact ready.air i
    | blocked j found mode full some driven air => rw [air]; exact ready.air i
    | locks j found mode driven air => rw [air]; exact ready.air i
    | passes none driven air => rw [air]; exact ready.air i

/- Where the door of `a` is blockaded its output is unlocked by then, and so it is once `a` is replayed. -/
theorem replayedUnlock {a : StateRow} {k : Nat} (covers : Covers cfg a k) (mode : a.mode = wUnlock)
    (lockless : row.mode = wLock → ¬ Covers cfg row k) (blocker : row.mode = wUnlock → Blocks cfg row a → Covers cfg row k)
    (ready : Ready cfg (row :: rows) s)
    (opened : ∀ i, getDoorByName cfg a.door = some i → (s.doors i).airLockMask ≠ 0 → driven s.log k = some .doUnlock)
    (goal : driven s.log k = some .doUnlock ∨ a ∈ row :: rows) :
    (∀ i, getDoorByName cfg a.door = some i → ((restoreRow cfg s row).doors i).airLockMask ≠ 0 →
      driven (restoreRow cfg s row).log k = some .doUnlock) ∧
    (driven (restoreRow cfg s row).log k = some .doUnlock ∨ a ∈ rows) := by
  cases restoreReplays cfg ready with
  | unlocks j found unlock free driven' air =>
    have kept : driven s.log k = some .doUnlock → driven (restoreRow cfg s row).log k = some .doUnlock := by
      intro h
      rw [driven',h,ite_self]
    refine ⟨fun i door blocked => ?_,?_⟩
    · rw [air] at blocked
      split at blocked
      · rename_i blocks
        have hit := blocker unlock ⟨i,j,door,found,blocks.2,blocks.1⟩
        rw [driven',if_pos ((coversFound found k).mp hit)]
      · exact kept (opened i door blocked)
    · rcases goal with done | inside
      · exact .inl (kept done)
      · rcases List.mem_cons.mp inside with rfl | later
        · left
          rw [driven',if_pos ((coversFound found k).mp covers)]
        · exact .inr later
  | blocked j found unlock full some driven' air =>
    refine ⟨fun i door blocked => ?_,?_⟩
    · rw [air] at blocked
      rw [driven']
      exact opened i door blocked
    · rw [driven']
      rcases goal with done | inside
      · exact .inl done
      · rcases List.mem_cons.mp inside with rfl | later
        · exact .inl (opened j found some)
        · exact .inr later
  | locks j found lock driven' air =>
    have outside : (effective cfg j row.arg).getLsbD k ≠ true := fun bit => lockless lock ⟨j,found,bit⟩
    rw [driven',if_neg outside]
    refine ⟨fun i door blocked => opened i door (air i ▸ blocked),goal.imp id (fun inside => ?_)⟩
    rcases List.mem_cons.mp inside with rfl | later
    · exact absurd (lock.symm.trans mode) lockNotUnlock
    · exact later
  | passes none driven' air =>
    rw [driven']
    refine ⟨fun i door blocked => opened i door (air i ▸ blocked),goal.imp id (fun inside => ?_)⟩
    rcases List.mem_cons.mp inside with rfl | later
    · obtain ⟨i,found,_⟩ := covers
      exact absurd ⟨found,.inl mode⟩ (none i)
    · exact later

/- The row that nothing else can block gets its output unlocked in every order. -/
theorem replayUnlocks {a : StateRow} {k : Nat} (covers : Covers cfg a k) (mode : a.mode = wUnlock)
    (lockless : ∀ row ∈ rows, row.mode = wLock → ¬ Covers cfg row k)
    (blockers : ∀ b ∈ rows, b.mode = wUnlock → Blocks cfg b a → Covers cfg b k)
    (once : OnePerDoor rows) (ready : Ready cfg rows s)
    (opened : ∀ i, getDoorByName cfg a.door = some i → (s.doors i).airLockMask ≠ 0 → driven s.log k = some .doUnlock)
    (goal : driven s.log k = some .doUnlock ∨ a ∈ rows) :
    driven (initRemoteControl cfg rows s).log k = some .doUnlock := by
  induction rows generalizing s with
  | nil => exact goal.resolve_right List.not_mem_nil
  | cons row rows ih =>
    have step := replayedUnlock cfg covers mode (lockless row List.mem_cons_self) (blockers row List.mem_cons_self) ready opened goal
    exact ih (fun row inside => lockless row (List.mem_cons_of_mem _ inside))
      (fun b inside => blockers b (List.mem_cons_of_mem _ inside)) (List.pairwise_cons.mp once).2
      (restoreReady cfg once ready) step.1 step.2

theorem replayLocks {k : Nat} (unlockless : ∀ row ∈ rows, row.mode = wUnlock → ¬ Covers cfg row k)
    (once : OnePerDoor rows) (ready : Ready cfg rows s)
    (goal : driven s.log k = some .doLock ∨ ∃ a ∈ rows, a.mode = wLock ∧ Covers cfg a k) :
    driven (initRemoteControl cfg rows s).log k = some .doLock := by
  induction rows generalizing s with
  | nil =>
    rcases goal with done | ⟨a,none,_⟩
    · exact done
    · exact absurd none List.not_mem_nil
  | cons row rows ih =>
    have step : driven (restoreRow cfg s row).log k = some .doLock ∨ ∃ a ∈ rows, a.mode = wLock ∧ Covers cfg a k := by
      have later : (¬ (row.mode = wLock ∧ Covers cfg row k)) → driven s.log k = some .doLock ∨
          ∃ a ∈ rows, a.mode = wLock ∧ Covers cfg a k := by
        intro other
        refine goal.imp id ?_
        rintro ⟨a,inside,h⟩
        rcases List.mem_cons.mp inside with rfl | inside
        · exact absurd h other
        · exact ⟨a,inside,h⟩
      cases restoreReplays cfg ready with
      | unlocks j found unlock free driven' air =>
        have outside : (effective cfg j row.arg).getLsbD k ≠ true :=
          fun bit => unlockless row List.mem_cons_self unlock ⟨j,found,bit⟩
        rw [driven',if_neg outside]
        exact later (fun h => lockNotUnlock (h.1.symm.trans unlock))
      | blocked j found unlock full some driven' air =>
        rw [driven']
        exact later (fun h => lockNotUnlock (h.1.symm.trans unlock))
      | locks j found lock driven' air =>
        rw [driven']
        split
        · exact .inl rfl
        · rename_i outside
          exact later (fun h => outside ((coversFound found k).mp h.2))
      | passes none driven' air =>
        rw [driven']
        refine later (fun h => ?_)
        obtain ⟨i,found,_⟩ := h.2
        exact none i ⟨found,.inr h.1⟩
    exact ih (fun row inside => unlockless row (List.mem_cons_of_mem _ inside)) (List.pairwise_cons.mp once).2
      (restoreReady cfg once ready) step

theorem onceSingle (once : OnePerDoor rows) : Single rows := by
  intro a inA b inB same heldA heldB
  by_contra ne
  exact once.forall inA inB ne same heldA heldB

theorem oncePerm (perm : rows.Perm table) (once : OnePerDoor table) : OnePerDoor rows :=
  (List.Perm.pairwise_iff (fun h => Std.Symm.symm _ _ h) perm).mpr once

/- The outputs under a restored mask are those that a holding row covers. -/
theorem restoredCovers (once : OnePerDoor rows) (k : Nat) :
    (∃ i, (effective cfg i ((start cfg rows).doors i).admDisableMask).getLsbD k = true) ↔
      ∃ row ∈ rows, Holding row.mode ∧ Covers cfg row k := by
  constructor
  · rintro ⟨i,bit⟩
    rcases restoredLast cfg rows (initial rows) i with ⟨row,inside,hits,mask⟩ | ⟨_,mask⟩
    · rw [start,mask] at bit
      exact ⟨row,inside,hits.2,i,hits.1,bit⟩
    · rw [start,mask] at bit
      have none : (effective cfg i 0).getLsbD k = false := by simp [effective]
      exact absurd bit (by rw [show ((initial (n := n) rows).doors i).admDisableMask = 0 from rfl,none]; decide)
  · rintro ⟨row,inside,holding,i,found,bit⟩
    refine ⟨i,?_⟩
    rcases restoredLast cfg rows (initial rows) i with ⟨other,there,hits,mask⟩ | ⟨none,_⟩
    · have same := onceSingle once other there row inside (sameDoor cfg hits.1 found) hits.2 holding
      rw [start,mask,same]
      exact bit
    · exact absurd ⟨found,holding⟩ (none row inside)

theorem replayFaithful (once : OnePerDoor table) (apart : Apart cfg table) (free : Free cfg table) : Faithful cfg table := by
  intro rows commands permR permC i k bit
  have onceR := oncePerm permR once
  obtain ⟨row,inside,holding,covers⟩ := (restoredCovers cfg onceR k).mp ⟨i,bit⟩
  have rowIn := permR.mem_iff.mp inside
  by_cases unlocked : ∃ a ∈ table, a.mode = wUnlock ∧ Covers cfg a k
  · obtain ⟨a,aIn,mode,hit,blockers⟩ := free k unlocked
    have lockless : ∀ b ∈ table, b.mode = wLock → ¬ Covers cfg b k := fun b inB lock => apart a aIn b inB mode lock k hit
    have left : driven (start cfg rows).log k = some .doUnlock :=
      replayUnlocks cfg hit mode (fun b inB => lockless b (permR.mem_iff.mp inB))
        (fun b inB => blockers b (permR.mem_iff.mp inB)) onceR (startReady cfg rows rows) (fun _ _ blocked => absurd rfl blocked)
        (.inr (permR.mem_iff.mpr aIn))
    have right : driven (live cfg commands).log k = some .doUnlock := by
      refine liveOnly cfg (fun b inB hit held => ?_) _ (.inr ⟨a,permC.mem_iff.mpr aIn,hit,.inl mode⟩)
      have unlock := held.resolve_right (fun lock => lockless b (permC.mem_iff.mp inB) lock hit)
      rw [operation,if_pos unlock]
    exact left.trans right.symm
  · have unlockless : ∀ b ∈ table, b.mode = wUnlock → ¬ Covers cfg b k := fun b inB mode hit => unlocked ⟨b,inB,mode,hit⟩
    have lock : row.mode = wLock := holding.resolve_left (fun mode => unlockless row rowIn mode covers)
    have left : driven (start cfg rows).log k = some .doLock :=
      replayLocks cfg (fun b inB => unlockless b (permR.mem_iff.mp inB)) onceR (startReady cfg rows rows)
        (.inr ⟨row,inside,lock,covers⟩)
    have right : driven (live cfg commands).log k = some .doLock := by
      refine liveOnly cfg (fun b inB hit held => ?_) _ (.inr ⟨row,permC.mem_iff.mpr rowIn,covers,holding⟩)
      rw [operation,if_neg (fun mode => unlockless b (permC.mem_iff.mp inB) mode hit)]
    exact left.trans right.symm

/- A row of the table can be the last command. -/
theorem lastCommand (inside : row ∈ table) : (table.erase row ++ [row]).Perm table :=
  (List.perm_append_singleton row (table.erase row)).trans (List.perm_cons_erase inside).symm

theorem faithfulApart (once : OnePerDoor table) (faithful : Faithful cfg table) : Apart cfg table := by
  intro a inA b inB unlock lock k overA overB
  obtain ⟨i,bit⟩ := (restoredCovers cfg once k).mpr ⟨a,inA,.inl unlock,overA⟩
  have first := faithful table _ (List.Perm.refl _) (lastCommand inA) i k bit
  have second := faithful table _ (List.Perm.refl _) (lastCommand inB) i k bit
  rw [liveLast cfg ⟨overA,.inl unlock⟩] at first
  rw [liveLast cfg ⟨overB,.inr lock⟩,first] at second
  have notUnlock : b.mode ≠ wUnlock := fun e => lockNotUnlock (lock.symm.trans e)
  simp only [operation,if_pos unlock,if_neg notUnlock,Option.some.injEq] at second
  contradiction

theorem replaysFull (replays : Replays cfg row s t) {i : Fin n} (full : (s.doors i).airLockMask = (cfg i).maskFull) :
    (t.doors i).airLockMask = (cfg i).maskFull := by
  cases replays with
  | unlocks j found mode free driven' air =>
    rw [air]
    split
    · rfl
    · exact full
  | blocked j found mode full' some driven' air => rw [air]; exact full
  | locks j found mode driven' air => rw [air]; exact full
  | passes none driven' air => rw [air]; exact full

/- Rows that block, replayed first: they leave output `k` alone and shut the doors of the
rows over it. -/
theorem blockersFirst {k : Nat} {first : List StateRow} (inside : ∀ b ∈ first, b ∈ table) (single : Single table)
    (blocker : ∀ b ∈ first, b.mode = wUnlock ∧ ¬ Covers cfg b k ∧
      ∃ a ∈ table, a.mode = wUnlock ∧ Covers cfg a k ∧ Blocks cfg b a)
    (once : OnePerDoor (first ++ rows)) (ready : Ready cfg (first ++ rows) s)
    (free : ∀ b ∈ first, ∀ j, getDoorByName cfg b.door = some j → (s.doors j).airLockMask = 0) :
    driven (initRemoteControl cfg first s).log k = driven s.log k ∧
    Ready cfg rows (initRemoteControl cfg first s) ∧
    (∀ i, (s.doors i).airLockMask = (cfg i).maskFull →
      ((initRemoteControl cfg first s).doors i).airLockMask = (cfg i).maskFull) ∧
    ∀ b ∈ first, ∀ i j, getDoorByName cfg b.door = some j → (cfg j).airLockPartnerLocal = some i →
      effective cfg j b.arg ≠ 0 → ((initRemoteControl cfg first s).doors i).airLockMask = (cfg i).maskFull := by
  induction first generalizing s with
  | nil => exact ⟨rfl,ready,fun _ h => h,fun b none => absurd none List.not_mem_nil⟩
  | cons b first ih =>
    have replays := restoreReplays cfg ready
    obtain ⟨unlock,outside,a,inA,unlockA,overA,i,j,foundA,foundB,partner,drives⟩ := blocker b List.mem_cons_self
    have opened : (∀ m, driven (restoreRow cfg s b).log m = if (effective cfg j b.arg).getLsbD m then some .doUnlock
          else driven s.log m) ∧
        ∀ m, ((restoreRow cfg s b).doors m).airLockMask = if effective cfg j b.arg ≠ 0 ∧ (cfg j).airLockPartnerLocal = some m
          then (cfg m).maskFull else (s.doors m).airLockMask := by
      cases replays with
      | unlocks j' found mode clear driven' air =>
        cases Option.some.inj (foundB.symm.trans found)
        exact ⟨driven',air⟩
      | blocked j' found mode full some driven' air =>
        exact absurd (free b List.mem_cons_self j' found) some
      | locks j' found mode driven' air => exact absurd (mode.symm.trans unlock) lockNotUnlock
      | passes none driven' air => exact absurd ⟨foundB,.inl unlock⟩ (none j)
    -- The doors of the other blockers stay open: `b` shuts only the door of a row over `k`.
    have later : ∀ c ∈ first, ∀ m, getDoorByName cfg c.door = some m → ((restoreRow cfg s b).doors m).airLockMask = 0 := by
      intro c inC m foundC
      have elsewhere : ¬ (effective cfg j b.arg ≠ 0 ∧ (cfg j).airLockPartnerLocal = some m) := by
        rintro ⟨_,shuts⟩
        cases Option.some.inj (partner.symm.trans shuts)
        have blockerC := blocker c (List.mem_cons_of_mem _ inC)
        have same := single c (inside c (List.mem_cons_of_mem _ inC)) a inA (sameDoor cfg foundC foundA)
          (.inl blockerC.1) (.inl unlockA)
        exact blockerC.2.1 (same ▸ overA)
      rw [opened.2,if_neg elsewhere]
      exact free c (List.mem_cons_of_mem _ inC) m foundC
    obtain ⟨driven',ready',full,shut⟩ := ih (fun c h => inside c (List.mem_cons_of_mem _ h))
      (fun c h => blocker c (List.mem_cons_of_mem _ h)) (List.pairwise_cons.mp once).2 (restoreReady cfg once ready) later
    refine ⟨?_,ready',fun m h => full m (replaysFull cfg replays h),?_⟩
    · have bit : (effective cfg j b.arg).getLsbD k ≠ true := fun bit => outside ⟨j,foundB,bit⟩
      exact driven'.trans ((opened.1 k).trans (if_neg bit))
    · intro c inC m q foundC partnerC drivesC
      rcases List.mem_cons.mp inC with rfl | inC
      · cases Option.some.inj (foundB.symm.trans foundC)
        refine full m ?_
        rw [opened.2,if_pos ⟨drivesC,partnerC⟩]
      · exact shut c inC m q foundC partnerC drivesC

/- With the doors of all rows over output `k` shut, the rest of the replay leaves it alone. -/
theorem shutReplay {k : Nat} (lockless : ∀ row ∈ rows, row.mode = wLock → ¬ Covers cfg row k)
    (once : OnePerDoor rows) (ready : Ready cfg rows s)
    (shut : ∀ a ∈ rows, a.mode = wUnlock → Covers cfg a k → ∀ i, getDoorByName cfg a.door = some i →
      (s.doors i).airLockMask = (cfg i).maskFull) :
    driven (initRemoteControl cfg rows s).log k = driven s.log k := by
  induction rows generalizing s with
  | nil => rfl
  | cons row rows ih =>
    have replays := restoreReplays cfg ready
    have kept : driven (restoreRow cfg s row).log k = driven s.log k := by
      cases replays with
      | unlocks j found unlock free driven' air =>
        rw [driven']
        refine if_neg (fun bit => ?_)
        have full := shut row List.mem_cons_self unlock ⟨j,found,bit⟩ j found
        rw [free] at full
        obtain ⟨inside,_⟩ := (effectiveBit ..).mp bit
        rw [outputs,← full] at inside
        simp at inside
      | blocked j found unlock full some driven' air => exact driven' k
      | locks j found lock driven' air =>
        rw [driven']
        exact if_neg (fun bit => lockless row List.mem_cons_self lock ⟨j,found,bit⟩)
      | passes none driven' air => exact driven' k
    have rest := ih (fun row inside => lockless row (List.mem_cons_of_mem _ inside)) (List.pairwise_cons.mp once).2
      (restoreReady cfg once ready)
      (fun a inside unlock hit i found => replaysFull cfg replays (shut a (List.mem_cons_of_mem _ inside) unlock hit i found))
    exact rest.trans kept

/- The rows that shut a door over output `k` and do not drive `k` themselves. -/
def Shuts (table : List StateRow) (k : Nat) (b : StateRow) : Prop :=
  b.mode = wUnlock ∧ ¬ Covers cfg b k ∧ ∃ a ∈ table, a.mode = wUnlock ∧ Covers cfg a k ∧ Blocks cfg b a

open Classical in
/- With such a row for every row over `k`, the order that begins with them leaves `k` undriven. -/
theorem shutFirst {k : Nat} (once : OnePerDoor table) (apart : Apart cfg table) {a : StateRow} (inA : a ∈ table)
    (unlockA : a.mode = wUnlock) (overA : Covers cfg a k)
    (shut : ∀ a ∈ table, a.mode = wUnlock → Covers cfg a k → ∃ b ∈ table, b.mode = wUnlock ∧ Blocks cfg b a ∧ ¬ Covers cfg b k) :
    ∃ rows, rows.Perm table ∧ driven (start cfg rows).log k = none := by
  let first := table.filter (fun b => decide (Shuts cfg table k b))
  let rest := table.filter (fun b => !decide (Shuts cfg table k b))
  have perm : (first ++ rest).Perm table := List.filter_append_perm (fun b => decide (Shuts cfg table k b)) table
  have inFirst : ∀ b ∈ first, b ∈ table ∧ Shuts cfg table k b := by
    intro b inB
    obtain ⟨inside,shuts⟩ := List.mem_filter.mp inB
    exact ⟨inside,of_decide_eq_true shuts⟩
  have inRest : ∀ b ∈ rest, b ∈ table := fun b inB => (List.mem_filter.mp inB).1
  have ordered := oncePerm perm once
  obtain ⟨before,ready,_,closed⟩ := blockersFirst cfg (fun b inB => (inFirst b inB).1) (onceSingle once)
    (fun b inB => (inFirst b inB).2) ordered (startReady cfg (first ++ rest) (first ++ rest)) (fun _ _ _ _ => rfl)
  refine ⟨first ++ rest,perm,?_⟩
  have split : start cfg (first ++ rest) = initRemoteControl cfg rest (initRemoteControl cfg first (initial (first ++ rest))) :=
    List.foldl_append
  rw [split,shutReplay cfg ?_ (List.pairwise_append.mp ordered).2.1 ready ?_,before]
  · rfl
  · exact fun b inB lock => apart a inA b (inRest b inB) unlockA lock k overA
  · intro c inC unlockC overC i foundC
    obtain ⟨b,inB,unlockB,⟨i',j,foundC',foundB,partner,drives⟩,outside⟩ := shut c (inRest c inC) unlockC overC
    cases Option.some.inj (foundC.symm.trans foundC')
    have shuts : Shuts cfg table k b :=
      ⟨unlockB,outside,c,inRest c inC,unlockC,overC,i,j,foundC,foundB,partner,drives⟩
    exact closed b (List.mem_filter.mpr ⟨inB,decide_eq_true shuts⟩) i j foundB partner drives

theorem faithfulFree (once : OnePerDoor table) (faithful : Faithful cfg table) : Free cfg table := by
  rintro k ⟨a,inA,unlockA,overA⟩
  by_contra shut
  have apart := faithfulApart cfg once faithful
  have blocked : ∀ a ∈ table, a.mode = wUnlock → Covers cfg a k →
      ∃ b ∈ table, b.mode = wUnlock ∧ Blocks cfg b a ∧ ¬ Covers cfg b k := by
    intro c inC unlockC overC
    by_contra open'
    exact shut ⟨c,inC,unlockC,overC,fun b inB unlockB blocks => by_contra fun outside => open' ⟨b,inB,unlockB,blocks,outside⟩⟩
  obtain ⟨rows,perm,undriven⟩ := shutFirst cfg once apart inA unlockA overA blocked
  obtain ⟨i,bit⟩ := (restoredCovers cfg (oncePerm perm once) k).mpr ⟨a,perm.mem_iff.mpr inA,.inl unlockA,overA⟩
  have same := faithful rows _ perm (lastCommand inA) i k bit
  rw [undriven,liveLast cfg ⟨overA,.inl unlockA⟩] at same
  contradiction

/- Restart and live commands agree exactly where no output is over an unlock and a lock
row, and every unlocked output has a door that only doors over it can block. -/
theorem restoresLive (table : List StateRow) (once : OnePerDoor table) :
    Faithful cfg table ↔ Apart cfg table ∧ Free cfg table :=
  ⟨fun faithful => ⟨faithfulApart cfg once faithful,faithfulFree cfg once faithful⟩,
    fun ⟨apart,free⟩ => replayFaithful cfg once apart free⟩

def lockedB : StateRow := ⟨ascii ['B'],wLock,1⟩
def heldA : StateRow := ⟨ascii ['A'],wUnlock,1⟩
def heldB : StateRow := ⟨ascii ['B'],wUnlock,1⟩

theorem unlockedARestores : Faithful airlock [heldA,lockedB] := by
  refine (restoresLive airlock [heldA,lockedB] (by unfold OnePerDoor Exclusive; decide)).mpr ⟨?_,?_⟩
  · intro a inA b inB unlock lock k overA overB
    obtain rfl | rfl := List.mem_pair.mp inA
    · obtain rfl | rfl := List.mem_pair.mp inB
      · exact lockNotUnlock lock.symm
      · rw [coversFound (i := 0) (by decide)] at overA
        rw [coversFound (i := 1) (by decide)] at overB
        have shared : (effective airlock 0 heldA.arg &&& effective airlock 1 lockedB.arg).getLsbD k = true := by
          rw [BitVec.getLsbD_and,overA,overB,Bool.and_self]
        have apart : effective airlock 0 heldA.arg &&& effective airlock 1 lockedB.arg = 0 := by decide
        simp [apart] at shared
    · exact lockNotUnlock unlock
  · rintro k ⟨a,inA,unlock,hit⟩
    refine ⟨a,inA,unlock,hit,fun b inB unlockB _ => ?_⟩
    obtain rfl | rfl := List.mem_pair.mp inA
    · obtain rfl | rfl := List.mem_pair.mp inB
      · exact hit
      · exact absurd unlockB lockNotUnlock
    · exact absurd unlock lockNotUnlock

/- A is replayed first and blockades B; the live commands clear B's blockade. -/
set_option maxRecDepth 10000 in
theorem heldBUndriven : OnePerDoor [heldA,heldB] ∧
    (effective airlock 1 ((start airlock [heldA,heldB]).doors 1).admDisableMask).getLsbD 2 = true ∧
    driven (start airlock [heldA,heldB]).log 2 = none ∧
    driven (live airlock [heldA,heldB]).log 2 = some .doUnlock ∧
    driven (start airlock [heldB,heldA]).log 2 = some .doUnlock ∧
    ¬ Faithful airlock [heldA,heldB] := by
  have restored : (effective airlock 1 ((start airlock [heldA,heldB]).doors 1).admDisableMask).getLsbD 2 = true := by decide
  have undriven : driven (start airlock [heldA,heldB]).log 2 = none := by decide
  have commanded : driven (live airlock [heldA,heldB]).log 2 = some .doUnlock := by decide
  refine ⟨by unfold OnePerDoor Exclusive; decide,restored,undriven,commanded,by decide,fun faithful => ?_⟩
  have same := faithful [heldA,heldB] [heldA,heldB] (List.Perm.refl _) (List.Perm.refl _) 1 2 restored
  rw [undriven,commanded] at same
  contradiction

end AccessControl.Restore
