import AccessControl.LockActs

/-! The table 'state' and the administrator's masks in memory. Each set command writes
both; an unset command clears the mask whatever row it deletes. -/
namespace AccessControl.StateTable
open BitMask DoorTable Gpio DoorController RemoteControl Run LockSteps LockActs

variable {n : Nat} (cfg : Config n) {s t : State n} {i : Fin n}

/- The rows that the restart replays for a door: mode 'unlock' or 'lock'. -/
def Holding (mode : Bytes) : Prop := mode = wUnlock ∨ mode = wLock
def Hits (i : Fin n) (row : StateRow) : Prop := getDoorByName cfg row.door = some i ∧ Holding row.mode
instance (mode) : Decidable (Holding mode) := by unfold Holding; infer_instance
instance (i : Fin n) (row) : Decidable (Hits cfg i row) := by unfold Hits; infer_instance

def Single (rows : List StateRow) : Prop :=
  ∀ a ∈ rows, ∀ b ∈ rows, a.door = b.door → Holding a.mode → Holding b.mode → a = b

/- The masks a restart would restore, for any order in which the rows come back. -/
def restored (rows : List StateRow) (i : Fin n) : Mask :=
  ((initRemoteControl cfg rows (initial rows)).doors i).admDisableMask

def Agrees (s : State n) : Prop :=
  ∀ rows, rows.Perm s.stateTable → ∀ i, restored cfg rows i = (s.doors i).admDisableMask

def NeverBoth (s : State n) : Prop :=
  ∀ a ∈ s.stateTable, ∀ b ∈ s.stateTable, a.door = b.door → a.mode = wLock → b.mode ≠ wUnlock

/- The command that strands a row: 'unset' of one mode while the table holds the other,
with a mask that is not empty, for the same door. -/
def Strands (s : State n) (w : Words) : Prop :=
  ∃ door mode, w.cmd = some wUnset ∧ w.door = some door ∧ w.arg1 = some mode ∧
    (getDoorByName cfg door).isSome ∧ Holding mode ∧
    ∃ row ∈ s.stateTable, row.door = door ∧ Holding row.mode ∧ row.mode ≠ mode ∧ row.arg ≠ 0

/- A datagram whose SQLite statements all complete, and that strands no row. -/
def Completes (a : Step n) : Prop := ∃ datagram, a = .checkNetwork datagram ⟨true,true⟩
def Consistent (s : State n) (a : Step n) : Prop :=
  ∃ datagram, a = .checkNetwork datagram ⟨true,true⟩ ∧ ¬ Strands cfg s (words datagram)

theorem foundName {name : Bytes} (found : getDoorByName cfg name = some i) : (cfg i).doorName = name := by
  have hit := List.find?_some found
  simpa using hit

theorem sameDoor {a b : Bytes} (first : getDoorByName cfg a = some i) (second : getDoorByName cfg b = some i) : a = b :=
  (foundName cfg first).symm.trans (foundName cfg second)

/- What a replayed row does to the masks, and what is left of a whole replay. -/
theorem restoreAdm (row) (s : State n) (i : Fin n) : ((restoreRow cfg s row).doors i).admDisableMask =
    if Hits cfg i row then row.arg else (s.doors i).admDisableMask := by
  have written : ∀ (t : State n) (j : Fin n), (∀ i, (t.doors i).admDisableMask = (s.doors i).admDisableMask) →
      ((t.update j (fun d => {d with admDisableMask := row.arg})).doors i).admDisableMask =
        if j = i then row.arg else (s.doors i).admDisableMask := by
    intro t j same
    rw [updateDoor]
    by_cases own : i = j
    · rw [if_pos own,if_pos own.symm]
    · rw [if_neg own,if_neg (fun e => own e.symm),same]
  unfold restoreRow
  cases found : getDoorByName cfg row.door with
  | none =>
    have none' : ¬ Hits cfg i row := fun h => by simp [Hits,found] at h
    exact (if_neg none').symm
  | some j =>
    have hits : Hits cfg i row ↔ j = i ∧ Holding row.mode := by simp only [Hits,found,Option.some.injEq]
    simp only [hits,signalStatusDoors,Holding]
    split
    · rename_i unlock
      rw [written _ j (unlockAdm cfg j row.arg s)]
      simp only [unlock,true_or,and_true]
    · split
      · rename_i lock
        rw [written _ j (lockAdm cfg j row.arg s)]
        simp only [lock,or_true,and_true]
      · rename_i unlock lock
        simp only [unlock,lock,or_self,and_false,if_false]

theorem restoredLast (rows : List StateRow) (s : State n) (i : Fin n) :
    (∃ row ∈ rows, Hits cfg i row ∧ ((initRemoteControl cfg rows s).doors i).admDisableMask = row.arg) ∨
    (∀ row ∈ rows, ¬ Hits cfg i row) ∧ ((initRemoteControl cfg rows s).doors i).admDisableMask = (s.doors i).admDisableMask := by
  induction rows generalizing s with
  | nil => exact .inr ⟨by simp,rfl⟩
  | cons row rows ih =>
    rcases ih (restoreRow cfg s row) with ⟨last,inside,hits,same⟩ | ⟨none,same⟩
    · exact .inl ⟨last,List.mem_cons_of_mem row inside,hits,same⟩
    · have whole : ((initRemoteControl cfg (row :: rows) s).doors i).admDisableMask =
          if Hits cfg i row then row.arg else (s.doors i).admDisableMask := same.trans (restoreAdm cfg row s i)
      by_cases hits : Hits cfg i row
      · rw [if_pos hits] at whole
        exact .inl ⟨row,List.mem_cons_self,hits,whole⟩
      · rw [if_neg hits] at whole
        refine .inr ⟨?_,whole⟩
        intro other inside
        rcases List.mem_cons.mp inside with rfl | later
        · exact hits
        · exact none other later

/- Memory and table agree on a door: the row that is held, or no row and no mask. -/
def Held (i : Fin n) (s : State n) : Prop :=
  (∃ row ∈ s.stateTable, Hits cfg i row ∧ (s.doors i).admDisableMask = row.arg) ∨
  (∀ row ∈ s.stateTable, ¬ Hits cfg i row) ∧ (s.doors i).admDisableMask = 0

theorem agreesHeld (single : Single s.stateTable) : Agrees cfg s ↔ ∀ i, Held cfg i s := by
  constructor
  · intro agrees i
    have same := agrees s.stateTable (List.Perm.refl _) i
    rcases restoredLast cfg s.stateTable (initial s.stateTable) i with ⟨row,inside,hits,value⟩ | ⟨none,value⟩
    · exact .inl ⟨row,inside,hits,same.symm.trans value⟩
    · exact .inr ⟨none,same.symm.trans value⟩
  · intro held rows perm i
    rcases restoredLast cfg rows (initial rows) i with ⟨row,inside,hits,value⟩ | ⟨none,value⟩
    · rcases held i with ⟨other,there,hits',mask⟩ | ⟨none,_⟩
      · have same : row = other := single row (perm.mem_iff.mp inside) other there
          (sameDoor cfg hits.1 hits'.1) hits.2 hits'.2
        subst same
        exact value.trans mask.symm
      · exact absurd hits (none row (perm.mem_iff.mp inside))
    · rcases held i with ⟨other,there,hits',_⟩ | ⟨_,mask⟩
      · exact absurd hits' (none other (perm.mem_iff.mpr there))
      · exact value.trans mask.symm

theorem singleNeverBoth (single : Single s.stateTable) : NeverBoth s := by
  intro a inA b inB door lock unlock
  have same := single a inA b inB door (.inr lock) (.inl unlock)
  rw [same,unlock] at lock
  exact absurd lock (by decide)

/- No operation on locks touches the table. -/
theorem signalTable (i signal) (s : State n) : (doorSignal cfg i signal s).stateTable = s.stateTable := by
  unfold doorSignal
  split <;> split <;> rfl

theorem statusTable (i) (s : State n) : (signalDoorStatus cfg i s).stateTable = s.stateTable := by
  unfold signalDoorStatus
  split <;> exact signalTable cfg i _ s

theorem airLockTable (i mask) (s : State n) : (airLockOnPartner cfg i mask s).stateTable = s.stateTable := by
  unfold airLockOnPartner
  cases (cfg i).airLockPartnerLocal with
  | none => rfl
  | some partner =>
    refine (statusTable cfg i _).trans ?_
    split
    · split <;> rfl
    · rfl

theorem unlockTable (i mask) (s : State n) : (unlockDoor cfg i mask s).1.stateTable = s.stateTable := by
  unfold unlockDoor
  dsimp only
  split
  · exact (signalTable cfg i _ _).trans (airLockTable cfg i (-1) _)
  · rfl

theorem lockTable (i mask) (s : State n) : (lockDoor cfg i mask s).1.stateTable = s.stateTable := by
  unfold lockDoor
  dsimp only
  split
  · exact (signalTable cfg i _ _).trans (airLockTable cfg i 0 _)
  · rfl

theorem replyTable (text) (s : State n) : (replyText text s).stateTable = s.stateTable := by
  unfold replyText
  split <;> rfl

/- Rows of other keys stay where they are; a row that is set is the last one. -/
def without (door mode : Bytes) (rows : List StateRow) : List StateRow :=
  rows.filter (fun row => !StateRow.keyed door mode row)

theorem mem_without {door mode : Bytes} {rows row} : row ∈ without door mode rows ↔
    row ∈ rows ∧ ¬ (row.door = door ∧ row.mode = mode) := by
  simp only [without,List.mem_filter,StateRow.keyed,Bool.not_eq_true',Bool.and_eq_false_iff,beq_eq_false_iff_ne]
  tauto

def otherMode (mode : Bytes) : Bytes := if mode = wUnlock then wLock else wUnlock

/- What a command whose statements complete leaves in the table and in the masks. -/
inductive Stores (i : Fin n) (cmd door arg1 : Bytes) (s t : State n) : Prop where
  | set (arg2) (command : cmd = wSet) (holding : Holding arg1)
      (table : t.stateTable = without door arg1 (without door (otherMode arg1) s.stateTable) ++ [⟨door,arg1,arg2⟩])
      (masks : ∀ j, (t.doors j).admDisableMask = if j = i then arg2 else (s.doors j).admDisableMask)
  | unset (command : cmd = wUnset) (holding : Holding arg1) (table : t.stateTable = without door arg1 s.stateTable)
      (masks : ∀ j, (t.doors j).admDisableMask = if j = i then 0 else (s.doors j).admDisableMask)
  | unsetWord (word : ¬ Holding arg1) (table : t.stateTable = without door arg1 s.stateTable)
      (masks : ∀ j, (t.doors j).admDisableMask = (s.doors j).admDisableMask)
  | same (command : cmd ≠ wUnset) (table : t.stateTable = s.stateTable)
      (masks : ∀ j, (t.doors j).admDisableMask = (s.doors j).admDisableMask)

theorem setStores (i door arg1 arg2) (s : State n) :
    Stores i wSet door arg1 s (setCommand cfg ⟨true,true⟩ i door arg1 arg2 s) := by
  have reply : ∀ (ret : Nat) (s : State n), (if ret = 0 then sendto rOk s else sendto rErr s).stateTable = s.stateTable ∧
      (if ret = 0 then sendto rOk s else sendto rErr s).doors = s.doors := by
    intro ret s
    split <;> exact ⟨rfl,rfl⟩
  have notLock : wLock ≠ wUnlock := by decide
  unfold setCommand
  by_cases unlock : arg1 = wUnlock
  · subst unlock
    simp only [if_true]
    refine .set arg2 rfl (.inl rfl) ?_ ?_
    · rw [(reply _ _).1,statusTable]
      have kept : (setUnlock cfg i arg2 s).stateTable = s.stateTable := unlockTable cfg i arg2 _
      simp only [setRow,dbSetUnset,if_true,kept,otherMode]
      rfl
    · intro j
      rw [(reply _ _).2,signalStatusDoors]
      exact setUnlockAdm cfg i arg2 s j
  · by_cases lock : arg1 = wLock
    · subst lock
      simp only [if_neg unlock,if_true]
      refine .set arg2 rfl (.inr rfl) ?_ ?_
      · rw [(reply _ _).1,statusTable]
        have kept : (setLock cfg i arg2 s).stateTable = s.stateTable := lockTable cfg i arg2 _
        simp only [setRow,dbSetUnset,if_true,kept,otherMode,if_neg notLock]
        rfl
      · intro j
        rw [(reply _ _).2,signalStatusDoors]
        exact setLockAdm cfg i arg2 s j
    · simp only [if_neg unlock,if_neg lock]
      exact .same (by decide) rfl (fun _ => rfl)

theorem unsetStores (i door arg1 arg2) (s : State n) :
    Stores i wUnset door arg1 s (unsetCommand cfg ⟨true,true⟩ i door arg1 arg2 s) := by
  have deleted : dbSetUnset door arg1 arg2 .dbUnset true s = ({s with stateTable := without door arg1 s.stateTable},0) := rfl
  unfold unsetCommand
  simp only [deleted,if_true]
  by_cases held : arg1 = wUnlock ∨ arg1 = wLock
  · rw [if_pos held]
    refine .unset rfl held (statusTable cfg i _) (fun j => ?_)
    rw [sendto,emitDoors,signalStatusDoors,unset,updateDoor]
    split <;> rfl
  · rw [if_neg held]
    exact .unsetWord held rfl (fun _ => rfl)

theorem getStores (db i door arg1) (s : State n) : (getCommand db i door arg1 s).stateTable = s.stateTable := by
  unfold getCommand
  split
  · exact replyTable _ s
  · split
    · exact replyTable _ s
    · rfl

theorem doStores (i arg1 arg2) (s : State n) : (doCommand cfg i arg1 arg2 s).stateTable = s.stateTable ∧
    ∀ j, ((doCommand cfg i arg1 arg2 s).doors j).admDisableMask = (s.doors j).admDisableMask := by
  have reply : ∀ (ret : Mask) (t : State n), t.stateTable = s.stateTable ∧
      (∀ j, (t.doors j).admDisableMask = (s.doors j).admDisableMask) →
      (if ret ≠ 0 then signalDoorStatus cfg i (sendto rOk t) else sendto rErr t).stateTable = s.stateTable ∧
      ∀ j, ((if ret ≠ 0 then signalDoorStatus cfg i (sendto rOk t) else sendto rErr t).doors j).admDisableMask =
        (s.doors j).admDisableMask := by
    intro ret t same
    split
    · refine ⟨(statusTable cfg i _).trans same.1,fun j => ?_⟩
      rw [signalStatusDoors]
      exact same.2 j
    · exact same
  have air : ∀ (f : Door → Door), (∀ d, (f d).admDisableMask = d.admDisableMask) →
      ∀ j, ((s.update i f).doors j).admDisableMask = (s.doors j).admDisableMask := by
    intro f same j
    rw [updateDoor]
    split
    · exact same _
    · rfl
  unfold doCommand
  dsimp only
  split
  · exact reply _ _ ⟨unlockTable cfg i arg2 s,unlockAdm cfg i arg2 s⟩
  · split
    · exact reply _ _ ⟨lockTable cfg i arg2 s,lockAdm cfg i arg2 s⟩
    · split
      · exact ⟨rfl,air (fun d => {d with airLockMask := d.airLockMask ||| arg2}) (fun _ => rfl)⟩
      · split
        · exact ⟨rfl,air (fun d => {d with airLockMask := d.airLockMask &&& ~~~arg2}) (fun _ => rfl)⟩
        · exact ⟨rfl,fun _ => rfl⟩

theorem commandStores (i cmd door arg1 argX) (s : State n) :
    Stores i cmd door arg1 s (command cfg ⟨true,true⟩ i cmd door arg1 argX s) := by
  unfold command
  dsimp only
  split
  · rename_i get
    have still := restedGet ⟨true,true⟩ i door arg1 s
    refine .same (by rw [get]; decide) (getStores ..) (fun j => congrArg LockState.admDisableMask (still.lock j))
  · split
    · rename_i set
      obtain ⟨rfl,_⟩ := set
      exact setStores cfg i door arg1 _ s
    · split
      · rename_i unset
        subst unset
        exact unsetStores cfg i door arg1 _ s
      · split
        · rename_i unset does
          exact .same unset (doStores cfg i arg1 _ s).1 (doStores cfg i arg1 _ s).2
        · rename_i unset _
          exact .same unset rfl (fun _ => rfl)

/- The rows of other doors, and rows of other modes, are never touched. -/
theorem heldElsewhere {j : Fin n} (masks : (t.doors j).admDisableMask = (s.doors j).admDisableMask)
    (rows : ∀ row, Hits cfg j row → (row ∈ t.stateTable ↔ row ∈ s.stateTable)) : Held cfg j t ↔ Held cfg j s := by
  unfold Held
  rw [masks]
  constructor
  · rintro (⟨row,inside,hits,mask⟩ | ⟨none,mask⟩)
    · exact .inl ⟨row,(rows row hits).mp inside,hits,mask⟩
    · exact .inr ⟨fun row inside hits => none row ((rows row hits).mpr inside) hits,mask⟩
  · rintro (⟨row,inside,hits,mask⟩ | ⟨none,mask⟩)
    · exact .inl ⟨row,(rows row hits).mpr inside,hits,mask⟩
    · exact .inr ⟨fun row inside hits => none row ((rows row hits).mp inside) hits,mask⟩

theorem singleWithout {door mode : Bytes} {rows : List StateRow} (single : Single rows) : Single (without door mode rows) :=
  fun a inA b inB => single a (mem_without.mp inA).1 b (mem_without.mp inB).1

theorem otherHolding {mode other : Bytes} (holding : Holding mode) (other' : Holding other) (ne : other ≠ mode) :
    other = otherMode mode := by
  have apart : wLock ≠ wUnlock := by decide
  unfold otherMode
  obtain rfl | rfl := holding <;> obtain rfl | rfl := other'
  · exact absurd rfl ne
  · rw [if_pos rfl]
  · rw [if_neg apart]
  · exact absurd rfl ne

theorem storesSingle {cmd door arg1 : Bytes} (stores : Stores i cmd door arg1 s t) (single : Single s.stateTable) :
    Single t.stateTable := by
  cases stores with
  | set arg2 command holding table masks =>
    rw [table]
    have kept : Single (without door arg1 (without door (otherMode arg1) s.stateTable)) :=
      singleWithout (singleWithout single)
    have gone : ∀ row ∈ without door arg1 (without door (otherMode arg1) s.stateTable), row.door = door → ¬ Holding row.mode := by
      intro row inside same held
      obtain ⟨inside,notMode⟩ := mem_without.mp inside
      obtain ⟨_,notOther⟩ := mem_without.mp inside
      have ne : row.mode ≠ arg1 := fun e => notMode ⟨same,e⟩
      exact notOther ⟨same,otherHolding holding held ne⟩
    intro a inA b inB same heldA heldB
    rcases List.mem_append.mp inA with inA | inA <;> rcases List.mem_append.mp inB with inB | inB
    · exact kept a inA b inB same heldA heldB
    · cases List.mem_singleton.mp inB
      exact absurd heldA (gone a inA same)
    · cases List.mem_singleton.mp inA
      exact absurd heldB (gone b inB same.symm)
    · exact (List.mem_singleton.mp inA).trans (List.mem_singleton.mp inB).symm
  | unset command holding table masks => rw [table]; exact singleWithout single
  | unsetWord word table masks => rw [table]; exact singleWithout single
  | same command table masks => rw [table]; exact single

theorem foreignRow {door : Bytes} {j : Fin n} {row : StateRow} (found : getDoorByName cfg door = some i) (ne : j ≠ i)
    (hits : Hits cfg j row) : row.door ≠ door := by
  intro same
  have here := hits.1
  rw [same,found] at here
  exact ne (Option.some.inj here).symm

/- A `set` leaves the row that memory now holds. -/
theorem setHeld {door arg1 : Bytes} {arg2 : Mask} (found : getDoorByName cfg door = some i) (holding : Holding arg1)
    (table : t.stateTable = without door arg1 (without door (otherMode arg1) s.stateTable) ++ [⟨door,arg1,arg2⟩])
    (masks : ∀ j, (t.doors j).admDisableMask = if j = i then arg2 else (s.doors j).admDisableMask)
    (held : ∀ j, Held cfg j s) (j : Fin n) : Held cfg j t := by
  by_cases own : j = i
  · subst own
    refine .inl ⟨⟨door,arg1,arg2⟩,?_,⟨found,holding⟩,?_⟩
    · rw [table]
      exact List.mem_append_right _ List.mem_cons_self
    · rw [masks,if_pos rfl]
  · refine (heldElsewhere cfg (by rw [masks,if_neg own]) (fun row hits => ?_)).mpr (held j)
    have other := foreignRow cfg found own hits
    rw [table,List.mem_append,mem_without,mem_without]
    constructor
    · rintro (inside | new)
      · exact inside.1.1
      · cases List.mem_singleton.mp new
        exact absurd rfl other
    · exact fun inside => .inl ⟨⟨inside,fun h => other h.1⟩,fun h => other h.1⟩

/- An `unset` clears the mask, and with one row of the door left in the table that row is stranded. -/
theorem unsetHeld {door arg1 : Bytes} (found : getDoorByName cfg door = some i) (table : t.stateTable = without door arg1 s.stateTable)
    (masks : ∀ j, (t.doors j).admDisableMask = if j = i then 0 else (s.doors j).admDisableMask)
    (single : Single s.stateTable) (held : ∀ j, Held cfg j s) : (∀ j, Held cfg j t) ↔
      ¬ ∃ row ∈ s.stateTable, row.door = door ∧ Holding row.mode ∧ row.mode ≠ arg1 ∧ row.arg ≠ 0 := by
  have mask : (t.doors i).admDisableMask = 0 := by rw [masks,if_pos rfl]
  constructor
  · rintro agrees ⟨row,inside,same,holds,ne,some⟩
    have hits : Hits cfg i row := ⟨same ▸ found,holds⟩
    have left : row ∈ t.stateTable := by
      rw [table]
      exact mem_without.mpr ⟨inside,fun h => ne h.2⟩
    rcases agrees i with ⟨other,there,hits',value⟩ | ⟨none,_⟩
    · rw [table] at there
      have one := single row inside other (mem_without.mp there).1 (sameDoor cfg hits.1 hits'.1) hits.2 hits'.2
      rw [mask,← one] at value
      exact some value.symm
    · exact none row left hits
  · intro safe j
    by_cases own : j = i
    · subst own
      by_cases some : ∃ row ∈ t.stateTable, Hits cfg j row
      · obtain ⟨row,inside,hits⟩ := some
        refine .inl ⟨row,inside,hits,?_⟩
        rw [table] at inside
        obtain ⟨there,notMode⟩ := mem_without.mp inside
        have same : row.door = door := sameDoor cfg hits.1 found
        rw [mask]
        by_contra value
        exact safe ⟨row,there,same,hits.2,fun e => notMode ⟨same,e⟩,fun e => value e.symm⟩
      · exact .inr ⟨fun row inside hits => some ⟨row,inside,hits⟩,mask⟩
    · refine (heldElsewhere cfg (by rw [masks,if_neg own]) (fun row hits => ?_)).mpr (held j)
      rw [table,mem_without]
      exact ⟨And.left,fun inside => ⟨inside,fun h => foreignRow cfg found own hits h.1⟩⟩

/- Memory and table still agree exactly when no row with a mask is left behind. -/
theorem storesHeld {cmd door arg1 : Bytes} (found : getDoorByName cfg door = some i) (stores : Stores i cmd door arg1 s t)
    (single : Single s.stateTable) (held : ∀ j, Held cfg j s) : (∀ j, Held cfg j t) ↔
      ¬ (cmd = wUnset ∧ Holding arg1 ∧
        ∃ row ∈ s.stateTable, row.door = door ∧ Holding row.mode ∧ row.mode ≠ arg1 ∧ row.arg ≠ 0) := by
  cases stores with
  | set arg2 command holding table masks =>
    have notUnset : wSet ≠ wUnset := by decide
    exact iff_of_true (setHeld cfg found holding table masks held) (fun h => notUnset (command.symm.trans h.1))
  | unset command holding table masks =>
    rw [unsetHeld cfg found table masks single held]
    exact not_congr ⟨fun rest => ⟨command,holding,rest⟩,fun h => h.2.2⟩
  | unsetWord word table masks =>
    refine iff_of_true (fun j => ?_) (fun h => word h.2.1)
    refine (heldElsewhere cfg (masks j) (fun row hits => ?_)).mpr (held j)
    rw [table,mem_without]
    exact ⟨And.left,fun inside => ⟨inside,fun h => word (h.2 ▸ hits.2)⟩⟩
  | same command table masks =>
    refine iff_of_true (fun j => ?_) (fun h => command h.1)
    exact (heldElsewhere cfg (masks j) (fun row _ => by rw [table])).mpr (held j)

/- One datagram: the words that name no known door change nothing. -/
theorem datagramHeld (datagram) {s : State n} (single : Single s.stateTable) :
    Single (checkNetwork cfg datagram ⟨true,true⟩ s).stateTable ∧ ((∀ j, Held cfg j s) →
      ((∀ j, Held cfg j (checkNetwork cfg datagram ⟨true,true⟩ s)) ↔ ¬ Strands cfg s (words datagram))) := by
  unfold checkNetwork
  by_cases empty : datagram = []
  · subst empty
    have nothing : ¬ Strands cfg s (words []) := by
      rintro ⟨_,_,none,_⟩
      exact absurd none (by decide)
    simp only [if_true]
    exact ⟨single,fun held => iff_of_true held nothing⟩
  · rw [if_neg empty]
    unfold Strands
    generalize words datagram = w
    obtain ⟨cmd,door,arg1,argX⟩ := w
    have quiet : ∀ {t : State n}, t.stateTable = s.stateTable → (∀ j, t.doors j = s.doors j) →
        (¬ ∃ door' mode, cmd = some wUnset ∧ door = some door' ∧ arg1 = some mode ∧ (getDoorByName cfg door').isSome ∧
          Holding mode ∧ ∃ row ∈ s.stateTable, row.door = door' ∧ Holding row.mode ∧ row.mode ≠ mode ∧ row.arg ≠ 0) →
        Single t.stateTable ∧ ((∀ j, Held cfg j s) → ((∀ j, Held cfg j t) ↔
          ¬ ∃ door' mode, cmd = some wUnset ∧ door = some door' ∧ arg1 = some mode ∧ (getDoorByName cfg door').isSome ∧
          Holding mode ∧ ∃ row ∈ s.stateTable, row.door = door' ∧ Holding row.mode ∧ row.mode ≠ mode ∧ row.arg ≠ 0)) := by
      intro t table doors none
      refine ⟨table ▸ single,fun held => iff_of_true (fun j => ?_) none⟩
      exact (heldElsewhere cfg (by rw [doors]) (fun row _ => by rw [table])).mpr (held j)
    cases cmd <;> cases door <;> cases arg1 <;> try exact quiet rfl (fun _ => rfl) (by simp)
    rename_i cmd door arg1
    dsimp only
    cases found : getDoorByName cfg door with
    | none => exact quiet rfl (fun _ => rfl) (by rintro ⟨_,_,_,same,_,some,_⟩; cases same; simp [found] at some)
    | some i =>
      have stores := commandStores cfg i cmd door arg1 (argX.map toInt)
        (s.emit (.sendEvent (.remoteCtrl (some cmd) (some arg1) argX) (some door)))
      refine ⟨storesSingle stores single,fun held => ?_⟩
      have heard : ∀ j, Held cfg j (s.emit (.sendEvent (.remoteCtrl (some cmd) (some arg1) argX) (some door))) := held
      refine (storesHeld cfg found stores single heard).trans (not_congr ?_)
      constructor
      · rintro ⟨unset,holding,row⟩
        exact ⟨door,arg1,congrArg some unset,rfl,rfl,by rw [found]; rfl,holding,row⟩
      · rintro ⟨door',mode,unset,same,same',_,holding,row⟩
        cases same
        cases same'
        exact ⟨Option.some.inj unset,holding,row⟩

/- No run of commands leaves both rows of a door in the table. Over commands that strand
no row a restart restores what is in memory, and the next command keeps it so exactly
when it strands none. -/
theorem persistedAgrees (run : SystemRun cfg (fun _ => Completes) (start cfg []) t) : NeverBoth t ∧
    (SystemRun cfg (Consistent cfg) (start cfg []) t → Agrees cfg t ∧
      ∀ datagram, (Agrees cfg (checkNetwork cfg datagram ⟨true,true⟩ t) ↔ ¬ Strands cfg t (words datagram))) := by
  have empty : Single (start cfg []).stateTable := by simp [Single,start,initRemoteControl,initial]
  constructor
  · have single : Single t.stateTable := by
      refine runInvariant (fun t => Single t.stateTable) ?_ run empty
      rintro s a t ⟨datagram,rfl⟩ single rfl
      exact (datagramHeld cfg datagram single).1
    exact singleNeverBoth single
  · intro consistent
    have kept : Single t.stateTable ∧ ∀ j, Held cfg j t := by
      refine runInvariant (fun t => Single t.stateTable ∧ ∀ j, Held cfg j t) ?_ consistent
        ⟨empty,fun j => .inr ⟨by simp [start,initRemoteControl,initial],rfl⟩⟩
      rintro s a t ⟨datagram,rfl,safe⟩ ⟨single,held⟩ rfl
      have now := datagramHeld cfg datagram single
      exact ⟨now.1,(now.2 held).mpr safe⟩
    refine ⟨(agreesHeld cfg kept.1).mpr kept.2,fun datagram => ?_⟩
    have next := datagramHeld cfg datagram kept.1
    exact (agreesHeld cfg next.1).trans (next.2 kept.2)

/- 'set A unlock 1' alone is persisted as it is in memory. -/
def unlockedA : State 2 := checkNetwork (site 1 modeCard (fun _ => none)) setUnlockA ⟨true,true⟩
  (start (site 1 modeCard (fun _ => none)) [])

set_option maxRecDepth 10000 in
theorem unlockedAPersists : NeverBoth unlockedA ∧ Agrees (site 1 modeCard (fun _ => none)) unlockedA ∧
    unlockedA.stateTable = [⟨ascii ['A'],wUnlock,1⟩] := by
  have run := persistedAgrees (site 1 modeCard (fun _ => none)) (runOne (a := .checkNetwork setUnlockA ⟨true,true⟩) ⟨_,rfl⟩ rfl)
  refine ⟨run.1,(run.2 (runOne (a := .checkNetwork setUnlockA ⟨true,true⟩) ⟨setUnlockA,rfl,?_⟩ rfl)).1,by decide⟩
  rintro ⟨_,_,command,_⟩
  exact absurd command (by decide)

/- 'unset A lock' then clears the mask in memory and leaves the row. -/
def strandedA : State 2 := checkNetwork (site 1 modeCard (fun _ => none)) unsetLockA ⟨true,true⟩ unlockedA

set_option maxRecDepth 10000 in
theorem strandedADiffers :
    SystemRun (site 1 modeCard (fun _ => none)) (fun _ => Completes) (start (site 1 modeCard (fun _ => none)) []) strandedA ∧
    (strandedA.doors 0).admDisableMask = 0 ∧ strandedA.stateTable = [⟨ascii ['A'],wUnlock,1⟩] ∧
    restored (site 1 modeCard (fun _ => none)) strandedA.stateTable 0 = 1 ∧
    ¬ Agrees (site 1 modeCard (fun _ => none)) strandedA := by
  have memory : (strandedA.doors 0).admDisableMask = 0 := by decide
  have disk : restored (site 1 modeCard (fun _ => none)) strandedA.stateTable 0 = 1 := by decide
  refine ⟨?_,memory,by decide,disk,?_⟩
  · exact runTrans (runOne (a := .checkNetwork setUnlockA ⟨true,true⟩) ⟨_,rfl⟩ rfl)
      (runOne (a := .checkNetwork unsetLockA ⟨true,true⟩) ⟨_,rfl⟩ rfl)
  · intro agrees
    have same := agrees strandedA.stateTable (List.Perm.refl _) 0
    rw [disk,memory] at same
    exact absurd same (by decide)

end AccessControl.StateTable
