import AccessControl.DoorNames

/-! Whom the record of an access names. The loop over the rows keeps the name of the row it
saw last, counted or not, so the record depends on the order of the rows; and the statement is
finalized before the event is sent, so what is read for the name is what has become of its text. -/
namespace AccessControl.AuditName
open BitMask DoorTable DoorController Traced UserDb UserRows DoorNames

/- A row that adds a bit to the mask. -/
def Counts (mode : Byte) (pinMd5 doorname : Bytes) (time : Int) (row : Row) : Prop :=
  ∃ m, rowMask mode pinMd5 doorname time row = some m ∧ m ≠ 0

section
variable {mode : Byte} {pinMd5 doorname : Bytes} {time : Int} {row : Row} {rows : List Row} {found out : Found}

/- Every turn of the loop takes the name, whatever becomes of the row. -/
theorem turnName (turn : (checkRow mode pinMd5 doorname time row found).value = some out) : out.userName = row.userName := by
  unfold checkRow at turn
  split at turn
  · cases Option.some.inj turn
    rfl
  · rw [valueBind] at turn
    obtain ⟨wrong,_,turn⟩ := Option.bind_eq_some_iff.mp turn
    cases wrong with
    | true =>
      cases Option.some.inj turn
      rfl
    | false =>
      simp only [Bool.false_eq_true,if_false,valueBind,valueUse,valuePure] at turn
      obtain ⟨sub,_,turn⟩ := Option.bind_eq_some_iff.mp turn
      obtain ⟨bit,_,turn⟩ := Option.bind_eq_some_iff.mp turn
      cases Option.some.inj turn
      rfl

theorem loopName (loop : (checkRows mode pinMd5 doorname time rows found).value = some out) :
    out.userName = (rows.getLast?.map Row.userName).getD found.userName := by
  induction rows generalizing found with
  | nil =>
    cases Option.some.inj loop
    rfl
  | cons row rows ih =>
    rw [checkRows,valueBind] at loop
    obtain ⟨next,turn,rest⟩ := Option.bind_eq_some_iff.mp loop
    rw [ih rest,turnName turn]
    cases rows with
    | nil => rfl
    | cons other rows => rw [List.getLast?_cons_cons]; rfl

theorem loopCounts (loop : (checkRows mode pinMd5 doorname time rows start).value = some out) :
    out.doorMask ≠ 0 ↔ ∃ row ∈ rows, Counts mode pinMd5 doorname time row := by
  rw [maskNonzero]
  simp only [checkRowsBit loop]
  constructor
  · rintro ⟨k,nothing | ⟨row,inside,m,mask,bit⟩⟩
    · simp [start] at nothing
    · exact ⟨row,inside,m,mask,maskNonzero.mpr ⟨k,bit⟩⟩
  · rintro ⟨row,inside,m,mask,nonzero⟩
    obtain ⟨k,bit⟩ := maskNonzero.mp nonzero
    exact ⟨k,.inr ⟨row,inside,m,mask,bit⟩⟩

end

section
variable {valid : Bytes → Prop} {md5 : Md5} {t : Tables} {db : Connection} {time : Int} {mode : Byte}
  {pin card doorname value pinMd5 : Bytes} {answer : Answer}

/- The record of a call that has asked its statement. -/
def record (freed : Bytes → Bytes) (card : Option Bytes) (doorname : Bytes) (found : Found) : Event × Option Bytes :=
  (if found.doorMask ≠ 0 then .authOk found.doorMask (found.userName.map freed) card
    else errEvent (found.userName.map freed) card found.errType,some doorname)

theorem askedAnswer (db : Connection) (time : Int) (asked : Asked md5 mode pin card doorname value) :
    (getAccessMask2 md5 db time pin card mode doorname).value =
      ((checkRows mode (pinText md5 mode pin) doorname time (db.rows (selectText mode value doorname)) start).value).map
        fun found => ⟨found.doorMask,[record db.freed (cardText mode card) doorname found]⟩ := by
  have short : ¬ (cardMode mode = true ∧ maxCardLen < card.length) := fun h => absurd (asked.room h.1) (by omega)
  have fits := asked.fits
  unfold getAccessMask2
  rw [valueBind,pinValue,Option.bind_some,if_neg short,valueBind,cardValue mode asked.room,Option.bind_some,valueBind,
    statementFits doorname asked.valid asked.chosen,fitting,if_neg (by omega),Option.bind_some]
  simp only [valueBind,valueNote,Option.bind_some,Option.getD_some,start]
  cases (checkRows mode (pinText md5 mode pin) doorname time (db.rows (selectText mode value doorname)) ⟨none,.authErr,0⟩).value <;> rfl

/- An access is recorded with what has become of the name of the last row, and only if some row counts. -/
theorem recordedRow (asked : Asked md5 mode pin card doorname value)
    (given : (getAccessMask2 md5 db time pin card mode doorname).value = some answer) {m : Mask} {user shown door : Option Bytes}
    (recorded : (.authOk m user shown,door) ∈ answer.events) :
    (∃ row ∈ db.rows (selectText mode value doorname), row.userName.map db.freed = user) ∧
    (∃ row ∈ db.rows (selectText mode value doorname), Counts mode (pinText md5 mode pin) doorname time row) := by
  rw [askedAnswer db time asked] at given
  obtain ⟨found,loop,rfl⟩ := Option.map_eq_some_iff.mp given
  have event := congrArg Prod.fst (List.mem_singleton.mp recorded)
  have granted : found.doorMask ≠ 0 := by
    intro none
    change _ = ite _ _ _ at event
    rw [if_neg (not_not.mpr none)] at event
    cases type : found.errType <;> rw [type] at event <;> cases event
  change _ = ite _ _ _ at event
  rw [if_pos granted] at event
  have counts := (loopCounts loop).mp granted
  refine ⟨?_,counts⟩
  obtain ⟨row,inside,_⟩ := counts
  have last := loopName loop
  rw [List.getLast?_eq_some_getLast (List.ne_nil_of_mem inside)] at last
  injection event with _ name _
  rw [last] at name
  exact ⟨_,List.getLast_mem (List.ne_nil_of_mem inside),name.symm⟩

/- Whatever becomes of the freed text, the record is right only where no matching row has a name at all. -/
theorem namelessAdmitted (rows : List Row) : (∀ freed : Bytes → Bytes, ∀ row ∈ rows, ∃ other ∈ rows,
      Counts mode pinMd5 doorname time other ∧ other.userName = row.userName.map freed) ↔
    ∀ row ∈ rows, row.userName = none ∧ ∃ other ∈ rows, Counts mode pinMd5 doorname time other := by
  constructor
  · intro named row inside
    obtain ⟨fresh,new⟩ := Infinite.exists_notMem_finset (rows.filterMap Row.userName).toFinset
    rw [List.mem_toFinset,List.mem_filterMap] at new
    obtain ⟨other,there,counts,same⟩ := named (fun _ => fresh) row inside
    refine ⟨?_,other,there,counts⟩
    by_contra name
    obtain ⟨text,name⟩ := Option.ne_none_iff_exists'.mp name
    rw [name] at same
    exact new ⟨other,there,same⟩
  · intro nameless freed row inside
    obtain ⟨name,other,there,counts⟩ := nameless row inside
    exact ⟨other,there,counts,by rw [(nameless other there).1,name]; rfl⟩

/- Over the tables: where every user who matches has a row that counts and the texts stay in place, one of them is named. -/
theorem tablesNameAdmitted (documented : Documented valid t db) (inPlace : db.freed = id) (plain : 0x27 ∉ doorname)
    (asked : Asked md5 mode pin card doorname value)
    (given : (getAccessMask2 md5 db time pin card mode doorname).value = some answer)
    (admitted : ∀ u ud d, Selected t mode value doorname u ud d → ∃ ud' d', Selected t mode value doorname u ud' d' ∧
      Counts mode (pinText md5 mode pin) doorname time (rowOf u ud' d'))
    {m : Mask} {user shown door : Option Bytes} (recorded : (.authOk m user shown,door) ∈ answer.events) :
    ∃ u ud d, Selected t mode value doorname u ud d ∧ Counts mode (pinText md5 mode pin) doorname time (rowOf u ud d) ∧ u.name = user := by
  obtain ⟨⟨row,inside,name⟩,_⟩ := recordedRow asked given recorded
  rw [inPlace,Option.map_id_apply] at name
  obtain ⟨u,ud,d,selected,rfl⟩ := (documented.select mode value doorname (askedPlain asked) plain row).mp inside
  obtain ⟨ud',d',again,counts⟩ := admitted u ud d selected
  exact ⟨u,ud',d',again,counts,name⟩

end

def nameA : Bytes := ascii ['A']
end AccessControl.AuditName
