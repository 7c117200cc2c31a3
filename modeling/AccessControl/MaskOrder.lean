import AccessControl.DoorNames

/-! How the masks of two calls compare. A call asks for rows and joins their bits, so its mask
follows the set of the rows and the rule they are judged by. -/
namespace AccessControl.MaskOrder
open BitMask DoorTable DoorController Numeral Traced UserDb UserRows DoorNames

/- Where the second has a value the first has one, with no bit of its own. -/
def Within (a b : Option Mask) : Prop :=
  ∀ m, b = some m → ∃ l, a = some l ∧ ∀ k, l.getLsbD k = true → m.getLsbD k = true

theorem withinRefl (a : Option Mask) : Within a a := fun m h => ⟨m,h,fun _ => id⟩

theorem withinAntisymm {a b : Option Mask} (ab : Within a b) (ba : Within b a) : a = b := by
  have same : ∀ {a b : Option Mask}, Within a b → Within b a → ∀ m, b = some m → a = some m := by
    intro a b ab ba m h
    obtain ⟨l,first,low⟩ := ab m h
    obtain ⟨m',second,high⟩ := ba l first
    rw [h] at second
    cases Option.some.inj second
    rw [first]
    refine congrArg some (BitVec.eq_of_getLsbD_eq fun k _ => Bool.eq_iff_iff.mpr ⟨low k,high k⟩)
  cases h : b with
  | some m => exact same ab ba m h
  | none =>
    cases g : a with
    | none => rfl
    | some l =>
      have both := same ba ab l g
      rw [h] at both
      cases both

section
variable {mode mode' : Byte} {pinMd5 pinMd5' doorname : Bytes} {time : Int} {rows rows' : List Row}

/- The loop over the rows: each row of the first is within one of the second. -/
theorem loopWithin (each : ∀ row ∈ rows, ∃ row' ∈ rows',
      Within (rowMask mode pinMd5 doorname time row) (rowMask mode' pinMd5' doorname time row')) :
    Within (((checkRows mode pinMd5 doorname time rows start).value).map Found.doorMask)
      (((checkRows mode' pinMd5' doorname time rows' start).value).map Found.doorMask) := by
  intro m whole
  obtain ⟨out',loop',rfl⟩ := Option.map_eq_some_iff.mp whole
  have turns' := checkRowsSome.mp (Option.isSome_iff_exists.mpr ⟨out',loop'⟩)
  have turns : ∀ row ∈ rows, (rowMask mode pinMd5 doorname time row).isSome := by
    intro row mem
    obtain ⟨row',mem',within⟩ := each row mem
    obtain ⟨m,h⟩ := Option.isSome_iff_exists.mp (turns' row' mem')
    obtain ⟨l,h',_⟩ := within m h
    exact Option.isSome_iff_exists.mpr ⟨l,h'⟩
  have whole' : (checkRows mode pinMd5 doorname time rows start).value.isSome := checkRowsSome.mpr turns
  obtain ⟨out,loop⟩ := Option.isSome_iff_exists.mp whole'
  refine ⟨out.doorMask,by rw [loop]; rfl,fun k bit => (checkRowsBit loop').mpr ?_⟩
  rcases (checkRowsBit loop).mp bit with before | ⟨row,mem,l,mask,bit⟩
  · exact .inl before
  · obtain ⟨row',mem',within⟩ := each row mem
    obtain ⟨m,mask'⟩ := Option.isSome_iff_exists.mp (turns' row' mem')
    obtain ⟨l',mask'',low⟩ := within m mask'
    rw [mask] at mask''
    cases Option.some.inj mask''
    exact .inr ⟨row',mem',m,mask',low k bit⟩

end

/- The mask of a call. -/
def maskOf (md5 : Md5) (db : Connection) (time : Int) (pin card : Bytes) (mode : Byte) (doorname : Bytes) : Option Mask :=
  ((getAccessMask2 md5 db time pin card mode doorname).value).map Answer.mask

/- What a call comes to that asks no statement: only the digits of no card have no value. -/
def unanswered (mode : Byte) (card doorname : Bytes) : Option Mask :=
  if cardMode mode = true ∧ card = [] ∧ (selectHead ++ doorname ++ selectAnd).length < bufSize then none else some 0

section
variable {md5 : Md5} {db db' : Connection} {time : Int} {mode : Byte} {pin card doorname : Bytes}

theorem unaskedMask (unasked : ∀ value, ¬ Asked md5 mode pin card doorname value) :
    maskOf md5 db time pin card mode doorname = unanswered mode card doorname := by
  unfold maskOf
  rw [callValue,unanswered]
  by_cases long : cardMode mode = true ∧ maxCardLen < card.length
  · have some' : card ≠ [] := by
      rintro rfl
      exact Nat.not_lt_zero _ long.2
    rw [if_pos long,if_neg fun h => some' h.2.1]
  · rw [if_neg long]
    cases valid : validMode mode with
    | false =>
      have other : ¬ cardMode mode = true := by
        intro card
        rw [validMode,card,Bool.or_true] at valid
        cases valid
      rw [statementInvalid doorname valid,if_neg fun h => other h.1]
      rfl
    | true =>
      cases chosen : statementValue mode (pinText md5 mode pin) (cardText mode card) with
      | some value =>
        have room : cardMode mode = true → card.length ≤ maxCardLen := fun card => not_lt.mp fun more => long ⟨card,more⟩
        have tooLong : bufSize ≤ (selectText mode value doorname).length := not_lt.mp fun fits => unasked value ⟨valid,room,chosen,fits⟩
        have digits : ¬ (cardMode mode = true ∧ card = []) := by
          rintro ⟨asked,rfl⟩
          have other : mode ≠ modePin := by
            rintro rfl
            cases asked
          rw [statementValue,if_neg other,cardText,if_pos asked,if_pos rfl] at chosen
          cases chosen
        rw [statementFits doorname valid chosen,fitting,if_pos tooLong,if_neg fun h => digits ⟨h.1,h.2.1⟩]
        rfl
      | none =>
        have other : mode ≠ modePin := by
          intro pin
          rw [statementValue,if_pos pin] at chosen
          cases chosen
        have asked : cardMode mode = true := by simpa [validMode,other] using valid
        rw [statementValue,if_neg other] at chosen
        have empty : card = [] := by
          rw [cardText,if_pos asked] at chosen
          by_contra some'
          rw [if_neg some'] at chosen
          cases chosen
        have piece : (condition mode (some (pinText md5 mode pin)) none).value = none := by
          rw [condition,if_neg other,if_pos asked]
          rfl
        unfold statement append
        simp only [chosen,valueBind,valueNote,valuePure,Option.bind_some,List.nil_append]
        split
        · rename_i full
          rw [if_neg fun h => absurd h.2.2 (not_lt.mpr full)]
          rfl
        · rename_i fits
          rw [valueBind,piece,if_pos ⟨asked,empty,not_le.mp fits⟩]
          rfl

/- Two calls whose statements, if they ask any, have rows within each other. -/
theorem callWithin {mode' : Byte} (cards : cardMode mode = cardMode mode') (text : ∀ value, selectText mode value doorname = selectText mode' value doorname)
    (asks : ∀ value, Asked md5 mode pin card doorname value ↔ Asked md5 mode' pin card doorname value)
    (each : ∀ value, Asked md5 mode pin card doorname value → ∀ row ∈ db.rows (selectText mode value doorname),
      ∃ row' ∈ db'.rows (selectText mode value doorname),
        Within (rowMask mode (pinText md5 mode pin) doorname time row) (rowMask mode' (pinText md5 mode' pin) doorname time row')) :
    Within (maskOf md5 db time pin card mode doorname) (maskOf md5 db' time pin card mode' doorname) := by
  by_cases asked : ∃ value, Asked md5 mode pin card doorname value
  · obtain ⟨value,asked⟩ := asked
    unfold maskOf
    rw [askedValue db time asked,askedValue db' time ((asks value).mp asked),← text value]
    exact loopWithin (each value asked)
  · have none' : ∀ value, ¬ Asked md5 mode pin card doorname value := fun value h => asked ⟨value,h⟩
    rw [unaskedMask none',unaskedMask fun value h => none' value ((asks value).mpr h),unanswered,cards]
    exact withinRefl _

theorem sameCallWithin (each : ∀ value, Asked md5 mode pin card doorname value → ∀ row ∈ db.rows (selectText mode value doorname),
      row ∈ db'.rows (selectText mode value doorname)) :
    Within (maskOf md5 db time pin card mode doorname) (maskOf md5 db' time pin card mode doorname) :=
  callWithin rfl (fun _ => rfl) (fun _ => Iff.rfl) fun value asked row mem => ⟨row,each value asked row mem,withinRefl _⟩

/- The rows of a statement in another order. -/
theorem orderMask (perm : ∀ text, (db'.rows text).Perm (db.rows text)) :
    maskOf md5 db' time pin card mode doorname = maskOf md5 db time pin card mode doorname :=
  withinAntisymm (sameCallWithin fun _ _ _ mem => (perm _).mem_iff.mp mem) (sameCallWithin fun _ _ _ mem => (perm _).mem_iff.mpr mem)

end

/- The same users and doors, with every link of the first and perhaps more. -/
structure More (t t' : Tables) : Prop where
  users : t'.users = t.users
  doors : t'.doors = t.doors
  links : ∀ ud ∈ t.userDoor, ud ∈ t'.userDoor

/- No user without a stored pin. -/
def Pinned (t : Tables) : Prop := ∀ u ∈ t.users, u.pin ≠ none

section
variable {valid : Bytes → Prop} {md5 : Md5} {t t' : Tables} {db db' : Connection} {time : Int} {mode : Byte}
variable {pin card doorname value : Bytes} {row : Row}

theorem selectedMore {u ud d} (h : Selected t mode value doorname u ud d) (more : More t t') : Selected t' mode value doorname u ud d :=
  ⟨⟨more.users ▸ h.user,more.links ud h.link,more.doors ▸ h.door,h.userid,h.doorid⟩,h.value,h.name⟩

/- A row that a call reads is one of the tables', where its statement leaves the name alone or does not prepare. -/
theorem rowSelected (documented : Documented valid t db) (asked : Asked md5 mode pin card doorname value)
    (tame : 0x27 ∉ doorname ∨ ¬ valid (selectText mode value doorname)) (mem : row ∈ db.rows (selectText mode value doorname)) :
    0x27 ∉ doorname ∧ ∃ u ud d, Selected t mode value doorname u ud d ∧ row = rowOf u ud d := by
  rcases tame with plain | refused
  · exact ⟨plain,(documented.select mode value doorname (askedPlain asked) plain row).mp mem⟩
  · rw [documented.unprepared _ refused] at mem
    exact absurd mem List.not_mem_nil

theorem growthMask (documented : Documented valid t db) (documented' : Documented valid t' db') (more : More t t')
    (tame : ∀ value, Asked md5 mode pin card doorname value → 0x27 ∉ doorname ∨ ¬ valid (selectText mode value doorname)) :
    Within (maskOf md5 db time pin card mode doorname) (maskOf md5 db' time pin card mode doorname) := by
  refine sameCallWithin fun value asked row mem => ?_
  obtain ⟨plain,u,ud,d,selected,same⟩ := rowSelected documented asked (tame value asked) mem
  exact (documented'.select mode value doorname (askedPlain asked) plain row).mpr ⟨u,ud,d,selectedMore selected more,same⟩

/- Asking for the pin as well only refuses. -/
theorem strictRow (stored : row.userPin ≠ none) (mode : Byte) (pinMd5 pinMd5' : Bytes) :
    Within (rowMask mode pinMd5 doorname time row) (rowMask modeCard pinMd5' doorname time row) := by
  have free : (wrongPin modeCard pinMd5' row).value = some false :=
    wrongPinFalse.mpr ⟨fun always => absurd always (by decide),fun card => absurd card (by decide)⟩
  intro m
  unfold rowMask
  rw [free]
  split
  · exact fun h => ⟨m,h,fun _ => id⟩
  · intro h
    cases wrong : (wrongPin mode pinMd5 row).value with
    | none => exact absurd (wrongPinNone.mp wrong).2 stored
    | some refused =>
      cases refused with
      | false => exact ⟨m,h,fun _ => id⟩
      | true => exact ⟨0,rfl,fun k bit => absurd bit (by simp)⟩

theorem strictMask (documented : Documented valid t db) (pinned : Pinned t)
    (tame : ∀ value, Asked md5 mode pin card doorname value → 0x27 ∉ doorname ∨ ¬ valid (selectText mode value doorname))
    (both : mode = modeCardAndPin ∨ mode = modeCardAndPinAlways) :
    Within (maskOf md5 db time pin card mode doorname) (maskOf md5 db time pin card modeCard doorname) := by
  have other : mode ≠ modePin := by rcases both with rfl | rfl <;> decide
  have cards : cardMode mode = cardMode modeCard := by rcases both with rfl | rfl <;> rfl
  have accepted : validMode mode = validMode modeCard := by rcases both with rfl | rfl <;> rfl
  have column : selectColumn mode = selectColumn modeCard := if_neg other
  have text : ∀ value, selectText mode value doorname = selectText modeCard value doorname := fun value =>
    congrArg (fun column => selectHead ++ doorname ++ selectAnd ++ (column ++ value ++ [0x27]) ++ ascii [')',';']) column
  have asks : ∀ value, Asked md5 mode pin card doorname value ↔ Asked md5 modeCard pin card doorname value := by
    have chosen : ∀ value, statementValue mode (pinText md5 mode pin) (cardText mode card) = some value ↔
        statementValue modeCard (pinText md5 modeCard pin) (cardText modeCard card) = some value := by
      intro value
      rw [statementValue,if_neg other,cardText,cards]
      rfl
    intro value
    constructor
    · rintro ⟨h,room,from',fits⟩
      exact ⟨accepted ▸ h,cards ▸ room,(chosen value).mp from',by rwa [← text value]⟩
    · rintro ⟨h,room,from',fits⟩
      exact ⟨accepted ▸ h,cards ▸ room,(chosen value).mpr from',by rwa [text value]⟩
  refine callWithin cards text asks fun value asked row mem => ⟨row,mem,strictRow ?_ mode _ _⟩
  obtain ⟨_,u,ud,d,selected,rfl⟩ := rowSelected documented asked (tame value asked) mem
  exact pinned u selected.user

end

/- An engine over all contents of the database. -/
structure Engine (valid : Bytes → Prop) where
  connect : Tables → Connection
  documented : ∀ t, Documented valid t (connect t)

structure Ordered {valid : Bytes → Prop} (engine : Engine valid) (md5 : Md5) (time : Int) (pin card doorname : Bytes) : Prop where
  order : ∀ t db mode, (∀ text, (db.rows text).Perm ((engine.connect t).rows text)) →
    maskOf md5 db time pin card mode doorname = maskOf md5 (engine.connect t) time pin card mode doorname
  growth : ∀ t t' mode, Pinned t' → More t t' →
    Within (maskOf md5 (engine.connect t) time pin card mode doorname) (maskOf md5 (engine.connect t') time pin card mode doorname)
  strict : ∀ t mode, Pinned t → mode = modeCardAndPin ∨ mode = modeCardAndPinAlways →
    Within (maskOf md5 (engine.connect t) time pin card mode doorname) (maskOf md5 (engine.connect t) time pin card modeCard doorname)

/- A row that every rule accepts, for the door's own name. -/
def welcome (md5 : Md5) (mode : Byte) (pin doorname : Bytes) : Row :=
  ⟨none,some (pinText md5 mode pin),some (2^31 - 1),some 1,none,some doorname⟩

theorem atoiStop (rest : Bytes) : atoi (0x25 :: rest) = some 0 := by
  have stop : scan 10 (0x25 :: rest) = (false,[]) := rfl
  have zero : number 10 [] = 0 := rfl
  unfold atoi
  rw [stop]
  dsimp only
  rw [zero]
  exact if_pos (by decide)

theorem welcomeBit (md5 : Md5) (time : Int) (mode : Byte) (pin doorname : Bytes) :
    ∃ m, rowMask mode (pinText md5 mode pin) doorname time (welcome md5 mode pin doorname) = some m ∧ m.getLsbD 0 = true := by
  have number : subdoor doorname (some doorname) = some ((0 : Nat) : Int) := by
    unfold subdoor
    cases place : doorname.findIdx? (· == 0x25) with
    | none => rfl
    | some place' =>
      obtain ⟨inside,wild,_⟩ := List.findIdx?_eq_some_iff_getElem.mp place
      rw [beq_iff_eq] at wild
      dsimp only
      rw [Option.bind_some,if_pos (Nat.le_of_lt inside),List.drop_eq_getElem_cons inside,wild]
      exact atoiStop _
  exact rowBit.mpr ⟨⟨latestDate time,fun _ => rfl,fun _ => ⟨_,rfl,.inl rfl⟩⟩,number,by decide⟩

/- A user with the card 00, linked to the door A once or twice. -/
def carded : User := ⟨1,some (cardHex [0]),some [],none,some 9⟩
def doorA : DoorRow := ⟨1,some (ascii ['A'])⟩
def onceLinked : Tables := single carded ⟨some 1,some 1,none,none⟩ doorA
def twiceLinked : Tables := {onceLinked with userDoor := [⟨some 1,some 1,none,none⟩,⟨some 1,some 1,some 1,none⟩]}

theorem twiceMore : More onceLinked twiceLinked := ⟨rfl,rfl,fun _ mem => List.mem_cons.mpr (.inl (List.mem_singleton.mp mem))⟩
theorem twicePinned : Pinned twiceLinked := by
  intro u mem
  rw [List.mem_singleton.mp mem]
  exact Option.some_ne_none _

section
variable {valid : Bytes → Prop}

/- An engine for a statement that counts the links, as the text between the quotes of a name can ask. -/
def counting [DecidablePred valid] (grammar : Grammar valid) {mode : Byte} {value doorname : Bytes} (quote : 0x27 ∈ doorname)
    (statement : valid (selectText mode value doorname)) (row : Row) : Engine valid where
  connect t := scripted valid t (selectText mode value doorname) (if t.userDoor.length < 2 then [row] else [])
  documented t := scriptedDocumented grammar t quote statement (by split; exacts [List.nodup_singleton row,List.nodup_nil])

/- The masks are ordered so for every engine just where the name leaves its literal alone, or nothing is prepared. -/
theorem masksOrdered (grammar : Grammar valid) (md5 : Md5) (time : Int) (pin card doorname : Bytes) :
    (∀ engine : Engine valid, Ordered engine md5 time pin card doorname) ↔
      0x27 ∉ doorname ∨ ∀ mode value, Asked md5 mode pin card doorname value → ¬ valid (selectText mode value doorname) := by
  classical
  constructor
  · intro each
    by_contra neither
    obtain ⟨quote,asked⟩ := not_or.mp neither
    rw [not_not] at quote
    push Not at asked
    obtain ⟨mode,value,asked,statement⟩ := asked
    let engine := counting grammar quote statement (welcome md5 mode pin doorname)
    have within := (each engine).growth _ _ mode twicePinned twiceMore
    unfold maskOf at within
    rw [askedValue _ time asked,askedValue _ time asked] at within
    have once : (engine.connect onceLinked).rows (selectText mode value doorname) = [welcome md5 mode pin doorname] := scriptedRows valid _ _ _
    have twice : (engine.connect twiceLinked).rows (selectText mode value doorname) = [] := scriptedRows valid _ _ _
    rw [once,twice] at within
    obtain ⟨l,mask,none'⟩ := within 0 rfl
    obtain ⟨out,loop,rfl⟩ := Option.map_eq_some_iff.mp mask
    have bit := (checkRowsBit (k := 0) loop).mpr (.inr ⟨_,List.mem_singleton.mpr rfl,welcomeBit md5 time mode pin doorname⟩)
    exact absurd (none' 0 bit) (by simp)
  · intro kept engine
    have tame : ∀ mode value, Asked md5 mode pin card doorname value → 0x27 ∉ doorname ∨ ¬ valid (selectText mode value doorname) :=
      fun mode value asked => kept.imp_right fun unprepared => unprepared mode value asked
    exact ⟨fun t db mode perm => orderMask perm,fun t t' mode _ more => growthMask (engine.documented t) (engine.documented t') more (tame mode),
      fun t mode pinned both => strictMask (engine.documented t) pinned (tame mode) both⟩

end

/- "A'AND(SELECT(COUNT(*))FROM(user_door))<(2)AND'1'LIKE'1", a word of the configuration. -/
def countName : Bytes := 0x41 :: 0x27 :: ascii ['A','N','D','(','S','E','L','E','C','T','(','C','O','U','N','T','(','*',')',')',
  'F','R','O','M','(','u','s','e','r','_','d','o','o','r',')',')','<','(','2',')','A','N','D'] ++
  0x27 :: 0x31 :: 0x27 :: ascii ['L','I','K','E'] ++ [0x27,0x31]

theorem countQuote : 0x27 ∈ countName := by decide
theorem countClosed : closed (selectText modeCard (cardHex [0]) countName) := by decide +kernel

/- The answers SQLite gives for that name on these tables: the card's row while there is one link. -/
def countEngine : Engine closed := counting closedGrammar countQuote countClosed (rowOf carded ⟨some 1,some 1,none,none⟩ doorA)

set_option maxRecDepth 10000 in
theorem linkTakesBit : Grammar closed ∧ Pinned twiceLinked ∧ More onceLinked twiceLinked ∧
    maskOf zeroMd5 (countEngine.connect onceLinked) 0 [] [0] modeCard countName = some 1 ∧
    maskOf zeroMd5 (countEngine.connect twiceLinked) 0 [] [0] modeCard countName = some 0 :=
  ⟨closedGrammar,twicePinned,twiceMore,by decide +kernel,by decide +kernel⟩

/- A name whose one apostrophe leaves a literal open asks nothing. -/
def oddName : Bytes := ascii ['O'] ++ 0x27 :: ascii ['B','r','i','e','n']

theorem oddOrdered : Ordered countEngine zeroMd5 0 [] [0] oddName :=
  (masksOrdered closedGrammar zeroMd5 0 [] [0] oddName).mpr
    (.inr fun mode value => oddUnprepared (fun _ => id) (by decide) mode [] [0] value) countEngine

end AccessControl.MaskOrder
