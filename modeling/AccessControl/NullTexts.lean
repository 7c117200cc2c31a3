import AccessControl.MaskOrder

/-! Null texts in the question for a mask. A stored pin may be null where a mode compares it;
the door's own name is searched only behind a `%` of the configured one. -/
namespace AccessControl.NullTexts
open BitMask DoorTable DoorController Numeral Traced UserDb UserRows DoorNames MaskOrder

/- No text is compared, and none is searched, that is null. -/
def NonNull (doorname : Bytes) : Use → Prop
  | .compare text => text ≠ none
  | .string text => text ≠ none ∨ 0x25 ∉ doorname
  | _ => True

section
variable {md5 : Md5} {db : Connection} {time : Int} {mode : Byte} {pinMd5 pin card doorname : Bytes}

theorem guardsDiffers (text : Option Bytes) (other : Bytes) : Guards (NonNull doorname) (differs text other) := by
  refine guardsUse fun some' => ?_
  rintro rfl
  cases some'

theorem guardsDigits {size : Nat} {hex : Byte → Bytes} (bytes : Bytes) (text : Option Bytes) :
    Guards (NonNull doorname) (sprintfHex size hex bytes text) := by
  induction bytes generalizing text with
  | nil => exact guardsPure text
  | cons b bytes ih => exact guardsBind (guardsUse fun _ => trivial) fun _ => ih _

theorem guardsString (text : Option Bytes) : Guards (NonNull doorname) (string text) := by
  refine guardsUse fun some' => .inl ?_
  rintro rfl
  cases some'

theorem guardsStatement (pinMd5 cardStr : Option Bytes) : Guards (NonNull doorname) (statement mode pinMd5 cardStr doorname) := by
  have append' : ∀ text piece, Guards (NonNull doorname) (append text piece) :=
    fun text piece => guardsBind (guardsNote trivial) fun _ => guardsPure _
  have condition' : Guards (NonNull doorname) (condition mode pinMd5 cardStr) := by
    unfold condition
    split
    · exact guardsBind (guardsString _) fun _ => guardsPure _
    · split
      · exact guardsBind (guardsString _) fun _ => guardsPure _
      · exact guardsPure _
  refine guardsBind (append' _ _) fun text => ?_
  split
  · exact guardsPure _
  · refine guardsBind condition' fun found => ?_
    cases found with
    | none => exact guardsPure _
    | some piece =>
      refine guardsBind (append' _ _) fun text => ?_
      split
      · exact guardsPure _
      · exact guardsBind (append' _ _) fun _ => guardsPure _

/- The number behind the `%` reads the door's name just when there is a `%`. -/
theorem guardsDoor (door : Option Bytes) : Guards (NonNull doorname) (use (.string door) (subdoor doorname door)) := by
  refine guardsUse fun some' => ?_
  by_cases wildcard : 0x25 ∈ doorname
  · refine .inl ?_
    rintro rfl
    unfold subdoor at some'
    cases place : doorname.findIdx? (· == 0x25) with
    | none => exact absurd (List.findIdx?_eq_none_iff.mp place 0x25 wildcard) (by decide)
    | some k =>
      rw [place] at some'
      cases some'
  · exact .inr wildcard

theorem guardsRows (rows : List Row) (found : Found) : Guards (NonNull doorname) (checkRows mode pinMd5 doorname time rows found) := by
  have wrong : ∀ row, Guards (NonNull doorname) (wrongPin mode pinMd5 row) := by
    intro row
    unfold wrongPin
    split
    · exact guardsDiffers _ _
    · split
      · exact guardsBind (guardsDiffers _ _) fun _ => guardsPure _
      · exact guardsPure _
  have turn : ∀ row found, Guards (NonNull doorname) (checkRow mode pinMd5 doorname time row found) := by
    intro row found
    unfold checkRow
    split
    · exact guardsPure _
    · refine guardsBind (wrong row) fun refused => ?_
      split
      · exact guardsPure _
      · exact guardsBind (guardsDoor row.door) fun _ => guardsBind (guardsUse fun _ => trivial) fun _ => guardsPure _
  induction rows generalizing found with
  | nil => exact guardsPure found
  | cons row rows ih => exact guardsBind (turn row found) ih

/- A call that returns has met no null text. -/
theorem guardsCall : Guards (NonNull doorname) (getAccessMask2 md5 db time pin card mode doorname) := by
  have digest : Guards (NonNull doorname) (UserDb.pinMd5 md5 mode pin) := by
    unfold UserDb.pinMd5
    split
    · exact guardsDigits _ _
    · exact guardsPure _
  have digits : Guards (NonNull doorname) (cardStr mode card) := by
    unfold cardStr
    split
    · exact guardsDigits _ _
    · exact guardsPure _
  refine guardsBind digest fun pinMd5 => ?_
  split
  · exact guardsPure _
  · refine guardsBind digits fun cardStr => guardsBind (guardsStatement _ _) fun text => ?_
    cases text with
    | none => exact guardsPure _
    | some text => exact guardsBind (guardsNote trivial) fun _ => guardsBind (guardsRows _ _) fun _ => guardsPure _

end

/- The modes that ask for a pin. -/
def requiresPin (mode : Byte) : Bool := mode = modePin || comparesPin mode

/- A call that meets no null text, returns, and gives nothing to users without a stored pin where one is required. -/
structure Safe (t : Tables) (md5 : Md5) (db : Connection) (time : Int) (pin card : Bytes) (mode : Byte) (doorname : Bytes) : Prop where
  nonNull : Every (NonNull doorname) (getAccessMask2 md5 db time pin card mode doorname)
  returns : (getAccessMask2 md5 db time pin card mode doorname).value.isSome
  pinless : requiresPin mode = true → (∀ u ∈ t.users, (cardMode mode = true → u.card = some (cardHex card)) → u.pin = none) →
    ∀ answer, (getAccessMask2 md5 db time pin card mode doorname).value = some answer → answer.mask = 0

/- Every unexpired row of the presented user has its pin where it is compared, and the number of a sub-door where it counts. -/
def Complete (t : Tables) (md5 : Md5) (time : Int) (pin : Bytes) (mode : Byte) (doorname value : Bytes) : Prop :=
  ∀ u ud d, Selected t mode value doorname u ud d → currTime time ≤ columnInt u.expireDate →
    (comparesPin mode = true → u.pin ≠ none) ∧
      (PinMet mode (pinText md5 mode pin) (rowOf u ud d) → ∃ sub, subdoor doorname d.name = some sub ∧ 0 ≤ sub ∧ sub < 32)

/- A mode and a name for which no text of a row is read. -/
def Unread (t : Tables) (mode : Byte) (doorname : Bytes) : Prop :=
  0x25 ∉ doorname ∧ comparesPin mode = false ∧ (mode = modePin → ∃ u ∈ t.users, u.pin ≠ none)

section
variable {valid : Bytes → Prop} {md5 : Md5} {t : Tables} {db : Connection} {time : Int} {mode : Byte} {pin card doorname value : Bytes}

theorem safeReturns (returns : (getAccessMask2 md5 db time pin card mode doorname).value.isSome)
    (pinless : requiresPin mode = true → (∀ u ∈ t.users, (cardMode mode = true → u.card = some (cardHex card)) → u.pin = none) →
      ∀ answer, (getAccessMask2 md5 db time pin card mode doorname).value = some answer → answer.mask = 0) :
    Safe t md5 db time pin card mode doorname := ⟨guardsCall returns,returns,pinless⟩

theorem nothingSafe (nothing : ∃ answer, (getAccessMask2 md5 db time pin card mode doorname).value = some answer ∧ answer.mask = 0) :
    Safe t md5 db time pin card mode doorname := by
  obtain ⟨answer,value,zero⟩ := nothing
  refine safeReturns (Option.isSome_iff_exists.mpr ⟨answer,value⟩) fun _ _ answer' value' => ?_
  rw [value] at value'
  cases Option.some.inj value'
  exact zero

/- A card of at least a byte has its digits: without a statement the call returns and grants nothing. -/
theorem unaskedSafe (some' : card ≠ []) (unasked : ∀ value, ¬ Asked md5 mode pin card doorname value) :
    Safe t md5 db time pin card mode doorname := by
  have mask : maskOf md5 db time pin card mode doorname = some 0 := by
    rw [unaskedMask unasked,unanswered,if_neg fun h => some' h.2.1]
  exact nothingSafe (Option.map_eq_some_iff.mp mask)

theorem completeSafe (documented : Documented valid t db) (plain : 0x27 ∉ doorname) (asked : Asked md5 mode pin card doorname value)
    (complete : Complete t md5 time pin mode doorname value) : Safe t md5 db time pin card mode doorname := by
  refine safeReturns ((maskSome time documented plain asked).mpr fun u ud d selected => rowSome.mpr (complete u ud d selected)) ?_
  intro required none' answer given
  by_contra granted
  obtain ⟨k,bit⟩ := maskNonzero.mp granted
  obtain ⟨u,ud,d,selected,accepted,_⟩ := (maskBit documented plain asked given).mp bit
  have empty : u.pin = none := none' u selected.user (askedPresents asked selected.value).card
  rw [requiresPin,Bool.or_eq_true,decide_eq_true_eq] at required
  rcases required with pinMode | compares
  · have presented := (askedPresents asked selected.value).pin pinMode
    rw [empty] at presented
    cases presented
  · exact absurd empty ((complete u ud d selected accepted.unexpired).1 compares)

theorem unreadSafe (asked : Asked md5 mode pin card doorname value) (unread : Unread t mode doorname) : Safe t md5 db time pin card mode doorname := by
  obtain ⟨noRun,free,someone⟩ := unread
  refine safeReturns ((answerSome time asked).mpr fun row _ => rowSome.mpr fun _ => ⟨fun compares => ?_,fun _ => ?_⟩) ?_
  · rw [free] at compares
    cases compares
  · exact ⟨0,subdoorSingle noRun row.door,by decide,by decide⟩
  · intro required none' answer given
    rw [requiresPin,free,Bool.or_false,decide_eq_true_eq] at required
    obtain ⟨u,user,stored⟩ := someone required
    exact absurd (none' u user fun card => absurd required (cardOther card)) stored

/- A row without a pin stops the modes that compare it. -/
def pinlessRow : Row := ⟨none,none,some (2^31 - 1),some 1,none,none⟩

theorem pinlessStops (asked : Asked md5 mode pin card doorname value) (rows : db.rows (selectText mode value doorname) = [pinlessRow])
    (returns : (getAccessMask2 md5 db time pin card mode doorname).value.isSome) : comparesPin mode = false := by
  rw [answerSome time asked,rows] at returns
  by_contra compares
  rw [Bool.not_eq_false] at compares
  exact (rowSome.mp (returns _ (List.mem_singleton.mpr rfl)) (latestDate time)).1 compares rfl

/- Of a statement whose literal the name has ended only the modes that read nothing of a row are safe for every engine. -/
theorem quotedUnread (grammar : Grammar valid) (quote : 0x27 ∈ doorname) (asked : Asked md5 mode pin card doorname value)
    (statement : valid (selectText mode value doorname)) (safe : ∀ db, Documented valid t db → Safe t md5 db time pin card mode doorname) :
    Unread t mode doorname := by
  classical
  have answered : ∀ row, Safe t md5 (answering valid t (selectText mode value doorname) row) time pin card mode doorname :=
    fun row => safe _ (answeringDocumented grammar t quote statement row)
  refine ⟨fun wildcard => ?_,pinlessStops asked (answeringRows valid t _ _) (answered pinlessRow).returns,fun pinMode => ?_⟩
  · cases place : doorname.findIdx? (· == 0x25) with
    | none => exact absurd (List.findIdx?_eq_none_iff.mp place 0x25 wildcard) (by decide)
    | some k =>
      have returns := (answered (namelessRow md5 mode pin)).returns
      rw [namelessStops doorname place asked (answeringRows valid t _ _)] at returns
      cases returns
  · by_contra none'
    have safe' := answered (welcome md5 mode pin doorname)
    obtain ⟨answer,given⟩ := Option.isSome_iff_exists.mp safe'.returns
    have zero := safe'.pinless (by rw [requiresPin,pinMode]; decide) (fun u user _ => by
      by_contra stored
      exact none' ⟨u,user,stored⟩) answer given
    have bit := (answerBit (k := 0) asked given).mpr ⟨welcome md5 mode pin doorname,by rw [answeringRows]; exact List.mem_singleton.mpr rfl,
      welcomeBit md5 time mode pin doorname⟩
    rw [zero] at bit
    exact absurd bit (by simp)

/- The check is safe on every engine just where it asks nothing, where every row it asks for is
complete, where its statement does not prepare, or where it reads nothing of a row. -/
theorem accessSafe (grammar : Grammar valid) (t : Tables) (md5 : Md5) (time : Int) (pin : Bytes) (some' : card ≠ []) (mode : Byte)
    (doorname : Bytes) :
    (∀ db, Documented valid t db → Safe t md5 db time pin card mode doorname) ↔
      ∀ value, Asked md5 mode pin card doorname value →
        0x27 ∉ doorname ∧ Complete t md5 time pin mode doorname value ∨ ¬ valid (selectText mode value doorname) ∨ Unread t mode doorname := by
  classical
  constructor
  · intro safe value asked
    by_cases plain : 0x27 ∈ doorname
    · by_cases statement : valid (selectText mode value doorname)
      · exact .inr (.inr (quotedUnread grammar plain asked statement safe))
      · exact .inr (.inl statement)
    · refine .inl ⟨plain,fun u ud d selected intime => ?_⟩
      have documented := gatedDocumented grammar t
      exact rowSome.mp ((maskSome time documented plain asked).mp (safe _ documented).returns u ud d selected) intime
  · intro condition db documented
    by_cases asked : ∃ value, Asked md5 mode pin card doorname value
    · obtain ⟨value,asked⟩ := asked
      rcases condition value asked with ⟨plain,complete⟩ | refused | unread
      · exact completeSafe documented plain asked complete
      · exact nothingSafe (silentAnswer documented time asked refused)
      · exact unreadSafe asked unread
    · exact unaskedSafe some' fun value h => asked ⟨value,h⟩

end

theorem cardSafe : Safe onceLinked zeroMd5 (reference onceLinked) 0 [] [0] modeCard (ascii ['A']) := by
  have unread : Unread onceLinked modeCard (ascii ['A']) := ⟨by decide,by decide,fun pin => absurd pin (by decide)⟩
  exact (accessSafe closedGrammar onceLinked zeroMd5 0 [] (by decide) modeCard (ascii ['A'])).mpr (fun _ _ => .inr (.inr unread)) _
    (referenceDocumented onceLinked)

/- A user who was given no pin, at a door that always asks for one. -/
def forgetful : Tables := single ⟨1,some (cardHex [0]),none,none,some 9⟩ ⟨some 1,some 1,none,none⟩ doorA

set_option maxRecDepth 10000 in
theorem nullCompared : Grammar closed ∧ Documented closed forgetful (reference forgetful) ∧
    .compare none ∈ (getAccessMask2 zeroMd5 (reference forgetful) 0 [0x31] [0] modeCardAndPinAlways (ascii ['A'])).uses ∧
    (getAccessMask2 zeroMd5 (reference forgetful) 0 [0x31] [0] modeCardAndPinAlways (ascii ['A'])).value = none :=
  ⟨closedGrammar,referenceDocumented forgetful,by decide +kernel,by decide +kernel⟩

end AccessControl.NullTexts
