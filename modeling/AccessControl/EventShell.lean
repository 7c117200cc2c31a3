import AccessControl.EventSend

/-! The command of an event at the shell: one quoted word, unless a text that was put into it
closes the quotes. -/
namespace AccessControl.EventShell
open BitMask DoorTable Numeral Traced EventSend

/- The texts of an event that go into its command. -/
def args : Event → List (Option Bytes)
  | .authOk _ user card | .authErr user card | .authErrExpire user card | .authErrPin user card => [user,card]
  | .remoteCtrl type action arg => [type,action,arg]
  | _ => []

def detailsText (event : Event) (door : Option Bytes) : Bytes :=
  match event with
  | .authOk mask user card => maskText mask door ++ (userArg user ++ cardArg card)
  | .authErr user card | .authErrExpire user card | .authErrPin user card =>
    (if user.isSome then userArg user else []) ++ cardArg card
  | .doorUnlock mask | .doorLock mask => maskText mask door
  | .remoteCtrl type action arg => remoteArg type action arg
  | _ => []

/- The events that look for a `%` in the door's name. -/
def searches : Event → Bool
  | .authOk .. | .doorUnlock .. | .doorLock .. => true
  | _ => false

def url (host name : Bytes) (event : Event) (door : Option Bytes) : Bytes := http ++ host ++ eventQuery ++ name ++ detailsText event door
def wget (host name : Bytes) (event : Event) (door : Option Bytes) : Bytes := opening ++ url host name event door ++ closing

def nameOf (past : Option Bytes) (event : Event) : Option Bytes := (eventNames[eventType event]?).or past

/- A command is passed on with this host and this name. -/
structure Passed (eventHost past : Option Bytes) (event : Event) (door : Option Bytes) (host name : Bytes) : Prop where
  hosted : eventHost = some host
  named : nameOf past event = some name
  searched : searches event = true → door.isSome = true
  fits : (wget host name event door).length < bufSize

section
variable {eventHost past door : Option Bytes} {event : Event} {host name text piece : Bytes}

theorem appendValue (room : text.length ≤ bufSize) : (append text piece).value = some (text ++ piece) := by
  unfold append
  rw [valueBind,valueUse,if_pos room]
  rfl

theorem appendGrows {out : Bytes} (h : (append text piece).value = some out) : out = text ++ piece := by
  by_cases room : text.length ≤ bufSize
  · rw [appendValue room] at h
    exact (Option.some.inj h).symm
  · unfold append at h
    rw [valueBind,valueUse,if_neg room] at h
    cases h

theorem appendMaskGrows {mask : Mask} {out : Bytes} (h : (appendMask mask door text).value = some out) :
    out = text ++ maskText mask door ∧ door.isSome = true := by
  unfold appendMask at h
  rw [valueBind,valueUse] at h
  cases door with
  | none => cases h
  | some d =>
    rw [Option.bind_some] at h
    refine ⟨?_,rfl⟩
    unfold maskText
    rw [Option.getD_some]
    split at h
    · rename_i wild
      rw [if_pos wild]
      exact appendGrows h
    · rename_i plain
      rw [if_neg plain,List.append_nil]
      exact (Option.some.inj h).symm

theorem appendMaskValue (mask : Mask) (room : text.length ≤ bufSize) (some' : door.isSome = true) :
    (appendMask mask door text).value = some (text ++ maskText mask door) := by
  obtain ⟨d,rfl⟩ := Option.isSome_iff_exists.mp some'
  unfold appendMask maskText
  rw [valueBind,valueUse,Option.bind_some,Option.getD_some]
  split
  · exact appendValue room
  · rw [List.append_nil]
    rfl

theorem appendUserGrows {user : Option Bytes} {out : Bytes} (h : (appendUser user text).value = some out) :
    out = text ++ if user.isSome then userArg user else [] := by
  unfold appendUser at h
  split at h
  · rename_i given
    rw [if_pos given]
    exact appendGrows h
  · rename_i null
    rw [if_neg null,List.append_nil]
    exact (Option.some.inj h).symm

theorem appendUserValue (user : Option Bytes) (room : text.length ≤ bufSize) :
    (appendUser user text).value = some (text ++ if user.isSome then userArg user else []) := by
  unfold appendUser
  split
  · exact appendValue room
  · rw [List.append_nil]
    rfl

/- The details are appended as they are, where the calls before them leave room. -/
theorem detailsGrows {out : Bytes} (h : (details event door text).value = some out) :
    out = text ++ detailsText event door ∧ (searches event = true → door.isSome = true) := by
  have err : ∀ user card, (do let text ← appendUser user text; append text (cardArg card)).value = some out →
      out = text ++ ((if user.isSome then userArg user else []) ++ cardArg card) := by
    intro user card h
    rw [valueBind] at h
    obtain ⟨mid,first,last⟩ := Option.bind_eq_some_iff.mp h
    rw [appendGrows last,appendUserGrows first,List.append_assoc]
  unfold details at h
  cases event <;> dsimp only at h <;> simp only [searches,detailsText,true_imp_iff,Bool.false_eq_true,false_imp_iff,and_true]
  case authOk mask user card =>
    rw [valueBind] at h
    obtain ⟨mid,first,last⟩ := Option.bind_eq_some_iff.mp h
    obtain ⟨rfl,named⟩ := appendMaskGrows first
    exact ⟨by rw [appendGrows last,List.append_assoc],named⟩
  case authErr user card => exact err user card h
  case authErrExpire user card => exact err user card h
  case authErrPin user card => exact err user card h
  case doorUnlock mask => exact appendMaskGrows h
  case doorLock mask => exact appendMaskGrows h
  case remoteCtrl type action arg => exact appendGrows h
  all_goals
    rw [List.append_nil]
    exact (Option.some.inj h).symm

theorem detailsValue (room : (text ++ detailsText event door).length ≤ bufSize) (named : searches event = true → door.isSome = true) :
    (details event door text).value = some (text ++ detailsText event door) := by
  have start : text.length ≤ bufSize := by
    rw [List.length_append] at room
    omega
  have err : ∀ user card, (text ++ ((if user.isSome then userArg user else []) ++ cardArg card)).length ≤ bufSize →
      (do let text ← appendUser user text; append text (cardArg card)).value =
        some (text ++ ((if user.isSome then userArg user else []) ++ cardArg card)) := by
    intro user card room
    rw [← List.append_assoc,List.length_append] at room
    rw [valueBind,appendUserValue user start,Option.bind_some,appendValue (by omega),List.append_assoc]
  unfold details
  cases event <;> dsimp only [detailsText] at room ⊢
  case authOk mask user card =>
    rw [← List.append_assoc,List.length_append] at room
    rw [valueBind,appendMaskValue mask start (named rfl),Option.bind_some,appendValue (by omega),List.append_assoc]
  case authErr user card => exact err user card room
  case authErrExpire user card => exact err user card room
  case authErrPin user card => exact err user card room
  case doorUnlock mask => exact appendMaskValue mask start (named rfl)
  case doorLock mask => exact appendMaskValue mask start (named rfl)
  case remoteCtrl type action arg => exact appendValue start
  all_goals
    rw [List.append_nil]
    rfl

theorem wgetParts : wget host name event door =
    opening ++ http ++ host ++ eventQuery ++ name ++ detailsText event door ++ closing := by
  simp only [wget,url,List.append_assoc]

theorem passedFrom (h : (sendEvent eventHost past event door).value = some (some text)) :
    ∃ host name, Passed eventHost past event door host name ∧ text = wget host name event door := by
  unfold sendEvent at h
  rw [valueBind] at h
  obtain ⟨head,greeted,rest⟩ := Option.bind_eq_some_iff.mp h
  split at rest
  · cases Option.some.inj rest
  · rw [valueBind] at rest
    obtain ⟨mid,detailed,rest⟩ := Option.bind_eq_some_iff.mp rest
    obtain ⟨rfl,searched⟩ := detailsGrows detailed
    split at rest
    · cases Option.some.inj rest
    · rw [valueBind] at rest
      obtain ⟨whole,ended,rest⟩ := Option.bind_eq_some_iff.mp rest
      cases appendGrows ended
      have last := Option.some.inj rest
      split at last
      · cases last
      · rename_i passes
        obtain ⟨fits,hosted⟩ := not_or.mp passes
        obtain ⟨host,rfl⟩ := Option.ne_none_iff_exists'.mp hosted
        unfold greeting at greeted
        rw [valueBind,valueUse] at greeted
        obtain ⟨name,named,greeted⟩ := Option.bind_eq_some_iff.mp greeted
        cases appendGrows greeted
        rw [List.nil_append] at fits last
        rw [← wgetParts] at fits last
        exact ⟨host,name,⟨rfl,named,searched,not_le.mp fits⟩,(Option.some.inj last).symm⟩

theorem passedTo (passed : Passed eventHost past event door host name) :
    (sendEvent eventHost past event door).value = some (some (wget host name event door)) := by
  obtain ⟨rfl,named,searched,fits⟩ := passed
  rw [wgetParts] at fits
  have before := fits
  rw [List.length_append] at before
  have start := before
  rw [List.length_append] at start
  have greeted : (greeting past event (some host)).value = some (opening ++ http ++ host ++ eventQuery ++ name) := by
    unfold greeting
    rw [valueBind,valueUse]
    unfold nameOf at named
    rw [named,Option.bind_some,appendValue (Nat.zero_le _),List.nil_append]
  unfold sendEvent
  rw [valueBind,greeted,Option.bind_some,if_neg (by omega),valueBind,detailsValue (by omega) searched,Option.bind_some,
    if_neg (by omega),valueBind,appendValue (by omega),Option.bind_some,if_neg (by simp only [reduceCtorEq,or_false]; omega),wgetParts]
  rfl

/- What `system` gets: the whole command, if it fits and everything in it has a value. -/
theorem passedIff : (sendEvent eventHost past event door).value = some (some text) ↔
    ∃ host name, Passed eventHost past event door host name ∧ text = wget host name event door := by
  refine ⟨passedFrom,?_⟩
  rintro ⟨host,name,passed,rfl⟩
  exact passedTo passed

/- One quoted word between the quotes that the command writes itself. -/
def OneWord (text : Bytes) : Prop := ∃ word, text = opening ++ word ++ closing ∧ 0x27 ∉ word

theorem wgetWord : OneWord (wget host name event door) ↔ 0x27 ∉ url host name event door := by
  constructor
  · rintro ⟨word,same,plain⟩
    rw [wget,List.append_assoc,List.append_assoc] at same
    rw [List.append_cancel_right (List.append_cancel_left same)]
    exact plain
  · exact fun plain => ⟨_,rfl,plain⟩

theorem shownQuote {value : Option Bytes} : 0x27 ∈ shown value ↔ ∃ x, value = some x ∧ 0x27 ∈ x := by
  cases value with
  | none => exact iff_of_false (by decide) (by simp)
  | some x => simp [shown]

theorem signedPlain (v : Int) : 0x27 ∉ signed v := by
  have digits : 0x27 ∉ decimal v.natAbs := fun mem => absurd (decimalDigits _ _ mem) (by decide)
  unfold signed
  split
  · simpa using digits
  · exact digits

theorem maskPlain (mask : Mask) (door : Option Bytes) : 0x27 ∉ maskText mask door := by
  unfold maskText doorMaskArg
  split
  · rw [List.mem_append,not_or]
    exact ⟨by decide,signedPlain _⟩
  · exact List.not_mem_nil

/- Nothing but the spliced texts can bring a quote. -/
theorem detailsQuote : 0x27 ∈ detailsText event door ↔ ∃ x, some x ∈ args event ∧ 0x27 ∈ x := by
  have user : ∀ user, 0x27 ∈ userArg user ↔ 0x27 ∈ shown user := by
    intro user
    simp only [userArg,List.mem_append,or_iff_right_iff_imp]
    exact fun mem => absurd mem (by decide)
  have card : ∀ card, 0x27 ∈ cardArg card ↔ 0x27 ∈ shown card := by
    intro card
    simp only [cardArg,List.mem_append,or_iff_right_iff_imp]
    exact fun mem => absurd mem (by decide)
  have pair : ∀ user card : Option Bytes, (0x27 ∈ shown user ∨ 0x27 ∈ shown card) ↔ ∃ x, some x ∈ [user,card] ∧ 0x27 ∈ x := by
    intro user card
    simp only [shownQuote,List.mem_cons,List.not_mem_nil,or_false,or_and_right,exists_or,eq_comm]
  have err : ∀ u c : Option Bytes, 0x27 ∈ (if u.isSome then userArg u else []) ++ cardArg c ↔ 0x27 ∈ shown u ∨ 0x27 ∈ shown c := by
    intro u c
    rw [List.mem_append,card]
    cases u with
    | none => exact or_congr (iff_of_false (by simp) (by decide)) Iff.rfl
    | some u => rw [if_pos (show (some u).isSome = true from rfl),user]
  cases event <;> simp only [detailsText,args]
  case authOk mask u c => rw [List.mem_append,List.mem_append,user,card,or_iff_right (maskPlain mask door),pair]
  case authErr u c => rw [err,pair]
  case authErrExpire u c => rw [err,pair]
  case authErrPin u c => rw [err,pair]
  case doorUnlock mask => exact iff_of_false (maskPlain mask door) (by simp)
  case doorLock mask => exact iff_of_false (maskPlain mask door) (by simp)
  case remoteCtrl type action arg =>
    have fixed : ∀ {a b c : Bytes}, 0x27 ∉ a → 0x27 ∉ b → 0x27 ∉ c →
        (0x27 ∈ a ++ shown type ++ b ++ shown action ++ c ++ shown arg ↔ 0x27 ∈ shown type ∨ 0x27 ∈ shown action ∨ 0x27 ∈ shown arg) := by
      intro a b c first second third
      simp only [List.mem_append,first,second,third,false_or,or_false,or_assoc]
    rw [remoteArg,fixed (by decide) (by decide) (by decide)]
    simp only [shownQuote,List.mem_cons,List.not_mem_nil,or_false,or_and_right,exists_or,eq_comm]
  all_goals exact iff_of_false List.not_mem_nil (by simp)

/- No text that is spliced in holds a quote. -/
structure Plain (host name : Bytes) (event : Event) : Prop where
  host : 0x27 ∉ host
  name : 0x27 ∉ name
  args : ∀ x, some x ∈ args event → 0x27 ∉ x

theorem urlPlain : 0x27 ∉ url host name event door ↔ Plain host name event := by
  have fixed : 0x27 ∉ http ∧ 0x27 ∉ eventQuery := by decide
  have parts : 0x27 ∈ url host name event door ↔ 0x27 ∈ host ∨ 0x27 ∈ name ∨ 0x27 ∈ detailsText event door := by
    simp only [url,List.mem_append,fixed.1,fixed.2,false_or,or_false,or_assoc]
  rw [parts,detailsQuote]
  constructor
  · intro none
    exact ⟨fun mem => none (.inl mem),fun mem => none (.inr (.inl mem)),fun x inside mem => none (.inr (.inr ⟨x,inside,mem⟩))⟩
  · rintro ⟨host,name,args⟩ (mem | mem | ⟨x,inside,mem⟩)
    · exact host mem
    · exact name mem
    · exact args x inside mem

/- What an event hands to the shell is one quoted word just when no spliced text has a quote. -/
theorem oneQuotedWord (eventHost past : Option Bytes) (event : Event) (door : Option Bytes) :
    (∀ text, (sendEvent eventHost past event door).value = some (some text) → OneWord text) ↔
    ∀ host name, Passed eventHost past event door host name → Plain host name event := by
  constructor
  · intro word host name passed
    exact urlPlain.mp (wgetWord.mp (word _ (passedIff.mpr ⟨host,name,passed,rfl⟩)))
  · intro plain text called
    obtain ⟨host,name,passed,rfl⟩ := passedIff.mp called
    exact wgetWord.mpr (urlPlain.mpr (plain host name passed))

end

/- The record of an admission with a quote in the name. -/
def quoteEvent : Event := .authOk 1 (some [0x61,0x27,0x62]) (some [0x30,0x30])

theorem quoteEscapes : ∃ text, (sendEvent (some (ascii ['h'])) none quoteEvent (some (ascii ['A']))).value = some (some text) ∧
    ¬ OneWord text := by
  refine ⟨wget (ascii ['h']) (eventNames.headD []) quoteEvent (some (ascii ['A'])),?_,fun word => ?_⟩
  · decide +kernel
  · exact absurd (wgetWord.mp word) (by decide +kernel)

end AccessControl.EventShell
