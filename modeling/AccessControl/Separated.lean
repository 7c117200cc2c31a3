import Mathlib.Data.List.TakeWhile

/-! Words between separators: taking the next one off the front of a text, all of them in
order, and programs that take words one after the other, which see only the list. -/
namespace AccessControl.Separated

variable {α β γ : Type} (sep : α → Bool)

/- The next word, if one is left, and the text behind the separator that ends it. -/
def next (text : List α) : Option (List α) × List α :=
  match text.dropWhile sep with
  | [] => (none,[])
  | c :: rest => (some ((c :: rest).takeWhile (fun c => !sep c)),((c :: rest).dropWhile (fun c => !sep c)).drop 1)

def wordsFuel : Nat → List α → List (List α)
  | 0, _ => []
  | fuel + 1, text => match next sep text with
    | (none,_) => []
    | (some word,rest) => word :: wordsFuel fuel rest

def words (text : List α) : List (List α) := wordsFuel sep (text.length + 1) text

section
variable {sep} {gap word rest text : List α} {d : α}

theorem nextShorter (found : (next sep text).1 = some word) : (next sep text).2.length < text.length := by
  have size := (List.dropWhile_suffix sep (l := text)).length_le
  rw [next] at found ⊢
  cases front : text.dropWhile sep with
  | nil =>
    rw [front] at found
    cases found
  | cons c tail =>
    have solid := List.head?_dropWhile_not sep text
    rw [front] at size solid
    have kept : ((c :: tail).dropWhile (fun c => !sep c)) = tail.dropWhile (fun c => !sep c) :=
      List.dropWhile_cons_of_pos (by simpa using solid)
    have less := (List.dropWhile_suffix (fun c => !sep c) (l := tail)).length_le
    simp only [kept,List.length_drop]
    rw [List.length_cons] at size
    omega

theorem dropGap (blank : ∀ b ∈ gap, sep b = true) (text : List α) : (gap ++ text).dropWhile sep = text.dropWhile sep := by
  induction gap with
  | nil => rfl
  | cons c gap ih =>
    rw [List.cons_append,List.dropWhile_cons_of_pos (blank c List.mem_cons_self)]
    exact ih (fun b member => blank b (List.mem_cons_of_mem c member))

theorem nextGap (blank : ∀ b ∈ gap, sep b = true) (text : List α) : next sep (gap ++ text) = next sep text := by
  rw [next,dropGap blank,next]

theorem nextWord (some' : word ≠ []) (solid : ∀ b ∈ word, sep b = false) (ends : sep d = true) (rest : List α) :
    next sep (word ++ d :: rest) = (some word,rest) := by
  obtain ⟨c,tail,rfl⟩ := List.exists_cons_of_ne_nil some'
  have first : ¬ sep c = true := by rw [solid c List.mem_cons_self]; decide
  have all : ∀ b ∈ c :: tail, (!sep b) = true := fun b member => by rw [solid b member]; rfl
  have stop : ¬ (fun c => !sep c) d = true := by simp [ends]
  have word : (c :: tail ++ d :: rest).takeWhile (fun c => !sep c) = c :: tail := by
    rw [List.takeWhile_append_of_pos all,List.takeWhile_cons_of_neg (p := fun c => !sep c) stop,List.append_nil]
  have left : (c :: tail ++ d :: rest).dropWhile (fun c => !sep c) = d :: rest := by
    rw [List.dropWhile_append_of_pos all,List.dropWhile_cons_of_neg (p := fun c => !sep c) stop]
  rw [next,List.cons_append,List.dropWhile_cons_of_neg first]
  rw [List.cons_append] at word left
  simp only [word,left,List.drop_one,List.tail_cons]

/- With fuel for the whole text the words do not depend on it. -/
theorem wordsFuelEnough {fuel more : Nat} (enough : text.length < fuel) (also : text.length < more) :
    wordsFuel sep fuel text = wordsFuel sep more text := by
  induction fuel generalizing more text with
  | zero => omega
  | succ fuel ih =>
    obtain ⟨more,rfl⟩ := Nat.exists_eq_add_of_lt (Nat.lt_of_le_of_lt (Nat.zero_le _) also)
    rw [Nat.zero_add] at also ⊢
    rw [wordsFuel,wordsFuel]
    cases found : next sep text with
    | mk first behind =>
      cases first with
      | none => rfl
      | some word =>
        have taken : (next sep text).1 = some word := by rw [found]
        have shorter := nextShorter taken
        simp only [found] at shorter
        exact congrArg (word :: ·) (ih (by omega) (by omega))

theorem wordsNext (text : List α) : words sep text = match next sep text with
    | (none,_) => []
    | (some word,rest) => word :: words sep rest := by
  rw [words,wordsFuel]
  cases found : next sep text with
  | mk first behind =>
    cases first with
    | none => rfl
    | some word =>
      have taken : (next sep text).1 = some word := by rw [found]
      have shorter := nextShorter taken
      rw [found] at shorter
      exact congrArg (word :: ·) (wordsFuelEnough shorter (Nat.lt_succ_self _))

theorem wordsGap (blank : ∀ b ∈ gap, sep b = true) (text : List α) : words sep (gap ++ text) = words sep text := by
  rw [wordsNext,nextGap blank,← wordsNext]

theorem wordsWord (some' : word ≠ []) (solid : ∀ b ∈ word, sep b = false) (ends : sep d = true) (rest : List α) :
    words sep (word ++ d :: rest) = word :: words sep rest := by rw [wordsNext,nextWord some' solid ends]

end

/- A program over the text and one over its words, which fail together and leave as much. -/
def Follows (sep : α → Bool) (x : StateT (List α) Option β) (y : StateT (List (List α)) Option β) : Prop :=
  ∀ text, (x text).map (fun found => (found.1,words sep found.2)) = y (words sep text)

def take (sep : α → Bool) : StateT (List α) Option (List α) := fun text => match next sep text with
  | (none,_) => none
  | (some word,rest) => some (word,rest)

def pop : StateT (List (List α)) Option (List α)
  | [] => none
  | word :: rest => some (word,rest)

section
variable {sep}

theorem takeFollows : Follows sep (take sep) pop := by
  intro text
  rw [wordsNext,take]
  cases found : next sep text with
  | mk first behind => cases first <;> rfl

theorem pureFollows (b : β) : Follows sep (pure b) (pure b) := fun _ => rfl

theorem bindFollows {x : StateT (List α) Option β} {y : StateT (List (List α)) Option β}
    {f : β → StateT (List α) Option γ} {g : β → StateT (List (List α)) Option γ}
    (first : Follows sep x y) (then' : ∀ b, Follows sep (f b) (g b)) : Follows sep (x >>= f) (y >>= g) := by
  intro text
  have one := first text
  show ((x text).bind fun found => f found.1 found.2).map _ = (y (words sep text)).bind fun found => g found.1 found.2
  rw [← one]
  cases x text with
  | none => rfl
  | some found => exact then' found.1 found.2

end
end AccessControl.Separated
