import Mathlib.Data.List.Basic

/-! Symbols that are compressed a block at a time: the ones that do not fill a block wait for
the next. Fewer than a block ever wait, and where the input is cut does not matter. -/
namespace AccessControl.BlockStream

variable {α σ : Type*} {size : Nat}

structure Stream (α σ : Type*) (size : Nat) where
  chain : σ
  waiting : List α
  short : waiting.length < size

@[ext] theorem streamExt {s t : Stream α σ size} (chain : s.chain = t.chain) (waiting : s.waiting = t.waiting) : s = t := by
  cases s; cases t; cases chain; cases waiting; rfl

def fresh (chain : σ) (positive : 0 < size) : Stream α σ size := ⟨chain,[],positive⟩

def push (compress : σ → List α → σ) (s : Stream α σ size) (x : α) : Stream α σ size :=
  if room : s.waiting.length + 1 < size then ⟨s.chain,s.waiting ++ [x],by rw [List.length_append]; exact room⟩
  else ⟨compress s.chain (s.waiting ++ [x]),[],Nat.lt_of_le_of_lt (Nat.zero_le _) s.short⟩

def absorb (compress : σ → List α → σ) (s : Stream α σ size) (input : List α) : Stream α σ size :=
  input.foldl (push compress) s

theorem inBlocks {input : List α} (whole : size ∣ input.length) :
    ∃ blocks : List (List α), blocks.flatten = input ∧ ∀ block ∈ blocks, block.length = size := by
  obtain ⟨count,length⟩ := whole
  induction count generalizing input with
  | zero => exact ⟨[],(List.eq_nil_of_length_eq_zero length).symm,fun _ member => absurd member List.not_mem_nil⟩
  | succ count ih =>
    rw [Nat.mul_succ] at length
    have rest : (input.drop size).length = size * count := by
      rw [List.length_drop]
      omega
    obtain ⟨blocks,flat,each⟩ := ih rest
    refine ⟨input.take size :: blocks,?_,?_⟩
    · rw [List.flatten_cons,flat,List.take_append_drop]
    · intro block member
      rcases List.mem_cons.mp member with rfl | member
      · rw [List.length_take]
        omega
      · exact each block member

section
variable (compress : σ → List α → σ)

theorem absorbNil (s : Stream α σ size) : absorb compress s [] = s := rfl

theorem absorbAppend (s : Stream α σ size) (first second : List α) :
    absorb compress s (first ++ second) = absorb compress (absorb compress s first) second := List.foldl_append

theorem pushWaits {s : Stream α σ size} {x : α} (room : s.waiting.length + 1 < size) :
    push compress s x = ⟨s.chain,s.waiting ++ [x],by rw [List.length_append]; exact room⟩ := by rw [push,dif_pos room]

theorem pushFills {s : Stream α σ size} {x : α} (full : s.waiting.length + 1 = size) :
    push compress s x = ⟨compress s.chain (s.waiting ++ [x]),[],Nat.lt_of_le_of_lt (Nat.zero_le _) s.short⟩ := by
  rw [push,dif_neg (by omega)]

theorem absorbWaits {s : Stream α σ size} {input : List α} (room : s.waiting.length + input.length < size) :
    absorb compress s input = ⟨s.chain,s.waiting ++ input,by rw [List.length_append]; exact room⟩ := by
  induction input generalizing s with
  | nil => ext <;> simp [absorbNil]
  | cons x input ih =>
    rw [List.length_cons] at room
    have one := pushWaits compress (x := x) (show s.waiting.length + 1 < size by omega)
    have rest : (push compress s x).waiting.length + input.length < size := by
      rw [one,List.length_append,List.length_singleton]
      omega
    rw [absorb,List.foldl_cons]
    refine (ih rest).trans ?_
    ext <;> simp [one]

theorem absorbFills {s : Stream α σ size} {input : List α} (full : s.waiting.length + input.length = size) :
    absorb compress s input = ⟨compress s.chain (s.waiting ++ input),[],Nat.lt_of_le_of_lt (Nat.zero_le _) s.short⟩ := by
  have some : input ≠ [] := by
    rintro rfl
    have := s.short
    rw [List.length_nil] at full
    omega
  obtain ⟨front,last,rfl⟩ := List.eq_nil_or_concat input |>.resolve_left some
  rw [List.concat_eq_append] at full ⊢
  rw [List.length_append,List.length_singleton] at full
  have room : s.waiting.length + front.length < size := by omega
  have before := absorbWaits compress room
  have filled : (absorb compress s front).waiting.length + 1 = size := by
    rw [before,List.length_append]
    omega
  rw [absorbAppend,absorb,List.foldl_cons,List.foldl_nil,pushFills compress filled]
  ext <;> simp [before]

theorem absorbBlock (positive : 0 < size) (chain : σ) {block : List α} (whole : block.length = size) :
    absorb compress (fresh chain positive) block = fresh (compress chain block) positive := by
  have full : (fresh (α := α) chain positive).waiting.length + block.length = size := by
    rw [whole]
    exact Nat.zero_add size
  exact absorbFills compress full

/- Whole blocks leave nothing waiting. -/
theorem absorbBlocks (positive : 0 < size) {blocks : List (List α)} (whole : ∀ block ∈ blocks, block.length = size) (chain : σ) :
    absorb compress (fresh chain positive) blocks.flatten = fresh (blocks.foldl compress chain) positive := by
  induction blocks generalizing chain with
  | nil => rfl
  | cons block blocks ih =>
    rw [List.flatten_cons,absorbAppend,absorbBlock compress positive chain (whole block List.mem_cons_self),List.foldl_cons]
    exact ih (fun b hb => whole b (List.mem_cons_of_mem block hb)) (compress chain block)

theorem absorbLength (s : Stream α σ size) (input : List α) :
    (absorb compress s input).waiting.length = (s.waiting.length + input.length) % size := by
  induction input generalizing s with
  | nil => rw [absorbNil,List.length_nil,Nat.add_zero,Nat.mod_eq_of_lt s.short]
  | cons x input ih =>
    have short := s.short
    rw [absorb,List.foldl_cons]
    refine (ih _).trans ?_
    by_cases room : s.waiting.length + 1 < size
    · rw [pushWaits compress room,List.length_append,List.length_singleton,List.length_cons,Nat.add_assoc,Nat.add_comm 1]
    · have full : s.waiting.length + 1 = size := by omega
      have sum : s.waiting.length + (input.length + 1) = input.length + size := by omega
      rw [pushFills compress full,List.length_nil,List.length_cons,sum,Nat.add_mod_right,Nat.zero_add]

end
end AccessControl.BlockStream
