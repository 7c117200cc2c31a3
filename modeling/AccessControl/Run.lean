import Mathlib.Logic.Relation
import Mathlib.Data.List.FinRange

/-! Runs of a guarded labelled step relation and append-only logs. Both are
about arbitrary states and labels; a guard reads the state before its step. -/
namespace AccessControl.Run

variable {σ α β : Type*}

def Guarded (step : α → σ → σ → Prop) (guard : σ → α → Prop) (s t : σ) : Prop :=
  ∃ a, guard s a ∧ step a s t

def Runs (step : α → σ → σ → Prop) (guard : σ → α → Prop) : σ → σ → Prop :=
  Relation.ReflTransGen (Guarded step guard)

section
variable {step : α → σ → σ → Prop} {guard wider : σ → α → Prop}

theorem runRefl (s : σ) : Runs step guard s s := .refl

theorem runOne {s t : σ} {a : α} (allowed : guard s a) (taken : step a s t) : Runs step guard s t :=
  .single ⟨a,allowed,taken⟩

theorem runTrans {s t u : σ} (first : Runs step guard s t) (second : Runs step guard t u) :
    Runs step guard s u := Relation.ReflTransGen.trans first second

theorem runMono (implies : ∀ s a, guard s a → wider s a) {s t : σ} (run : Runs step guard s t) :
    Runs step wider s t := by
  refine Relation.ReflTransGen.mono ?_ s t run
  rintro s t ⟨a,allowed,taken⟩
  exact ⟨a,implies s a allowed,taken⟩

/- The one induction over runs: what every allowed step keeps, a run keeps. -/
theorem runInvariant (inv : σ → Prop) (keeps : ∀ s a t, guard s a → inv s → step a s t → inv t)
    {s t : σ} (run : Runs step guard s t) (start : inv s) : inv t := by
  induction run with
  | refl => exact start
  | tail _ last ih =>
    obtain ⟨a,allowed,taken⟩ := last
    exact keeps _ a _ allowed ih taken

end

/- A loop over a list is the run of its bodies. -/
theorem foldlRuns {step : α → σ → σ → Prop} {guard : σ → α → Prop} {f : σ → β → σ} {xs : List β}
    (body : ∀ s, ∀ x ∈ xs, Runs step guard s (f s x)) (s : σ) : Runs step guard s (xs.foldl f s) := by
  induction xs generalizing s with
  | nil => exact runRefl s
  | cons x xs ih =>
    exact runTrans (body s x List.mem_cons_self) (ih (fun s y hy => body s y (List.mem_cons_of_mem x hy)) _)

/- And a list of labels is a run where each is allowed when its turn comes. -/
theorem foldlAllowed {guard : σ → α → Prop} (f : σ → α → σ) (xs : List α) {s : σ}
    (allowed : ∀ k, ∀ inside : k < xs.length, guard ((xs.take k).foldl f s) xs[k]) :
    Runs (fun a s t => t = f s a) guard s (xs.foldl f s) := by
  induction xs generalizing s with
  | nil => exact runRefl s
  | cons x xs ih =>
    have first : guard s x := allowed 0 (Nat.zero_lt_succ _)
    exact runTrans (runOne first rfl) (ih fun k inside => allowed (k + 1) (Nat.succ_lt_succ inside))

theorem foldlInvariant (inv : σ → Prop) {f : σ → β → σ} {xs : List β}
    (body : ∀ s, ∀ x ∈ xs, inv s → inv (f s x)) {s : σ} (start : inv s) : inv (xs.foldl f s) := by
  induction xs generalizing s with
  | nil => exact start
  | cons x xs ih =>
    exact ih (fun s y hy => body s y (List.mem_cons_of_mem x hy)) (body s x List.mem_cons_self start)

/- Over a loop that treats each element once, what its own turn establishes
and no other turn breaks holds of every element at the end. -/
theorem foldlEach (before after : β → σ → Prop) {f : σ → β → σ} {xs : List β} (once : xs.Nodup)
    (turn : ∀ s x, before x s → after x (f s x))
    (others : ∀ s x y, x ≠ y → (before y s → before y (f s x)) ∧ (after y s → after y (f s x)))
    {s : σ} (start : ∀ x ∈ xs, before x s) : ∀ x ∈ xs, after x (xs.foldl f s) := by
  have kept : ∀ (ys : List β) (s : σ) (y : β), y ∉ ys → after y s → after y (ys.foldl f s) := by
    intro ys
    induction ys with
    | nil => intro s y _ h; exact h
    | cons x ys ih =>
      intro s y fresh h
      have ne : x ≠ y := fun e => fresh (by simp [e])
      exact ih _ y (fun m => fresh (List.mem_cons_of_mem x m)) ((others s x y ne).2 h)
  induction xs generalizing s with
  | nil => simp
  | cons x xs ih =>
    obtain ⟨fresh,once⟩ := List.nodup_cons.mp once
    have rest : ∀ y ∈ xs, before y (f s x) := by
      intro y hy
      have ne : x ≠ y := fun e => fresh (by simpa [e] using hy)
      exact (others s x y ne).1 (start y (List.mem_cons_of_mem x hy))
    intro y hy
    rcases List.mem_cons.mp hy with rfl | inside
    · exact kept xs _ y fresh (turn s y (start y List.mem_cons_self))
    · exact ih once rest y inside

/- Two loops that keep in step: what one of them passes over leaves the relation alone, and the
elements that count come in the same order in both. -/
theorem foldlAlike {ι τ : Type*} {f : σ → α → σ} {g : τ → β → τ} {p : α → Option ι} {q : β → Option ι} {R : σ → τ → Prop}
    (left : ∀ s t x, p x = none → R s t → R (f s x) t) (right : ∀ s t y, q y = none → R s t → R s (g t y))
    (both : ∀ s t x y i, p x = some i → q y = some i → R s t → R (f s x) (g t y))
    {xs : List α} {ys : List β} (same : xs.filterMap p = ys.filterMap q) {s : σ} {t : τ} (start : R s t) :
    R (xs.foldl f s) (ys.foldl g t) := by
  induction xs generalizing ys s t with
  | nil =>
    have none' : ∀ y ∈ ys, q y = none := List.filterMap_eq_nil_iff.mp same.symm
    exact foldlInvariant (R s) (fun t y mem related => right s t y (none' y mem) related) start
  | cons x xs ih =>
    cases counts : p x with
    | none =>
      rw [List.filterMap_cons_none counts] at same
      exact ih same (left s t x counts start)
    | some i =>
      rw [List.filterMap_cons_some counts] at same
      obtain ⟨before,y,after,rfl,none',counts',rest⟩ := List.filterMap_eq_cons_iff.mp same.symm
      have reached : R s (before.foldl g t) := foldlInvariant (R s) (fun t y mem related => right s t y (none' y mem) related) start
      rw [List.foldl_append,List.foldl_cons,List.foldl_cons]
      exact ih rest.symm (both s _ x y i counts counts' reached)

/- The elements before and after `x` in a list that holds it once. -/
theorem splitOnce [DecidableEq β] {x : β} {xs : List β} (once : xs.Nodup) (inside : x ∈ xs) :
    ∃ rest, x ∉ xs.takeWhile (fun y => y != x) ∧ x ∉ rest ∧ xs = xs.takeWhile (fun y => y != x) ++ x :: rest := by
  induction xs with
  | nil => simp at inside
  | cons y ys ih =>
    obtain ⟨fresh,once⟩ := List.nodup_cons.mp once
    by_cases same : y = x
    · subst same
      exact ⟨ys,by simp,fresh,by simp⟩
    · have within : x ∈ ys := (List.mem_cons.mp inside).resolve_left (fun e => same e.symm)
      obtain ⟨rest,before,after,whole⟩ := ih once within
      have kept : (y :: ys).takeWhile (fun y => y != x) = y :: ys.takeWhile (fun y => y != x) := by simp [same]
      refine ⟨rest,?_,after,?_⟩
      · rw [kept]
        exact fun m => (List.mem_cons.mp m).elim (fun e => same e.symm) before
      · rw [kept,List.cons_append,← whole]

/- Logs keep the newest entry first; a log only ever grows at its front. -/
def Grows (P : α → Prop) (old new : List α) : Prop := ∃ added, new = added ++ old ∧ ∀ e ∈ added, P e

section
variable {P Q : α → Prop} {a b c : List α}

@[simp] theorem growsRefl (a : List α) : Grows P a a := ⟨[],rfl,by simp⟩

theorem growsCons {e : α} (ok : P e) (a : List α) : Grows P a (e :: a) := ⟨[e],rfl,by simpa using ok⟩

theorem growsTrans (first : Grows P a b) (second : Grows P b c) : Grows P a c := by
  obtain ⟨x,rfl,hx⟩ := first
  obtain ⟨y,rfl,hy⟩ := second
  exact ⟨y ++ x,by simp,fun e m => (List.mem_append.mp m).elim (hy e) (hx e)⟩

theorem growsMono (implies : ∀ e, P e → Q e) (h : Grows P a b) : Grows Q a b := by
  obtain ⟨x,hx,hp⟩ := h
  exact ⟨x,hx,fun e m => implies e (hp e m)⟩

/- A reading that passes over every entry with `P` reads the same in the end. -/
theorem growsKeeps {f : List α → β} (passes : ∀ e log, P e → f (e :: log) = f log) (h : Grows P a b) : f b = f a := by
  obtain ⟨added,rfl,all⟩ := h
  induction added with
  | nil => rfl
  | cons e added ih =>
    have rest := ih fun e mem => all e (List.mem_cons_of_mem _ mem)
    rw [List.cons_append,passes e _ (all e List.mem_cons_self),rest]

/- An entry that was put on a log between two states of it, and the log that lay below it then. -/
def Put (old : List α) (e : α) (earlier new : List α) : Prop := ∃ added later, earlier = added ++ old ∧ new = later ++ e :: earlier

section
variable {e : α} {earlier : List α}

theorem putGrows (grown : Grows P a b) (put : Put a e earlier b) : P e := by
  obtain ⟨x,rfl,all⟩ := grown
  obtain ⟨added,later,rfl,same⟩ := put
  rw [← List.cons_append,← List.append_assoc] at same
  have whole : x = later ++ e :: added := List.append_cancel_right same
  exact all e (whole ▸ List.mem_append_right later List.mem_cons_self)

theorem putTop (e : α) (a : List α) : Put a e a (e :: a) := ⟨[],[],rfl,rfl⟩

/- What is put on at the start or at the end of a stretch is put on within it. -/
theorem putOlder (first : Grows P a b) (put : Put b e earlier c) : Put a e earlier c := by
  obtain ⟨x,rfl,_⟩ := first
  obtain ⟨added,later,rfl,same⟩ := put
  exact ⟨added ++ x,later,(List.append_assoc ..).symm,same⟩

theorem putNewer (put : Put a e earlier b) (second : Grows Q b c) : Put a e earlier c := by
  obtain ⟨y,rfl,_⟩ := second
  obtain ⟨added,later,below,rfl⟩ := put
  exact ⟨added,y ++ later,below,(List.append_assoc ..).symm⟩

/- And what is put on within two stretches is put on in one of them. -/
theorem putSplit (first : Grows P a b) (second : Grows Q b c) (put : Put a e earlier c) : Put a e earlier b ∨ Put b e earlier c := by
  obtain ⟨x,rfl,_⟩ := first
  obtain ⟨y,rfl,_⟩ := second
  obtain ⟨added,later,rfl,same⟩ := put
  rw [← List.cons_append,← List.append_assoc,← List.append_assoc] at same
  have whole : y ++ x = later ++ e :: added := List.append_cancel_right same
  rcases List.append_eq_append_iff.mp whole with ⟨z,_,inside⟩ | ⟨z,above,below⟩
  · exact .inl ⟨added,z,rfl,by rw [inside,List.append_assoc,List.cons_append]⟩
  · cases z with
    | nil => exact .inl ⟨added,[],rfl,by rw [← List.nil_append x,← below,List.nil_append,List.cons_append]⟩
    | cons f z =>
      obtain ⟨rfl,rfl⟩ := List.cons.inj below
      exact .inr ⟨z,later,List.append_assoc ..,by rw [above]; simp⟩

theorem putCons {f : α} (put : Put a e earlier (f :: a)) : e = f ∧ earlier = a := by
  obtain ⟨added,later,rfl,same⟩ := put
  have length := congrArg List.length same
  simp only [List.length_cons,List.length_append] at length
  obtain rfl : later = [] := List.length_eq_zero_iff.mp (by omega)
  obtain rfl : added = [] := List.length_eq_zero_iff.mp (by omega)
  exact ⟨(List.cons.inj same).1.symm,rfl⟩

end

/- What was added to a log, oldest first, and what a reading `f` makes of it. -/
def slice (old new : List α) : List α := (new.take (new.length - old.length)).reverse

def Adds (f : α → Option β) (old new : List α) (out : List β) : Prop :=
  ∃ added, new = added ++ old ∧ added.reverse.filterMap f = out

theorem sliceAdded (x a : List α) : slice a (x ++ a) = x.reverse := by
  rw [slice,List.length_append,Nat.add_sub_cancel,List.take_left]

theorem sliceTrans (first : Grows P a b) (second : Grows Q b c) : slice a c = slice a b ++ slice b c := by
  obtain ⟨x,rfl,_⟩ := first
  obtain ⟨y,rfl,_⟩ := second
  rw [sliceAdded,sliceAdded,← List.append_assoc,sliceAdded,List.reverse_append]

variable {f : α → Option β} {x y : List β}

theorem addsSlice (h : Adds f a b x) : (slice a b).filterMap f = x := by
  obtain ⟨added,rfl,read⟩ := h
  rwa [sliceAdded]

theorem addsRefl (a : List α) : Adds f a a [] := ⟨[],rfl,rfl⟩

theorem addsCons (e : α) (a : List α) : Adds f a (e :: a) (f e).toList := by
  refine ⟨[e],rfl,?_⟩
  rw [List.reverse_singleton,List.filterMap_cons,List.filterMap_nil]
  cases f e <;> rfl

theorem addsTrans (first : Adds f a b x) (second : Adds f b c y) : Adds f a c (x ++ y) := by
  obtain ⟨old,rfl,rfl⟩ := first
  obtain ⟨new,rfl,rfl⟩ := second
  exact ⟨new ++ old,(List.append_assoc ..).symm,by rw [List.reverse_append,List.filterMap_append]⟩

/- Where nothing that is added reads as anything. -/
theorem addsNone (h : Grows (fun e => f e = none) a b) : Adds f a b [] := by
  obtain ⟨added,rfl,none'⟩ := h
  exact ⟨added,rfl,List.filterMap_eq_nil_iff.mpr fun e mem => none' e (List.mem_reverse.mp mem)⟩

end
end AccessControl.Run
