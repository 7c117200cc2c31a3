import Mathlib.Data.List.Basic

/-! Computations that record each thing they use and stop where a use has no
meaning. Loops count up; a loop over a buffer is its pure loop while it stays inside. -/
namespace AccessControl.Traced

structure Trace (ε α : Type) where
  uses : List ε
  value : Option α

variable {ε α β σ : Type}

instance : Monad (Trace ε) where
  pure a := ⟨[],some a⟩
  bind x f :=
    match x.value with
    | none => ⟨x.uses,none⟩
    | some a =>
      let y := f a
      ⟨x.uses ++ y.uses,y.value⟩

theorem bindSome {x : Trace ε α} {f : α → Trace ε β} {a : α} (h : x.value = some a) :
    x >>= f = ⟨x.uses ++ (f a).uses,(f a).value⟩ := by
  change (match x.value with | none => _ | some a => _) = _
  rw [h]

theorem bindNone {x : Trace ε α} {f : α → Trace ε β} (h : x.value = none) : x >>= f = ⟨x.uses,none⟩ := by
  change (match x.value with | none => _ | some a => _) = _
  rw [h]

theorem bindAssoc (x : Trace ε α) (f : α → Trace ε β) (g : β → Trace ε σ) : x >>= f >>= g = x >>= fun a => f a >>= g := by
  cases first : x.value with
  | none => rw [bindNone first,bindNone rfl,bindNone first]
  | some a =>
    rw [bindSome first,bindSome first]
    cases second : (f a).value with
    | none => rw [bindNone second,bindNone rfl]
    | some b =>
      rw [bindSome second,bindSome rfl]
      simp

/- One use, with what it gives; and a use that is only noted. -/
def use (e : ε) (value : Option α) : Trace ε α := ⟨[e],value⟩
def note (e : ε) : Trace ε Unit := ⟨[e],some ()⟩

@[simp] theorem valuePure (a : α) : (pure a : Trace ε α).value = some a := rfl
@[simp] theorem valueBind (x : Trace ε α) (f : α → Trace ε β) :
    (x >>= f).value = x.value.bind (fun a => (f a).value) := by
  cases h : x.value with
  | none => rw [bindNone h,Option.bind_none]
  | some a => rw [bindSome h,Option.bind_some]
@[simp] theorem valueUse (e : ε) (value : Option α) : (use e value).value = value := rfl
@[simp] theorem valueNote (e : ε) : (note e).value = some () := rfl

def Every (P : ε → Prop) (x : Trace ε α) : Prop := ∀ e ∈ x.uses, P e

section
variable {P : ε → Prop} {x : Trace ε α} {f : α → Trace ε β}

@[simp] theorem everyPure (a : α) : Every P (pure a : Trace ε α) := fun _ none => absurd none List.not_mem_nil
@[simp] theorem everyUse (e : ε) (value : Option α) : Every P (use e value) ↔ P e := by simp [Every,use]
@[simp] theorem everyNote (e : ε) : Every P (note e) ↔ P e := by simp [Every,note]

theorem everyBind : Every P (x >>= f) ↔ Every P x ∧ ∀ a, x.value = some a → Every P (f a) := by
  cases h : x.value with
  | none =>
    rw [bindNone h]
    simp [Every]
  | some a =>
    rw [bindSome h]
    simp [Every,or_imp,forall_and]

theorem everyGiven {a : α} (given : x.value = some a) : Every P (x >>= f) ↔ Every P x ∧ Every P (f a) := by
  simp only [everyBind,given,Option.some.injEq,forall_eq']

end

/- The same computation with its uses under another name. -/
def lift (f : ε → σ) (x : Trace ε α) : Trace σ α := ⟨x.uses.map f,x.value⟩

@[simp] theorem valueLift (f : ε → σ) (x : Trace ε α) : (lift f x).value = x.value := rfl
@[simp] theorem everyLift {P : σ → Prop} (f : ε → σ) (x : Trace ε α) : Every P (lift f x) ↔ Every (fun e => P (f e)) x := by
  simp [Every,lift]

theorem liftPure (f : ε → σ) (a : α) : lift f (pure a : Trace ε α) = pure a := rfl

theorem liftBind (f : ε → σ) (x : Trace ε α) (g : α → Trace ε β) : lift f (x >>= g) = lift f x >>= fun a => lift f (g a) := by
  cases value : x.value with
  | none =>
    have lifted : (lift f x).value = none := value
    rw [bindNone value,bindNone lifted]
    rfl
  | some a =>
    have lifted : (lift f x).value = some a := value
    rw [bindSome value,bindSome lifted]
    simp [lift]

/- The computation has a value just when every use is inside. -/
def Stops (inside : ε → Prop) (x : Trace ε α) : Prop := x.value.isSome ↔ Every inside x

section
variable {inside : ε → Prop} {x : Trace ε α} {f : α → Trace ε β}

theorem stopsPure (a : α) : Stops inside (pure a : Trace ε α) := by simp [Stops]
theorem stopsUse {e : ε} {value : Option α} (h : value.isSome ↔ inside e) : Stops inside (use e value) := by
  simp [Stops,h]
theorem stopsNote {e : ε} (h : inside e) : Stops inside (note e) := by simp [Stops,h]

theorem stopsBind (first : Stops inside x) (rest : ∀ a, Stops inside (f a)) : Stops inside (x >>= f) := by
  unfold Stops at first rest ⊢
  rw [everyBind,valueBind,← first]
  cases x.value with
  | none => simp
  | some a => simpa using rest a

end

/- A value vouches for every use on the way to it. -/
def Guards (P : ε → Prop) (x : Trace ε α) : Prop := x.value.isSome → Every P x

section
variable {P : ε → Prop} {x : Trace ε α} {f : α → Trace ε β}

theorem guardsPure (a : α) : Guards P (pure a : Trace ε α) := fun _ => everyPure a
theorem guardsUse {e : ε} {value : Option α} (h : value.isSome → P e) : Guards P (use e value) := fun some' => (everyUse e value).mpr (h some')
theorem guardsNote {e : ε} (h : P e) : Guards P (note e) := fun _ => (everyNote e).mpr h

theorem guardsBind (first : Guards P x) (rest : ∀ a, Guards P (f a)) : Guards P (x >>= f) := by
  intro some'
  obtain ⟨b,value⟩ := Option.isSome_iff_exists.mp some'
  rw [valueBind] at value
  obtain ⟨a,before,after⟩ := Option.bind_eq_some_iff.mp value
  exact (everyGiven before).mpr ⟨first (Option.isSome_iff_exists.mpr ⟨a,before⟩),rest a (Option.isSome_iff_exists.mpr ⟨b,after⟩)⟩

end

/- How many of the uses satisfy a test. -/
def count (p : ε → Bool) (x : Trace ε α) : Nat := x.uses.countP p

section
variable {p : ε → Bool} {x : Trace ε α} {f : α → Trace ε β}

@[simp] theorem countPure (a : α) : count p (pure a : Trace ε α) = 0 := rfl

theorem countBind {a : α} (h : x.value = some a) : count p (x >>= f) = count p x + count p (f a) := by
  rw [bindSome h]
  exact List.countP_append

theorem countNone (h : Every (fun e => p e = false) x) : count p x = 0 := by
  rw [count,List.countP_eq_zero]
  intro e inside
  rw [h e inside]
  decide

end

/- `for (i = start; i < start + count; i++)`, traced and pure. -/
def forUp (body : Nat → σ → Trace ε σ) : Nat → Nat → σ → Trace ε σ
  | 0, _, s => pure s
  | k + 1, i, s => do
    let s ← body i s
    forUp body k (i + 1) s

def up (f : Nat → σ → σ) : Nat → Nat → σ → σ
  | 0, _, s => s
  | k + 1, i, s => up f k (i + 1) (f i s)

theorem liftUp {ρ : Type} (g : ε → ρ) (body : Nat → σ → Trace ε σ) (k i : Nat) (s : σ) :
    lift g (forUp body k i s) = forUp (fun i s => lift g (body i s)) k i s := by
  induction k generalizing i s with
  | zero => exact liftPure g s
  | succ k ih =>
    rw [forUp,liftBind,forUp]
    congr 1
    funext t
    exact ih (i + 1) t

section
variable {body : Nat → σ → Trace ε σ} {f : Nat → σ → σ} {P : ε → Prop} {limit : Nat}

theorem everyUp {k i : Nat} (each : ∀ j s, i ≤ j → j < i + k → Every P (body j s)) (s : σ) : Every P (forUp body k i s) := by
  induction k generalizing i s with
  | zero => exact everyPure s
  | succ k ih =>
    refine everyBind.mpr ⟨each i s (by omega) (by omega),fun t _ => ?_⟩
    exact ih (fun j s low high => each j s (by omega) (by omega)) t

theorem stopsUp (each : ∀ i s, Stops P (body i s)) (k i : Nat) (s : σ) : Stops P (forUp body k i s) := by
  induction k generalizing i s with
  | zero => exact stopsPure s
  | succ k ih => exact stopsBind (each i s) (fun t => ih (i + 1) t)

/- While the counter is below the limit each turn has its value; there the loop stops. -/
theorem valueUp (turn : ∀ i s, (body i s).value = if i < limit then some (f i s) else none) (k i : Nat) (s : σ)
    (start : i ≤ limit) : (forUp body k i s).value = if i + k ≤ limit then some (up f k i s) else none := by
  induction k generalizing i s with
  | zero => simp [forUp,up,start]
  | succ k ih =>
    rw [forUp,valueBind,turn]
    by_cases room : i < limit
    · rw [if_pos room,Option.bind_some,ih (i + 1) (f i s) room,up]
      have sum : i + 1 + k = i + (k + 1) := by omega
      rw [sum]
    · rw [if_neg room,Option.bind_none,if_neg (by omega)]

theorem countUp {p : ε → Bool} {c : Nat} (turn : ∀ i s, i < limit → (body i s).value = some (f i s))
    (each : ∀ i s, i < limit → count p (body i s) = c) (k i : Nat) (s : σ) (room : i + k ≤ limit) :
    count p (forUp body k i s) = k * c := by
  induction k generalizing i s with
  | zero => simp [forUp]
  | succ k ih =>
    have first := countBind (p := p) (f := forUp body k (i + 1)) (turn i s (by omega))
    have rest := ih (i + 1) (f i s) (by omega)
    rw [each i s (by omega),rest] at first
    rw [forUp,first,Nat.succ_mul,Nat.add_comm]

/- Invariants of the traced loop, where it has a value, and of the pure one. -/
theorem forUpInvariant (inv : Nat → σ → Prop) (turn : ∀ j s t, (body j s).value = some t → inv j s → inv (j + 1) t)
    {k i : Nat} {s t : σ} (value : (forUp body k i s).value = some t) (start : inv i s) : inv (i + k) t := by
  induction k generalizing i s with
  | zero =>
    cases value
    exact start
  | succ k ih =>
    have sum : i + (k + 1) = i + 1 + k := by omega
    rw [forUp,valueBind] at value
    obtain ⟨u,first,rest⟩ := Option.bind_eq_some_iff.mp value
    rw [sum]
    exact ih rest (turn i s u first start)

theorem upInvariant (inv : Nat → σ → Prop) {k i : Nat} {s : σ} (start : inv i s)
    (turn : ∀ j s, i ≤ j → j < i + k → inv j s → inv (j + 1) (f j s)) : inv (i + k) (up f k i s) := by
  induction k generalizing i s with
  | zero => exact start
  | succ k ih =>
    have sum : i + (k + 1) = i + 1 + k := by omega
    rw [sum]
    exact ih (turn i s (by omega) (by omega) start) (fun j s low high => turn j s (by omega) (by omega))

end
end AccessControl.Traced
