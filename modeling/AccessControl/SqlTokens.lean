import Mathlib.Data.BitVec

/-! The tokens of an SQL text that is written in words, numbers, signs and literals in single
quotes, and where a keyword can stand among them. Other ways to quote, and comments,
do not occur in a plain text. -/
namespace AccessControl.SqlTokens

abbrev Text := List (BitVec 8)

def quote : BitVec 8 := 0x27
def isBlank (c : BitVec 8) : Bool := c == 0x20 || (0x09 ≤ c.toNat && c.toNat ≤ 0x0d)
def isUpper (c : BitVec 8) : Bool := 0x41 ≤ c.toNat && c.toNat ≤ 0x5a
def isLower (c : BitVec 8) : Bool := 0x61 ≤ c.toNat && c.toNat ≤ 0x7a
def isDigit (c : BitVec 8) : Bool := 0x30 ≤ c.toNat && c.toNat ≤ 0x39
def isWord (c : BitVec 8) : Bool := isUpper c || isLower c || isDigit c || c == 0x5f

/- The signs `(`, `)`, `*`, `+`, `,`, `.`, `;`, `<`, `=` and `>` among words and literals. -/
def isPlain (c : BitVec 8) : Bool :=
  isWord c || isBlank c || c == quote || (0x28 ≤ c.toNat && c.toNat ≤ 0x2c) || c == 0x2e || (0x3b ≤ c.toNat && c.toNat ≤ 0x3e)

inductive Token where
  | word (letters : Text)
  | literal (text : Text)
  | sign (c : BitVec 8)
  deriving DecidableEq, Repr

/- What is being read: nothing yet, a word, a literal, or a literal that has just been closed. -/
inductive Mode where
  | between
  | word (letters : Text)
  | literal (text : Text)
  | closed (text : Text)
  deriving DecidableEq, Repr

def begin (c : BitVec 8) : List Token × Mode :=
  if isWord c then ([],.word [c])
  else if c = quote then ([],.literal [])
  else if isBlank c then ([],.between)
  else ([.sign c],.between)

/- One byte; two quotes in a literal are one quote of its text. -/
def turn : Mode → BitVec 8 → List Token × Mode
  | .between, c => begin c
  | .word letters, c =>
    if isWord c then ([],.word (letters ++ [c])) else (.word letters :: (begin c).1,(begin c).2)
  | .literal text, c => if c = quote then ([],.closed text) else ([],.literal (text ++ [c]))
  | .closed text, c =>
    if c = quote then ([],.literal (text ++ [c])) else (.literal text :: (begin c).1,(begin c).2)

def scan : Mode → Text → List Token × Mode
  | mode, [] => ([],mode)
  | mode, c :: rest => ((turn mode c).1 ++ (scan (turn mode c).2 rest).1,(scan (turn mode c).2 rest).2)

/- An open literal has no token. -/
def last : Mode → List Token
  | .word letters => [.word letters]
  | .closed text => [.literal text]
  | _ => []

def tokens (text : Text) : List Token := (scan .between text).1 ++ last (scan .between text).2

variable {mode : Mode} {x y : Text}

theorem scanAppend : scan mode (x ++ y) =
    ((scan mode x).1 ++ (scan (scan mode x).2 y).1,(scan (scan mode x).2 y).2) := by
  induction x generalizing mode with
  | nil => rfl
  | cons c x ih => rw [List.cons_append,scan,ih,scan,List.append_assoc]

/- What has been read stays, whatever follows. -/
theorem tokensAppend : ∃ rest, tokens (x ++ y) = (scan .between x).1 ++ rest := by
  rw [tokens,scanAppend,List.append_assoc]
  exact ⟨_,rfl⟩

/- Keywords are read in any case. -/
def upper (c : BitVec 8) : BitVec 8 := if isLower c then c - 0x20 else c

def isKeyword (keyword : Text) : Token → Bool
  | .word letters => letters.map upper == keyword
  | _ => false

/- Two of them in a row. -/
def doubled (p : Token → Bool) : List Token → Bool
  | a :: b :: rest => p a && p b || doubled p (b :: rest)
  | _ => false

theorem doubledAppend {p : Token → Bool} {front rest : List Token} (twice : doubled p front = true) :
    doubled p (front ++ rest) = true := by
  induction front with
  | nil => cases twice
  | cons a front ih =>
    cases front with
    | nil => cases twice
    | cons b front =>
      rw [doubled,Bool.or_eq_true] at twice
      rw [List.cons_append,List.cons_append,doubled,Bool.or_eq_true]
      exact twice.imp_right ih

def wAnd : Text := [0x41,0x4e,0x44]

/- The statement that is compiled: what follows its semicolon is left for the next call. -/
def isEnd (token : Token) : Bool := token == .sign 0x3b
def compiled (text : Text) : List Token := (tokens text).takeWhile (fun token => !isEnd token)

/- What is known of a grammar here: behind AND stands an expression, and none begins with AND. -/
structure Conjoins (valid : Text → Prop) : Prop where
  operands : ∀ text, (∀ c ∈ text, isPlain c = true) → valid text → doubled (isKeyword wAnd) (compiled text) = false

theorem doubledInvalid {valid : Text → Prop} (conjoins : Conjoins valid) (plain : ∀ c ∈ x ++ y, isPlain c = true)
    (open' : ∀ token ∈ (scan .between x).1, isEnd token = false) (twice : doubled (isKeyword wAnd) (scan .between x).1 = true) :
    ¬ valid (x ++ y) := by
  intro accepted
  obtain ⟨rest,read⟩ := tokensAppend (x := x) (y := y)
  have once := conjoins.operands _ plain accepted
  rw [compiled,read,List.takeWhile_append_of_pos (fun token mem => by rw [open' token mem]; rfl),doubledAppend twice] at once
  cases once

end AccessControl.SqlTokens
