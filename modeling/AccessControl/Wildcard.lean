import Mathlib.Data.List.Forall2
import Mathlib.Data.List.Infix

/-! Patterns over any alphabet: a given letter, any one letter, any run of letters. What
counts as the same letter is a parameter. -/
namespace AccessControl.Wildcard

inductive Item (α : Type) where
  | one (a : α)
  | any
  | run
  deriving DecidableEq, Repr

variable {α : Type} (same : α → α → Bool)

def Item.takes : Item α → α → Bool
  | .one a, b => same a b
  | .any, _ => true
  | .run, _ => false

def fits : List (Item α) → List α → Bool
  | [], text => text.isEmpty
  | .run :: pattern, text => text.tails.any (fits pattern)
  | _ :: _, [] => false
  | item :: pattern, b :: text => item.takes same b && fits pattern text

variable {same} {pattern rest : List (Item α)} {text : List α}

end AccessControl.Wildcard
