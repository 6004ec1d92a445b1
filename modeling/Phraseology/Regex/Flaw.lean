import Phraseology.Automaton.Room
import Phraseology.Error
import Phraseology.Regex

/-! What can be wrong with a written expression: how it is written, how often something is repeated
in it, how deep it is nested, and how much room its automaton takes. -/
namespace Phraseology

open Automaton (Expr)

namespace Repetition

/-- A repetition is counted up to this number. -/
def countLimit : Nat := UInt32.size - 1

/-- What is wrong with bounds: one is too great, the first before the second, or the first is above
the second. -/
def flaw? (min max : Nat) : Option PatternFlaw :=
  if countLimit < min then
    some (.countTooGreat ⟨"\x7b", toString min, "," ++ toString max ++ "\x7d"⟩)
  else if countLimit < max then
    some (.countTooGreat ⟨"\x7b" ++ toString min ++ ",", toString max, "\x7d"⟩)
  else if max < min then some (.boundsInverted ⟨"", render min max, ""⟩)
  else none

theorem flaw?_eq_none_iff {min max : Nat} :
    flaw? min max = none ↔ min ≤ max ∧ max ≤ countLimit := by
  unfold flaw?
  repeat' split
  all_goals (simp; omega)

end Repetition

namespace Regex

/-- How deep the things in an expression can be nested: groups, classes, alternatives, repetitions,
and several things side by side. -/
def nestLimit : Nat := 250

mutual

def depth : Regex → Nat
  | .sequence rs => depths rs + if rs.length < 2 then 0 else 1
  | .choice rs => depths rs + (if rs.length < 2 then 0 else 1) + 1
  | .capture _ r => depth r
  | .star r | .plus r | .optional r | .counted r _ _ => depth r + 1
  | .ranges _ => 2
  | _ => 0

def depths : List Regex → Nat
  | [] => 0
  | r :: rs => Nat.max (depth r) (depths rs)

end

/-- An expression that is nested too deep. Where it is so does not depend on the words in it, and
all of it is shown. -/
def tooDeep? (written : String) (r : Regex) : Option PatternFlaw :=
  if nestLimit < r.depth then some (.nestedTooDeep ⟨"", written, ""⟩ nestLimit) else none

mutual

def expr (caseless : Bool) : Regex → Expr
  | .char c => if caseless then .ofChar c else .literal [c.toNat]
  | .blank => .named .blank
  | .solid => .named .solid
  | .wordChar => .named .word
  | .ranges rs =>
    let codes := rs.flatMap fun r => List.range' r.1.toNat (r.2.toNat + 1 - r.1.toNat)
    .set (Automaton.rangesOf
      (if caseless then codes.flatMap fun n => Text.variants (Char.ofNat n) else codes))
  | .boundary | .start | .stop => .assertion
  | .sequence rs => .sequence (exprs caseless rs)
  | .choice rs => .alternation (exprs caseless rs)
  | .capture _ r => .group (expr caseless r)
  | .star r | .plus r => .run (expr caseless r)
  | .optional r => .repetition (expr caseless r) 0 1
  | .counted r min max => .repetition (expr caseless r) min max

def exprs (caseless : Bool) : List Regex → List Expr
  | [] => []
  | r :: rs => expr caseless r :: exprs caseless rs

end

def Written.expr (r : Written) : Expr := r.body.expr r.caseless

/-- What is wrong with a written expression. What is wrong `inside` counts before its size. -/
def flaw? (anchored : Bool) (written : String) (inside : Regex → Option PatternFlaw) :
    Option PatternFlaw :=
  match read? written.toList with
  | none => some (.unreadable written)
  | some r =>
    (inside r.body).or
      (if Automaton.fits anchored r.expr then none else some (.tooLarge Automaton.roomLimit))

end Regex

end Phraseology
