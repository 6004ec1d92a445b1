import Phraseology.Phrase
import Phraseology.Regex.Flaw
import Phraseology.Text.Cursor

/-! Patterns of characters: the words of a phrase with any blanks between them, or none. -/
namespace Phraseology

/-- What a text has to look like. Blanks may stand between the parts of `spaced` and after each
copy of what is `repeated`. -/
inductive Pattern where
  | word (w : List Char)
  | spaced (parts : List Pattern)
  | choice (alternatives : List Pattern)
  | repeated (body : Pattern) (min max : Nat)
  deriving Repr

namespace Pattern

/-- The pattern of the empty text, which no other pattern is written like. -/
def isEmpty : Pattern → Bool
  | .spaced [] => true
  | _ => false

def ofText (s : String) : Pattern := .spaced ((Text.wordChars s.toList).map .word)

/-- Parts that add nothing are left out. -/
def ofParts (parts : List Pattern) : Pattern := .spaced (parts.filter (!·.isEmpty))

/-- A choice among none cannot be met. -/
def ofAlternatives? : List Pattern → Option Pattern
  | [] => none
  | ps => some (.choice ps)

/-- What cannot be met can still be repeated no times, and nothing is not repeated. -/
def ofRepeated? (body : Option Pattern) (min max : Nat) : Option Pattern :=
  match body with
  | some p => if p.isEmpty then some (.spaced []) else some (.repeated p min max)
  | none => if min = 0 then some (.spaced []) else none

mutual

/-- The pattern of a phrase, `none` if nothing can be such a phrase. -/
def ofPhrase? : Phrase → Option Pattern
  | .text s => some (ofText s)
  | .choice alternatives => ofAlternatives? (ofSome alternatives)
  | .sequence parts => (ofAll? parts).map ofParts
  | .repeated body min max => ofRepeated? (ofPhrase? body) min max
  | .element _ body => ofPhrase? body

def ofSome : List Phrase → List Pattern
  | [] => []
  | p :: rest => (ofPhrase? p).toList ++ ofSome rest

def ofAll? : List Phrase → Option (List Pattern)
  | [] => some []
  | p :: rest => do
    let q ← ofPhrase? p
    let qs ← ofAll? rest
    return q :: qs

end

mutual

def render : Pattern → String
  | .word w => Regex.renderWord w
  | .spaced parts => "\\s*".intercalate (renders parts)
  | .choice alternatives => "(?:" ++ "|".intercalate (renders alternatives) ++ ")"
  | .repeated body min max =>
    "(?:" ++ render body ++ "\\s*)" ++ Repetition.render min max

def renders : List Pattern → List String
  | [] => []
  | p :: rest => render p :: renders rest

end

/-- The written form of the pattern of a whole text, in which case does not count. -/
def renderWhole (p : Pattern) : String := "(?i)^\\s*" ++ p.render ++ "\\s*$"

open Text (Cursor)

/-- At most `n` steps. Steps are taken from places that have not been `seen` only. -/
def closure (step : List Cursor → List Cursor) : Nat → Std.HashSet Nat → List Cursor → List Cursor
  | 0, _, cs => cs
  | n + 1, seen, cs =>
    let next := Cursor.distinctFrom seen (step cs)
    if next.isEmpty then cs else cs ++ closure step n (seen.insertMany (Cursor.offsets next)) next

def atMost (step : List Cursor → List Cursor) (n : Nat) (cs : List Cursor) : List Cursor :=
  closure step n (.ofList (Cursor.offsets cs)) cs

/-- Exactly `n` steps. Once a step leads back to all places that it was taken from, so do all
others, and fewer steps lead nowhere else. -/
def exactly (step : List Cursor → List Cursor) : Nat → List Cursor → List Cursor
  | 0, cs => cs
  | n + 1, cs =>
    let next := step cs
    if Cursor.allAmong cs next then atMost step (n + 1) cs else exactly step n next

mutual

/-- The places behind something that looks like the pattern and the blanks after it. -/
def after : Pattern → List Cursor → List Cursor
  | .word w, cs => (cs.filterMap (Cursor.word? w)).map Cursor.skipBlanks
  | .spaced parts, cs => afterAll parts cs
  | .choice alternatives, cs => Cursor.distinct (afterAny alternatives cs)
  | .repeated body min max, cs => atMost (after body) (max - min) (exactly (after body) min cs)

def afterAll : List Pattern → List Cursor → List Cursor
  | [], cs => cs
  | p :: rest, cs => afterAll rest (after p cs)

def afterAny : List Pattern → List Cursor → List Cursor
  | [], _ => []
  | p :: rest, cs => after p cs ++ afterAny rest cs

end

/-- The whole text looks like the pattern, apart from blanks around it. -/
def accepts (p : Pattern) (text : String) : Bool :=
  (p.after [(Cursor.start text.toList).skipBlanks]).any (·.after.isEmpty)

open Regex (nestLimit)

mutual

/-- What is wrong with the bounds in a pattern. Of several flaws the first counts, and one inside
what is repeated comes before one of the repetition. -/
def boundsFlaw? : Pattern → Option PatternFlaw
  | .word _ => none
  | .spaced parts => boundsFlawAmong? "\\s*" parts
  | .choice alternatives => (boundsFlawAmong? "|" alternatives).map (·.within "(?:" ")")
  | .repeated body min max =>
    ((boundsFlaw? body).map (·.within "(?:" ("\\s*)" ++ Repetition.render min max))).or
      ((Repetition.flaw? min max).map (·.within ("(?:" ++ body.render ++ "\\s*)") ""))

/-- What is wrong with the bounds in patterns that are written with a separator. -/
def boundsFlawAmong? (separator : String) : List Pattern → Option PatternFlaw
  | [] => none
  | p :: rest =>
    let following := String.join ((renders rest).map (separator ++ ·))
    ((boundsFlaw? p).map (·.within "" following)).or
      ((boundsFlawAmong? separator rest).map (·.within (p.render ++ separator) ""))

end

mutual

/-- How many things stand side by side in a written pattern. -/
def width : Pattern → Nat
  | .word w => w.length
  | .spaced parts => widths parts
  | .choice _ => 1
  | .repeated _ _ _ => 1

/-- How many things stand side by side in parts with blanks between them. -/
def widths : List Pattern → Nat
  | [] => 0
  | [p] => width p
  | p :: rest => width p + 1 + widths rest

end

mutual

/-- The first thing in a written pattern that is nested too deep, if so many things are around the
pattern. -/
def nested? : Pattern → Nat → Option Text.Excerpt
  | .word _, _ => none
  | .spaced parts, depth => nestedAmong? parts depth
  | .choice alternatives, depth =>
    if nestLimit ≤ depth then some ⟨"", render (.choice alternatives), ""⟩
    else
      let inside :=
        if alternatives.length < 2 then nestedAny? alternatives (depth + 1)
        else if nestLimit ≤ depth + 1 then some ⟨"", "|".intercalate (renders alternatives), ""⟩
        else nestedAny? alternatives (depth + 2)
      inside.map (·.within "(?:" ")")
  | .repeated body min max, depth =>
    -- A repetition of a group of several things: what is repeated, which is not empty, and blanks.
    if nestLimit ≤ depth then some ⟨"", render (.repeated body min max), ""⟩
    else if nestLimit ≤ depth + 1 then
      some ⟨"", "(?:" ++ render body ++ "\\s*)", Repetition.render min max⟩
    else
      let inside :=
        if nestLimit ≤ depth + 2 then some ⟨"", render body ++ "\\s*", ""⟩
        else
          ((nested? body (depth + 3)).map (·.within "" "\\s*")).or
            (if nestLimit ≤ depth + 3 then some ⟨render body, "\\s*", ""⟩ else none)
      inside.map fun place => place.within "(?:" (")" ++ Repetition.render min max)

/-- The first thing that is nested too deep in parts with blanks between them. -/
def nestedAmong? : List Pattern → Nat → Option Text.Excerpt
  | [], _ => none
  | [p], depth => nested? p depth
  | p :: rest, depth =>
    ((nested? p depth).map (·.within "" ("\\s*" ++ "\\s*".intercalate (renders rest)))).or
      (if nestLimit ≤ depth then some ⟨render p, "\\s*", "\\s*".intercalate (renders rest)⟩
      else (nestedAmong? rest depth).map (·.within (render p ++ "\\s*") ""))

def nestedAny? : List Pattern → Nat → Option Text.Excerpt
  | [], _ => none
  | p :: rest, depth =>
    let first :=
      if width p < 2 then nested? p depth
      else if nestLimit ≤ depth then some ⟨"", render p, ""⟩
      else nested? p (depth + 1)
    (first.map (·.within "" (String.join ((renders rest).map ("|" ++ ·))))).or
      ((nestedAny? rest depth).map (·.within (render p ++ "|") ""))

end

example : ((Nat.repeat (repeated · 0 1) 82 (.word ['a'])).nested? 1).isNone ∧
    ((Nat.repeat (repeated · 0 1) 83 (.word ['a'])).nested? 1).isSome := by
  decide +kernel

/-- What is wrong with a pattern of whole texts: how it is written, a repetition, how deep it is, or
its size. -/
def flaw? (p : Pattern) : Option PatternFlaw :=
  Regex.flaw? true p.renderWhole fun _ =>
    (p.boundsFlaw?.or ((p.nested? 1).map (.nestedTooDeep · nestLimit))).map
      (·.within "(?i)^\\s*" "\\s*$")

end Pattern

end Phraseology
