import Phraseology.Text.Excerpt

/-! Regular expressions as they are written, and what an engine reads in them, character by
character. -/
namespace Phraseology

def Repetition.render (min max : Nat) : String :=
  "\x7b" ++ toString min ++ "," ++ toString max ++ "\x7d"

/-- An expression. A choice that is not the whole is one of the alternatives of a group. -/
inductive Regex where
  | char (c : Char)
  | blank
  | solid
  | wordChar
  | ranges (rs : List (Char × Char))
  | boundary
  | start
  | stop
  | sequence (parts : List Regex)
  | choice (alternatives : List Regex)
  | capture (name : String) (body : Regex)
  | star (body : Regex)
  | plus (body : Regex)
  | optional (body : Regex)
  | counted (body : Regex) (min max : Nat)

namespace Regex

def special : List Char := "\\.+*?()|[]\x7b\x7d^$#&-~".toList

def escape (c : Char) : List Char := if special.contains c then ['\\', c] else [c]

def renderWord (w : List Char) : String := String.ofList (w.flatMap escape)

def renderWords (ws : List (List Char)) : String := "|".intercalate (ws.map renderWord)

mutual

/-- The names of the groups. -/
@[simp] def names : Regex → List String
  | .sequence rs | .choice rs => namesAmong rs
  | .capture name r => name :: names r
  | .star r | .plus r | .optional r | .counted r _ _ => names r
  | _ => []

@[simp] def namesAmong : List Regex → List String
  | [] => []
  | r :: rs => names r ++ namesAmong rs

end

/-- What an open group has so far: the alternatives that are complete, and the parts of the next
one, all of them last first. -/
structure Group where
  alternatives : List Regex
  parts : List Regex
  name : Option String

namespace Group

def empty (name : Option String) : Group := ⟨[], [], name⟩

def add (g : Group) (rs : List Regex) : Group := { g with parts := rs.reverse ++ g.parts }

def all (g : Group) : List Regex := (.sequence g.parts.reverse :: g.alternatives).reverse

def bar (g : Group) : Group :=
  { g with alternatives := .sequence g.parts.reverse :: g.alternatives, parts := [] }

def close (g : Group) : Regex :=
  match g.name with
  | none => .choice g.all
  | some name => .capture name (.choice g.all)

def repeat? (g : Group) (f : Regex → Regex) : Option Group :=
  match g.parts with
  | [] => none
  | r :: rs => some { g with parts := f r :: rs }

end Group

/-- What comes next: a sign, what a backslash stands before, the mark behind `(`, what the mark
says, the `<` and the letters of a name, the ranges of a class of characters, or the bounds of a
repetition. -/
inductive Mode where
  | sign
  | escape
  | mark
  | kind
  | angle
  | name (read : List Char)
  | low (read : List (Char × Char))
  | dash (read : List (Char × Char)) (low : Char)
  | high (read : List (Char × Char)) (low : Char)
  | least (read : Option Nat)
  | most (min : Nat) (read : Option Nat)

/-- A reader among the characters of an expression, with the groups that are open, innermost
first. -/
structure Reader where
  mode : Mode
  group : Group
  outer : List Group

def moreDigits (read : Option Nat) (c : Char) : Nat := 10 * read.getD 0 + (c.toNat - '0'.toNat)

namespace Reader

/-- The reader behind a sign. The dot means something as well, but it is never written. -/
def sign? (r : Reader) (c : Char) : Option Reader :=
  match c with
  | '\\' => some { r with mode := .escape }
  | '(' => some { r with mode := .mark }
  | ')' =>
    match r.outer with
    | [] => none
    | g :: outer => some ⟨.sign, g.add [r.group.close], outer⟩
  | '|' => some { r with group := r.group.bar }
  | '*' => (r.group.repeat? .star).map fun g => { r with group := g }
  | '+' => (r.group.repeat? .plus).map fun g => { r with group := g }
  | '?' => (r.group.repeat? .optional).map fun g => { r with group := g }
  | '\x7b' => some { r with mode := .least none }
  | '[' => some { r with mode := .low [] }
  | '^' => some { r with group := r.group.add [.start] }
  | '$' => some { r with group := r.group.add [.stop] }
  | '.' => none
  | c => some { r with group := r.group.add [.char c] }

/-- What a backslash and the character behind it mean together, as far as they are written. -/
def escaped? (c : Char) : Option Regex :=
  match c with
  | 's' => some .blank
  | 'S' => some .solid
  | 'w' => some .wordChar
  | 'b' => some .boundary
  | c => if special.contains c then some (.char c) else none

def step? (r : Reader) (c : Char) : Option Reader :=
  match r.mode with
  | .sign => r.sign? c
  | .escape => (escaped? c).map fun part => ⟨.sign, r.group.add [part], r.outer⟩
  | .mark => if c = '?' then some { r with mode := .kind } else none
  | .kind =>
    if c = ':' then some ⟨.sign, .empty none, r.group :: r.outer⟩
    else if c = 'P' then some { r with mode := .angle }
    else none
  | .angle => if c = '<' then some { r with mode := .name [] } else none
  | .name read =>
    if c.isAlpha then some { r with mode := .name (c :: read) }
    else if c = '>' ∧ read ≠ [] then
      some ⟨.sign, .empty (String.ofList read.reverse), r.group :: r.outer⟩
    else none
  | .low read =>
    if c.isAlphanum then some { r with mode := .dash read c }
    else if c = ']' ∧ read ≠ [] then
      some ⟨.sign, r.group.add [.ranges read.reverse], r.outer⟩
    else none
  | .dash read low => if c = '-' then some { r with mode := .high read low } else none
  | .high read low =>
    if c.isAlphanum ∧ low ≤ c then some { r with mode := .low ((low, c) :: read) } else none
  | .least read =>
    if c.isDigit then some { r with mode := .least (moreDigits read c) }
    else if c = ',' then read.map fun min => { r with mode := .most min none }
    else none
  | .most min read =>
    if c.isDigit then some { r with mode := .most min (moreDigits read c) }
    else if c = '\x7d' then do
      let max ← read
      let g ← r.group.repeat? (.counted · min max)
      return ⟨.sign, g, r.outer⟩
    else none

def run? (r : Reader) : List Char → Option Reader
  | [] => some r
  | c :: s => match r.step? c with
    | some r => run? r s
    | none => none

def fresh : Reader := ⟨.sign, .empty none, []⟩

def expression? (r : Reader) : Option Regex :=
  match r.mode, r.outer with
  | .sign, [] => some (.choice r.group.all)
  | _, _ => none

end Reader

/-- An expression, and whether case does not count in it. -/
structure Written where
  caseless : Bool
  body : Regex

/-- What is written. A text that no expression is written as gives nothing, and neither does one in
which two groups have the same name. -/
def read? (s : List Char) : Option Written := do
  let (caseless, rest) := match "(?i)".toList.isPrefixOf? s with
    | some rest => (true, rest)
    | none => (false, s)
  let r ← Reader.fresh.run? rest
  let body ← r.expression?
  if body.names.Nodup then some ⟨caseless, body⟩ else none

end Regex

end Phraseology
