import Phraseology.Text.Blank
import Phraseology.Text.CaseFold
import Phraseology.Text.WordChar
import Std.Data.HashSet

/-! Places in a text, and where something that begins at a place can end. -/
namespace Phraseology.Text

/-- A place between two characters: what comes before it, last character first, what comes after
it, and how many bytes come before it. -/
structure Cursor where
  before : List Char
  after : List Char
  offset : Nat
  offset_eq : offset = byteCount before

namespace Cursor

def start (s : List Char) : Cursor := ⟨[], s, 0, rfl⟩

def push (c : Cursor) (d : Char) (s : List Char) : Cursor :=
  ⟨d :: c.before, s, d.utf8Size + c.offset, by simp [c.offset_eq]⟩

def next? (c : Cursor) : Option Cursor :=
  match c.after with
  | [] => none
  | d :: s => some (c.push d s)

def takeBytes : Nat → List Char → List Char
  | _, [] => []
  | n, d :: s => if n = 0 then [] else d :: takeBytes (n - d.utf8Size) s

def upTo (a b : Cursor) : List Char := takeBytes (b.offset - a.offset) a.after

/-- A word begins or ends at the place. -/
def atBoundary (c : Cursor) : Bool :=
  ((c.before.head?.map isWordChar).getD false) != ((c.after.head?.map isWordChar).getD false)

/-- The place behind a word that stands here, up to case. -/
def word? : List Char → Cursor → Option Cursor
  | [], c => some c
  | w :: ws, c =>
    match c.after with
    | [] => none
    | d :: s => if alike w d then word? ws (c.push d s) else none

/-- The places behind those of the words that stand here, in the order of the words. -/
def anyWord (ws : List (List Char)) (c : Cursor) : List Cursor := ws.filterMap fun w => word? w c

/-- The places that can be reached over characters of a class, when `s` is left and the places
`found` have been passed; the farthest comes first. -/
def reach (p : Char → Bool) (found : List Cursor) (c : Cursor) : List Char → List Cursor
  | [] => c :: found
  | d :: s => if p d then reach p (c :: found) (c.push d s) s else c :: found

/-- The places that can be reached over characters of a class, the farthest first, and this one
last. -/
def run (c : Cursor) (p : Char → Bool) : List Cursor := reach p [] c c.after

def blanks (c : Cursor) : List Cursor := c.run isBlank

def skipBlanks (c : Cursor) : Cursor := c.blanks.headD c

/-- The places behind one or more characters of a class, the farthest first. -/
def run1 (c : Cursor) (p : Char → Bool) : List Cursor := (c.run p).dropLast

def one (c : Cursor) (p : Char → Bool) : List Cursor :=
  match c.after with
  | [] => []
  | d :: s => if p d then [c.push d s] else []

/-- Each place once, where it comes first, except those at the offsets `seen`. -/
def distinctFrom (seen : Std.HashSet Nat) : List Cursor → List Cursor
  | [] => []
  | c :: cs =>
    if seen.contains c.offset then distinctFrom seen cs
    else c :: distinctFrom (seen.insert c.offset) cs

def distinct (cs : List Cursor) : List Cursor := distinctFrom ∅ cs

def offsets (cs : List Cursor) : List Nat := cs.map offset

def allAmong (cs ds : List Cursor) : Bool :=
  let found : Std.HashSet Nat := .ofList (offsets ds)
  cs.all fun c => found.contains c.offset

/-- The places behind exactly `n` repetitions, in the order of preference. A place is looked at
once for each repetition: what can follow it has been found by then. -/
def exactly (step : Cursor → List Cursor) : Nat → List Cursor → List Cursor
  | 0, cs => cs
  | n + 1, cs =>
    let next := distinct (cs.flatMap step)
    if next.isEmpty || offsets next == offsets cs then next else exactly step n next

/-- The preferred place behind at most `n` repetitions: one more is preferred to none. -/
def atMost (step : Cursor → List Cursor) : Nat → Cursor → Cursor
  | 0, c => c
  | n + 1, c =>
    match (step c).head? with
    | none => c
    | some d => if d.offset = c.offset then c else atMost step n d

def between? (step : Cursor → List Cursor) (min max : Nat) (c : Cursor) : Option Cursor :=
  (exactly step min [c]).head?.map (atMost step (max - min))

section Search

variable {α : Type} (hit? : Cursor → Option α) (stop : α → Cursor)

/-- The hits from a place on, none of which overlaps another. Where a hit has just `ended`, an
empty one does not count. At any place there is at most one hit and one step to the next place,
which bounds the fuel. -/
def hitsFrom : Nat → Bool → Cursor → List (Cursor × α)
  | 0, _, _ => []
  | fuel + 1, ended, c =>
    match (hit? c).filter fun h => !(ended && (stop h).offset == c.offset) with
    | some h => (c, h) :: hitsFrom fuel true (stop h)
    | none =>
      match c.next? with
      | some c => hitsFrom fuel false c
      | none => []

def hits (s : List Char) : List (Cursor × α) :=
  hitsFrom hit? stop (2 * s.length + 2) false (start s)

end Search

end Cursor

end Phraseology.Text
