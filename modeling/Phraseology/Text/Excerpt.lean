/-! Excerpts: a text with a part of it underlined. -/
namespace Phraseology.Text

/-- A part of a text, with what comes before it and after it. -/
structure Excerpt where
  before : String
  part : String
  after : String
  deriving DecidableEq, Repr

namespace Excerpt

def text (e : Excerpt) : String := e.before ++ e.part ++ e.after

def within (left : String) (e : Excerpt) (right : String) : Excerpt :=
  ⟨left ++ e.before, e.part, e.after ++ right⟩

/-- The lines of a text; the feeds between them are dropped. -/
def lines : List Char → List (List Char)
  | [] => [[]]
  | '\n' :: s => [] :: lines s
  | c :: s =>
    match lines s with
    | l :: ls => (c :: l) :: ls
    | [] => [[c]]

/-- A return at the end of a line does not belong to it. -/
def withoutReturn (l : List Char) : List Char :=
  if l.getLast? = some '\r' then l.dropLast else l

/-- What stands before a line: its number if there are several, filled up to a width. -/
def margin (width number : Nat) : List Char :=
  if width = 0 then [' ', ' ', ' ', ' ']
  else
    let digits := Nat.toDigits 10 number
    List.replicate (width - digits.length) ' ' ++ digits ++ [':', ' ']

/-- The lines of the text; the line of the part is followed by one that underlines the part. -/
def underlined (e : Excerpt) : List (List Char) :=
  let all := lines e.text.toList
  let shown := if all.getLast? = some [] then all.dropLast else all
  let width := if all.length ≤ 1 then 0 else (Nat.toDigits 10 all.length).length
  let above := lines e.before.toList
  let column := (above.getLast?.map List.length).getD 0
  let marks := List.replicate ((margin width 0).length + column) ' '
    ++ List.replicate (Nat.max 1 e.part.length) '^'
  (shown.mapIdx fun i l =>
    let line := margin width (i + 1) ++ withoutReturn l
    if i + 1 = above.length then [line, marks] else [line]).flatten

/-- The text with its part underlined, framed if it has several lines. -/
def render (e : Excerpt) : String :=
  let frame := if e.text.toList.contains '\n' then [List.replicate 79 '~'] else []
  String.ofList ((frame ++ e.underlined ++ frame).flatMap (· ++ ['\n']))

example : (Excerpt.mk "ab(" "12" ")").render = "    ab(12)\n       ^^\n" := by decide +kernel

end Excerpt

end Phraseology.Text
