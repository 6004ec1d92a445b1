import Phraseology.Category
import Phraseology.Text.Blank

/-! Templates: text with `{elements}`, `<choices|of|words>` and `[optional]` parts, none of which
nests. -/
namespace Phraseology.Template

/-- A stretch of a template: plain text, or what stands between a pair of brackets. -/
inductive Piece where
  | plain (s : List Char)
  | braces (s : List Char)
  | angles (s : List Char)
  | brackets (s : List Char)
  deriving DecidableEq, Repr

def Piece.chars : Piece → List Char
  | .plain s => s
  | .braces s => '{' :: (s ++ ['}'])
  | .angles s => '<' :: (s ++ ['>'])
  | .brackets s => '[' :: (s ++ [']'])

/-- What comes before the first `close` and what comes after it; there has to be something
before it. -/
def upTo? (close : Char) (s : List Char) : Option (List Char × List Char) :=
  match s.takeWhile (· != close), s.dropWhile (· != close) with
  | c :: content, _ :: rest => some (c :: content, rest)
  | _, _ => none

def span? : List Char → Option (Piece × List Char)
  | '{' :: s => (upTo? '}' s).map fun p => (.braces p.1, p.2)
  | '<' :: s => (upTo? '>' s).map fun p => (.angles p.1, p.2)
  | '[' :: s => (upTo? ']' s).map fun p => (.brackets p.1, p.2)
  | _ => none

theorem length_of_upTo? {close : Char} {s content rest : List Char}
    (h : upTo? close s = some (content, rest)) : rest.length < s.length := by
  have hs : (s.takeWhile (· != close)).length + (s.dropWhile (· != close)).length = s.length := by
    rw [← List.length_append, List.takeWhile_append_dropWhile]
  unfold upTo? at h
  split at h
  · rename_i hrest
    cases h
    rw [hrest, List.length_cons] at hs
    omega
  · cases h

theorem length_of_span? {s rest : List Char} {p : Piece} (h : span? s = some (p, rest)) :
    rest.length < s.length := by
  unfold span? at h
  split at h
  · obtain ⟨q, hq, he⟩ := Option.map_eq_some_iff.1 h
    cases he
    exact Nat.lt_succ_of_lt (length_of_upTo? hq)
  · obtain ⟨q, hq, he⟩ := Option.map_eq_some_iff.1 h
    cases he
    exact Nat.lt_succ_of_lt (length_of_upTo? hq)
  · obtain ⟨q, hq, he⟩ := Option.map_eq_some_iff.1 h
    cases he
    exact Nat.lt_succ_of_lt (length_of_upTo? hq)
  · cases h

/-- A character that belongs to no bracketed piece joins the plain text after it. -/
def plainCons (c : Char) : List Piece → List Piece
  | .plain s :: ps => .plain (c :: s) :: ps
  | ps => .plain [c] :: ps

def pieces (s : List Char) : List Piece :=
  match s with
  | [] => []
  | c :: t =>
    match _h : span? (c :: t) with
    | some (p, rest) => p :: pieces rest
    | none => plainCons c (pieces t)
termination_by s.length
decreasing_by
  · exact length_of_span? _h
  · exact Nat.lt_succ_self _

inductive Token where
  | literal (text : String)
  | element (kind : ElementKind)
  | choice (alternatives : List String)
  | optional (text : String)
  deriving DecidableEq, Repr

def splitAt (separator : Char) : List Char → List (List Char)
  | [] => [[]]
  | c :: s =>
    if c == separator then [] :: splitAt separator s
    else match splitAt separator s with
      | part :: parts => (c :: part) :: parts
      | [] => [[c]]

/-- The alternatives of a choice, without blanks around them; empty ones are left out. -/
def alternatives (s : List Char) : List String :=
  (((splitAt '|' s).map Text.trimChars).filter (!·.isEmpty)).map String.ofList

/-- Text without blanks around it, unless it is empty. -/
def trimmed? (s : List Char) : Option String :=
  if (Text.trimChars s).isEmpty then none else some (String.ofList (Text.trimChars s))

/-- What a piece says, if anything. A name in braces that is no element's is text. -/
def Piece.token? : Piece → Option Token
  | .plain s => (trimmed? s).map .literal
  | .braces s =>
    match ElementKind.ofName? (String.ofList (Text.trimChars s)) with
    | some kind => some (.element kind)
    | none => some (.literal (String.ofList (Piece.chars (.braces s))))
  | .angles s => if (alternatives s).isEmpty then none else some (.choice (alternatives s))
  | .brackets s => (trimmed? s).map .optional

def tokens (template : String) : List Token := (pieces template.toList).filterMap Piece.token?

end Phraseology.Template
