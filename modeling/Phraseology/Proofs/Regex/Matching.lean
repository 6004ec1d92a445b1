import Mathlib.Data.List.Basic
import Phraseology.Regex
import Phraseology.Text.Cursor

/-! Which texts an expression is found in, where case does not count. -/
namespace Phraseology.Regex

open Text

/-- The expression matches a text between what comes before it and what comes after it. -/
inductive Matches : Regex → List Char → List Char → List Char → Prop where
  | char {c d : Char} {b a : List Char} (same : Text.alike c d = true) : Matches (.char c) b [d] a
  | blank {d : Char} {b a : List Char} (white : isBlank d = true) : Matches .blank b [d] a
  | solid {d : Char} {b a : List Char} (black : isBlank d = false) : Matches .solid b [d] a
  | wordChar {d : Char} {b a : List Char} (ofWords : isWordChar d = true) :
      Matches .wordChar b [d] a
  | ranges {rs : List (Char × Char)} {r : Char × Char} {c d : Char} {b a : List Char} (mem : r ∈ rs)
      (low : r.1 ≤ c) (high : c ≤ r.2) (same : Text.alike c d = true) : Matches (.ranges rs) b [d] a
  | boundary {b a : List Char} (edge : b.getLast?.any isWordChar ≠ a.head?.any isWordChar) :
      Matches .boundary b [] a
  | start (a : List Char) : Matches .start [] [] a
  | stop (b : List Char) : Matches .stop b [] []
  | nil (b a : List Char) : Matches (.sequence []) b [] a
  | cons {r : Regex} {rs : List Regex} {b u v a : List Char} (first : Matches r b u (v ++ a))
      (others : Matches (.sequence rs) (b ++ u) v a) : Matches (.sequence (r :: rs)) b (u ++ v) a
  | choice {r : Regex} {rs : List Regex} {b u a : List Char} (mem : r ∈ rs)
      (one : Matches r b u a) : Matches (.choice rs) b u a
  | capture {name : String} {r : Regex} {b u a : List Char} (body : Matches r b u a) :
      Matches (.capture name r) b u a
  | star {r : Regex} {b u a : List Char} (n : Nat)
      (copies : Matches (.sequence (.replicate n r)) b u a) : Matches (.star r) b u a
  | plus {r : Regex} {b u a : List Char} (n : Nat) (pos : 1 ≤ n)
      (copies : Matches (.sequence (.replicate n r)) b u a) : Matches (.plus r) b u a
  | optional {r : Regex} {b u a : List Char} (n : Nat) (le : n ≤ 1)
      (copies : Matches (.sequence (.replicate n r)) b u a) : Matches (.optional r) b u a
  | counted {r : Regex} {min max : Nat} {b u a : List Char} (n : Nat) (lower : min ≤ n)
      (upper : n ≤ max) (copies : Matches (.sequence (.replicate n r)) b u a) :
      Matches (.counted r min max) b u a

def FoundIn (r : Regex) (text : List Char) : Prop :=
  ∃ b u a, text = b ++ (u ++ a) ∧ r.Matches b u a

/-- What is written is an expression in which case does not count, and it is found in the text. -/
def Accepts (written text : String) : Prop :=
  ∃ r, read? written.toList = some r ∧ r.caseless = true ∧ r.body.FoundIn text.toList

end Phraseology.Regex
