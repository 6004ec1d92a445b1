import Phraseology.Proofs.Regex.Flaw
import Phraseology.Shorthand

/-! The written form of the tokens can be read whatever the words are that are kept together. -/
namespace Phraseology.Shorthand

open Automaton (boundFits fits_of_boundFits)
open Regex (Parts Alternatives ofWords parts_boundary alternatives_renderWords depth_ofWords_le
  depth_choice_le depth_sequence_le)

variable {l : Lexicon} {airlines : List Airline}

def latin : Regex := .ranges [('A', 'Z'), ('a', 'z'), ('0', '9')]

/-- The alternatives among the tokens: the words that are kept together, if there are any, and all
else. -/
def tokenParts (s : Shorthand) : List Regex :=
  match s.lexicon.script, s.known.isEmpty with
  | .spaced, false =>
    [.sequence [.boundary, .choice (ofWords s.known), .boundary], .sequence [.plus .solid]]
  | .ideographic, false =>
    [.sequence [.choice (ofWords s.known)], .sequence [.plus latin], .sequence [.solid]]
  | .spaced, true => [.sequence [.plus .solid]]
  | .ideographic, true => [.sequence [.plus latin], .sequence [.solid]]

/-- The expression of the tokens. Where no words are kept together, case counts. -/
def regex (s : Shorthand) : Regex.Written := ⟨!s.known.isEmpty, .choice s.tokenParts⟩

theorem parts_solid : Parts "\\S" [.solid] := fun _ _ => rfl

theorem parts_latin : Parts "[A-Za-z0-9]" [latin] := fun _ _ => rfl

/-- The words that are kept together are read as they are, whatever characters stand in them. -/
theorem read?_render (s : Shorthand) : Regex.read? s.render.toList = some s.regex := by
  have hwords := (alternatives_renderWords s.known).group
  have hspaced := parts_solid.plus.alternatives
  have hideographic := parts_latin.plus.alternatives.bar parts_solid.alternatives
  have hwhole := (parts_boundary.append hwords).append parts_boundary
  rw [regex, tokenParts, render]
  cases s.lexicon.script with
  | spaced =>
    cases s.known.isEmpty with
    | true => exact Regex.read?_cased (s := "\\S" ++ "+") hspaced (by simp) rfl
    | false =>
      refine Eq.trans (congrArg _ ?_)
        (Regex.read?_caseless (hwhole.alternatives.bar hspaced) (by simp))
      simp
  | ideographic =>
    cases s.known.isEmpty with
    | true =>
      exact Regex.read?_cased (s := "[A-Za-z0-9]" ++ "+" ++ "|" ++ "\\S") hideographic
        (by simp [latin]) rfl
    | false =>
      refine Eq.trans (congrArg _ ?_)
        (Regex.read?_caseless (hwords.alternatives.bar hideographic) (by simp [latin]))
      simp

theorem depth_regex_le (s : Shorthand) : s.regex.body.depth ≤ 6 := by
  have hwords := depth_choice_le (depth_ofWords_le s.known)
  refine depth_choice_le (n := 4) ?_
  rw [tokenParts]
  generalize Regex.choice (ofWords s.known) = words at hwords ⊢
  split
  all_goals
    simp only [List.forall_mem_cons, Regex.depth, Regex.depths, latin, List.not_mem_nil,
      false_implies, implies_true, and_true, List.length_cons, List.length_nil, Nat.max_def]
    grind

def Fits (s : Shorthand) : Prop := Regex.Small false s.render

theorem fits_of_small {s : Shorthand} (h : boundFits s.regex.expr) : s.Fits :=
  (Regex.small_iff s.read?_render).2 (fits_of_boundFits false h)

theorem flaw?_eq_none_iff {s : Shorthand} : s.flaw? = none ↔ s.Fits := by
  have hdepth : s.regex.body.tooDeep? s.render = none :=
    Regex.tooDeep?_eq_none (s.depth_regex_le.trans (by decide))
  rw [flaw?, Regex.flaw?_eq_none_iff s.read?_render, Fits]
  exact and_iff_right hdepth

theorem make_eq_ok_iff {s : Shorthand} :
    make l airlines = .ok s ↔ s = ⟨l, airlines⟩ ∧ s.Fits := by
  simp only [make]
  split
  · rename_i hflaw
    constructor
    · intro h
      obtain rfl := Except.ok.inj h
      exact ⟨rfl, flaw?_eq_none_iff.1 hflaw⟩
    · rintro ⟨rfl, -⟩
      rfl
  · rename_i flaw hflaw
    refine iff_of_false (by simp) ?_
    rintro ⟨rfl, hfits⟩
    rw [flaw?_eq_none_iff.2 hfits] at hflaw
    cases hflaw

end Phraseology.Shorthand
