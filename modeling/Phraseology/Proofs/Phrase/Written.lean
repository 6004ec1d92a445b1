import Phraseology.Phrase.Pattern
import Phraseology.Proofs.Regex.Written

/-! The written form of a pattern is read as the pattern. -/
namespace Phraseology.Pattern

open Regex (Parts Alternatives namesAmong namesAmong_chars parts_empty parts_blanks parts_renderWord)

mutual

def parts : Pattern → List Regex
  | .word w => w.map .char
  | .spaced ps => partsAmong ps
  | .choice ps => [.choice (bodies ps)]
  | .repeated body min max =>
    [.counted (.choice [.sequence (parts body ++ [.star .blank])]) min max]

def partsAmong : List Pattern → List Regex
  | [] => []
  | [p] => parts p
  | p :: rest => parts p ++ .star .blank :: partsAmong rest

/-- The alternatives of a group; one that is left empty has an empty one. -/
def bodies : List Pattern → List Regex
  | [] => [.sequence []]
  | [p] => [.sequence (parts p)]
  | p :: rest => .sequence (parts p) :: bodies rest

end

def whole (p : Pattern) : Regex :=
  .choice [.sequence (.start :: .star .blank :: (p.parts ++ [.star .blank, .stop]))]

mutual

theorem parts_render : (p : Pattern) → Parts p.render p.parts
  | .word w => parts_renderWord w
  | .spaced ps => parts_renders ps
  | .choice ps => (alternatives_renders ps).group
  | .repeated body min max => by
    have hcopy := ((parts_render body).append parts_blanks).alternatives.group.counted min max
    have hrender : (repeated body min max).render =
        "(?:" ++ (body.render ++ "\\s*") ++ ")" ++ Repetition.render min max := by
      rw [render, show "\\s*)" = "\\s*" ++ ")" from rfl]
      simp only [String.append_assoc]
    rw [hrender]
    exact hcopy

theorem parts_renders : (ps : List Pattern) →
    Parts ("\\s*".intercalate (renders ps)) (partsAmong ps)
  | [] => parts_empty
  | [p] => by
    rw [renders, renders, String.intercalate_singleton]
    exact parts_render p
  | p :: q :: rest => by
    have hrest := parts_renders (q :: rest)
    have hparts : partsAmong (p :: q :: rest) =
        p.parts ++ [.star .blank] ++ partsAmong (q :: rest) := by
      rw [partsAmong, List.append_assoc]
      · rfl
      · simp
    rw [renders] at hrest ⊢
    rw [renders, String.intercalate_cons_cons, hparts]
    exact ((parts_render p).append parts_blanks).append hrest

theorem alternatives_renders : (ps : List Pattern) →
    Alternatives ("|".intercalate (renders ps)) (bodies ps)
  | [] => parts_empty.alternatives
  | [p] => by
    rw [renders, renders, String.intercalate_singleton]
    exact (parts_render p).alternatives
  | p :: q :: rest => by
    have hrest := alternatives_renders (q :: rest)
    rw [renders] at hrest ⊢
    rw [renders, String.intercalate_cons_cons, bodies]
    · exact (parts_render p).alternatives.bar hrest
    · simp

end

mutual

/-- A pattern has no names. -/
theorem namesAmong_parts : (p : Pattern) → namesAmong p.parts = []
  | .word w => namesAmong_chars w
  | .spaced ps => namesAmong_partsAmong ps
  | .choice ps => by simp [parts, namesAmong_bodies ps]
  | .repeated body min max => by simp [parts, namesAmong_parts body]

theorem namesAmong_partsAmong : (ps : List Pattern) → namesAmong (partsAmong ps) = []
  | [] => rfl
  | [p] => namesAmong_parts p
  | p :: q :: rest => by
    simp [partsAmong, namesAmong_parts p, namesAmong_partsAmong (q :: rest)]

theorem namesAmong_bodies : (ps : List Pattern) → namesAmong (bodies ps) = []
  | [] => rfl
  | [p] => by simp [bodies, namesAmong_parts p]
  | p :: q :: rest => by simp [bodies, namesAmong_parts p, namesAmong_bodies (q :: rest)]

end

/-- The written form of the pattern of a whole text is read as its expression, whatever characters
stand in it. -/
theorem read?_renderWhole (p : Pattern) :
    Regex.read? p.renderWhole.toList = some ⟨true, p.whole⟩ := by
  have hstart : Parts "^\\s*" [.start, .star .blank] := fun _ _ => rfl
  have hstop : Parts "\\s*$" [.star .blank, .stop] := fun _ _ => rfl
  have hwhole := Regex.read?_caseless ((hstart.append p.parts_render).append hstop).alternatives
    (by simp [namesAmong_parts])
  have hrender : p.renderWhole = "(?i)" ++ ("^\\s*" ++ p.render ++ "\\s*$") := by
    rw [renderWhole, show "(?i)^\\s*" = "(?i)" ++ "^\\s*" from rfl]
    simp only [String.append_assoc]
  rw [hrender, hwhole, List.append_assoc]
  rfl

end Phraseology.Pattern
