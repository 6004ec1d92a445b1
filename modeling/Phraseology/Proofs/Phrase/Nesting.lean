import Phraseology.Proofs.Phrase.Compile

/-! How deep the pattern of a phrase is nested: choices and repetitions inside one another make it
deeper, and nothing else does. -/
namespace Phraseology

/-- At most so many choices and repetitions stand inside one another. -/
inductive Phrase.Shallow : Nat → Phrase → Prop where
  | text {n : Nat} (s : String) : Shallow n (.text s)
  | choice {n : Nat} {alternatives : List Phrase} (each : ∀ p ∈ alternatives, Shallow n p) :
      Shallow (n + 1) (.choice alternatives)
  | sequence {n : Nat} {parts : List Phrase} (each : ∀ p ∈ parts, Shallow n p) :
      Shallow n (.sequence parts)
  | repeated {n : Nat} {body : Phrase} {min max : Nat} (shallow : Shallow n body) :
      Shallow (n + 1) (.repeated body min max)
  | element {n : Nat} {kind : ElementKind} {body : Phrase} (shallow : Shallow n body) :
      Shallow n (.element kind body)

theorem Phrase.shallow_oneOf (n : Nat) (texts : List String) :
    (Phrase.oneOf texts).Shallow (n + 1) := by
  refine .choice fun p hp => ?_
  obtain ⟨text, -, rfl⟩ := List.mem_map.1 hp
  exact .text text

namespace Pattern

open Regex (nestLimit)

inductive Shallow : Nat → Pattern → Prop where
  | word {n : Nat} (w : List Char) : Shallow n (.word w)
  | spaced {n : Nat} {parts : List Pattern} (each : ∀ p ∈ parts, Shallow n p) :
      Shallow n (.spaced parts)
  | choice {n : Nat} {alternatives : List Pattern} (each : ∀ p ∈ alternatives, Shallow n p) :
      Shallow (n + 1) (.choice alternatives)
  | repeated {n : Nat} {body : Pattern} {min max : Nat} (shallow : Shallow n body) :
      Shallow (n + 1) (.repeated body min max)

variable {n depth : Nat} {p q : Pattern} {ps : List Pattern}

theorem shallow_ofText (s : String) : (ofText s).Shallow n := by
  refine .spaced fun p hp => ?_
  obtain ⟨w, -, rfl⟩ := List.mem_map.1 hp
  exact .word w

theorem shallow_ofRepeated? {body : Option Pattern} {min max : Nat}
    (hbody : ∀ p ∈ body, p.Shallow n) (hq : ofRepeated? body min max = some q) :
    q.Shallow (n + 1) := by
  have hnothing : (Pattern.spaced []).Shallow (n + 1) := .spaced (by simp)
  unfold ofRepeated? at hq
  split at hq
  · split_ifs at hq
    · exact Option.some.inj hq ▸ hnothing
    · exact Option.some.inj hq ▸ .repeated (hbody _ rfl)
  · split_ifs at hq
    exact Option.some.inj hq ▸ hnothing

theorem shallow_ofPhrase? {ph : Phrase} (hs : ph.Shallow n) (hq : ofPhrase? ph = some q) :
    q.Shallow n := by
  induction hs generalizing q with
  | text s =>
    obtain rfl := Option.some.inj hq
    exact shallow_ofText s
  | choice each ih =>
    obtain rfl := eq_of_ofAlternatives? hq
    refine .choice fun p hp => ?_
    obtain ⟨ph, hph, hp⟩ := mem_ofSome_iff.1 hp
    exact ih ph hph hp
  | sequence each ih =>
    obtain ⟨qs, hqs, rfl⟩ := Option.map_eq_some_iff.1 hq
    refine .spaced fun p hp => ?_
    obtain ⟨ph, hph, hp⟩ := exists_of_mem_ofAll? hqs (List.mem_of_mem_filter hp)
    exact ih ph hph hp
  | repeated shallow ih => exact shallow_ofRepeated? (fun p hp => ih hp) hq
  | element shallow ih => exact ih hq

-- A repetition is one of a group of things side by side, and a choice is a group of alternatives
-- each of which may be several things: both make a pattern deeper by three.

mutual

theorem nested?_eq_none : (p : Pattern) → (n depth : Nat) → p.Shallow n →
    depth + 3 * n < nestLimit → p.nested? depth = none
  | .word _, _, _, _, _ => rfl
  | .spaced parts, n, depth, hs, hdepth => by
    cases hs with
    | spaced each => exact nestedAmong?_eq_none parts n depth each hdepth
  | .choice alternatives, _, depth, hs, hdepth => by
    cases hs with
    | @choice n _ each =>
      have hinside : ∀ k ≤ 2, nestedAny? alternatives (depth + k) = none := fun k hk =>
        nestedAny?_eq_none alternatives n (depth + k) each (by omega)
      rw [nested?, if_neg (by omega), if_neg (by omega : ¬ nestLimit ≤ depth + 1),
        hinside 1 (by omega), hinside 2 le_rfl, ite_self]
      rfl
  | .repeated body min max, _, depth, hs, hdepth => by
    cases hs with
    | @repeated n _ _ _ shallow =>
      have hbody := nested?_eq_none body n (depth + 3) shallow (by omega)
      rw [nested?, if_neg (by omega), if_neg (by omega), if_neg (by omega), if_neg (by omega),
        hbody]
      rfl

theorem nestedAmong?_eq_none : (ps : List Pattern) → (n depth : Nat) → (∀ p ∈ ps, p.Shallow n) →
    depth + 3 * n < nestLimit → nestedAmong? ps depth = none
  | [], _, _, _, _ => rfl
  | [p], n, depth, hs, hdepth => nested?_eq_none p n depth (hs p (by simp)) hdepth
  | p :: q :: rest, n, depth, hs, hdepth => by
    obtain ⟨hfirst, hothers⟩ := List.forall_mem_cons.1 hs
    rw [nestedAmong?, nested?_eq_none p n depth hfirst hdepth, if_neg (by omega),
      nestedAmong?_eq_none (q :: rest) n depth hothers hdepth]
    · rfl
    · simp

theorem nestedAny?_eq_none : (ps : List Pattern) → (n depth : Nat) → (∀ p ∈ ps, p.Shallow n) →
    depth + 1 + 3 * n < nestLimit → nestedAny? ps depth = none
  | [], _, _, _, _ => rfl
  | p :: rest, n, depth, hs, hdepth => by
    obtain ⟨hfirst, hothers⟩ := List.forall_mem_cons.1 hs
    have hplain := nested?_eq_none p n depth hfirst (by omega)
    have hgroup := nested?_eq_none p n (depth + 1) hfirst hdepth
    rw [nestedAny?, hplain, if_neg (by omega : ¬ nestLimit ≤ depth), hgroup, ite_self,
      nestedAny?_eq_none rest n depth hothers hdepth]
    rfl

end

end Pattern

end Phraseology
