import Phraseology.Proofs.Decoder.Found
import Phraseology.Proofs.Elements

/-! Fields that are read off the compact text, where digits are single ideographs. -/
namespace Phraseology

open Text

namespace Decoder

variable {l : Lexicon} {s : Source} {e : Elements} {c : Config} {d : Decoder} {x : String}
  {digits ds : List DigitWord} {r t u v : List Char} {value : Nat}

/-- The characters of digit words are alike to themselves only. -/
theorem ideographic_digitWords (hl : l.Glyphs) (hds : ∀ d ∈ ds, d ∈ l.digits) :
    Ideographic ((digitWords ds).flatMap String.toList) := by
  intro g hg
  obtain ⟨w, hw, hg⟩ := List.mem_flatMap.1 hg
  obtain ⟨x, hx, rfl⟩ := List.mem_map.1 hw
  exact (hl.digits x (hds x hx)).2.1 g hg

/-- The word that is read is the first in the table with which the text begins. -/
theorem leadingDigit?_eq_some_iff : leadingDigit? digits t = some (value, r) ↔
    ∃ before d after, digits = before ++ d :: after ∧ d.value = value ∧
      lowerChars d.word.toList ++ r = t ∧ ∀ e ∈ before, ¬ lowerChars e.word.toList <+: t := by
  rw [leadingDigit?, List.findSome?_eq_some_iff]
  constructor
  · rintro ⟨before, d, after, rfl, hd, hbefore⟩
    obtain ⟨r, hr, hvalue⟩ := Option.map_eq_some_iff.1 hd
    obtain ⟨rfl, rfl⟩ := Prod.mk.inj hvalue
    refine ⟨before, d, after, rfl, rfl, List.isPrefixOf?_eq_some_iff_append_eq.1 hr, ?_⟩
    rintro e he ⟨r', rfl⟩
    have hnone := hbefore e he
    rw [isPrefixOf?_append] at hnone
    cases hnone
  · rintro ⟨before, d, after, rfl, rfl, rfl, hbefore⟩
    refine ⟨before, d, after, rfl, by rw [isPrefixOf?_append]; rfl, fun e he => ?_⟩
    rw [isPrefixOf?_eq_none (hbefore e he)]
    rfl

theorem leadingDigit?_eq_none_iff :
    leadingDigit? digits t = none ↔ ∀ d ∈ digits, ¬ lowerChars d.word.toList <+: t := by
  rw [leadingDigit?, List.findSome?_eq_none_iff]
  refine forall₂_congr fun d _ => ?_
  constructor
  · rintro hnone ⟨r, rfl⟩
    rw [isPrefixOf?_append] at hnone
    cases hnone
  · intro h
    rw [isPrefixOf?_eq_none h]
    rfl

/-- A text that begins with a digit word begins with the first that is listed with this word. -/
theorem exists_leadingDigit? (hl : l.Glyphs) {a : DigitWord} (ha : a ∈ l.digits) (r : List Char) :
    ∃ b ∈ l.digits, b.word = a.word ∧
      leadingDigit? l.digits (a.word.toList ++ r) = some (b.value, r) := by
  obtain ⟨hlength, hideograph, -⟩ := hl.digits a ha
  have hsome : leadingDigit? l.digits (a.word.toList ++ r) ≠ none := by
    intro hnone
    refine leadingDigit?_eq_none_iff.1 hnone a ha ?_
    rw [hideograph.lowerChars_eq]
    exact List.prefix_append _ r
  obtain ⟨⟨value, rest⟩, hfound⟩ := Option.ne_none_iff_exists'.1 hsome
  obtain ⟨before, b, after, hsplit, rfl, happend, -⟩ := leadingDigit?_eq_some_iff.1 hfound
  have hb : b ∈ l.digits := by simp [hsplit]
  obtain ⟨hlengthb, hideographb, -⟩ := hl.digits b hb
  -- The digit that is found is as long as the one that stands here, so as much is left.
  rw [hideographb.lowerChars_eq] at happend
  obtain ⟨hword, rfl⟩ := List.append_inj happend (hlengthb.trans hlength.symm)
  exact ⟨b, hb, String.toList_injective hword, hfound⟩

theorem leadingNumerals_of_none (n : Nat) (h : leadingDigit? digits t = none) :
    leadingNumerals digits n t = [] := by
  cases n with
  | zero => rw [leadingNumerals]
  | succ n => rw [leadingNumerals, h]

theorem utf8Size_numeral (h : value ≤ 9) : (numeral value).utf8Size = 1 := by
  have : ∀ value ≤ 9, (numeral value).utf8Size = 1 := by decide
  exact this value h

/-- A digit takes up room for one. -/
theorem leadingNumerals_succ (n : Nat) (hvalue : value ≤ 9)
    (h : leadingDigit? digits t = some (value, r)) :
    leadingNumerals digits (n + 1) t = numeral value :: leadingNumerals digits n r := by
  simp only [leadingNumerals, h, utf8Size_numeral hvalue, Nat.sub_self, Nat.sub_zero]

end Decoder

end Phraseology
