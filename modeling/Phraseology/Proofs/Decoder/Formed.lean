import Phraseology.Proofs.Decoded
import Phraseology.Proofs.Decoder.Complete
import Phraseology.Proofs.NumberPhrase.Count

/-! The fields of a decoded text look like identifiers: a flight number has digits, a runway one or
two of them and perhaps a side, and a heading three. -/
namespace Phraseology

open Text

/-- The digit words write digits and can be told apart, and the codes of directions are the letters
of sides. -/
structure Lexicon.Legible (l : Lexicon) : Prop where
  digits_ne : l.digits ≠ []
  word_ne : ∀ d ∈ l.digits, d.word.toList ≠ []
  value_le : ∀ d ∈ l.digits, d.value ≤ 9
  separable : Separable l.script l.digits
  directions : ∀ x ∈ l.directions, ∃ side : Side, x.code.toList = [side.letter]

namespace Lexicon

variable {l : Lexicon}

theorem legible_of_validate (h : l.validate = .ok ()) (hsep : Separable l.script l.digits)
    (hdirections : ∀ x ∈ l.directions, ∃ side : Side, x.code.toList = [side.letter]) :
    l.Legible where
  digits_ne := (l.digits_of_validate h).1
  word_ne := fun d hd => ((l.digits_of_validate h).2 d hd).2
  value_le := fun d hd => ((l.digits_of_validate h).2 d hd).1
  separable := hsep
  directions := hdirections

theorem legible_english : english.Legible := by
  refine legible_of_validate rfl (separable_of_plain plainWord_of_english) ?_
  simp only [english, List.forall_mem_cons]
  exact ⟨⟨.left, rfl⟩, ⟨.center, rfl⟩, ⟨.right, rfl⟩, by simp⟩

theorem legible_mandarin : mandarin.Legible := by
  refine legible_of_validate rfl (glyphs_mandarin.separable _) ?_
  simp only [mandarin, List.forall_mem_cons]
  exact ⟨⟨.left, rfl⟩, ⟨.center, rfl⟩, ⟨.right, rfl⟩, by simp⟩

theorem Legible.usable (hl : l.Legible) {p : NumberPhrase} (hp : p.digits = l.digits)
    (hmin : 1 ≤ p.min) : p.Usable where
  min_pos := hmin
  digits_ne := hp ▸ hl.digits_ne
  digits := fun d hd => hl.word_ne d (hp ▸ hd)

/-- Digit words that are ideographs have no case. -/
theorem Glyphs.faithful_digits (hl : l.Glyphs) (t : List Char) :
    Faithful (l.digits.map DigitWord.word) t := by
  have h := hl.faithful (p := Decoder.headingPhrase l) rfl (by simp) t
  simpa [NumberPhrase.vocabulary] using h

end Lexicon

namespace NumberPhrase

variable {p : NumberPhrase} {l : Lexicon} {text : List Char} {m : Match}

theorem exists_of_codeOf? {spellings : Option (List Spelling)} {word : Option (List Char)}
    {code : String} (h : codeOf? spellings word = some code) :
    ∃ ys ∈ spellings, ∃ y ∈ ys, y.code = code := by
  obtain ⟨ys, hys, h⟩ := Option.bind_eq_some_iff.1 h
  obtain ⟨w, -, h⟩ := Option.bind_eq_some_iff.1 h
  obtain ⟨y, hy, rfl⟩ := Option.map_eq_some_iff.1 h
  exact ⟨ys, hys, y, List.mem_of_find?_eq_some hy, rfl⟩

/-- The codes of a match are listed. -/
theorem codes_of_mem_find (hm : m ∈ p.find text) :
    (∀ code ∈ m.leading, ∃ ys ∈ p.leading, ∃ y ∈ ys, y.code = code) ∧
      ∀ code ∈ m.trailing, ∃ ys ∈ p.trailing, ∃ y ∈ ys, y.code = code := by
  unfold find at hm
  split_ifs at hm
  · cases hm
  · obtain ⟨⟨c, h⟩, -, hmatch⟩ := List.mem_filterMap.1 hm
    simp only [Hit.match?] at hmatch
    split at hmatch
    · obtain rfl := Option.some.inj hmatch
      exact ⟨by simp, fun code hcode => exists_of_codeOf? hcode⟩
    · obtain ⟨code, hcode, rfl⟩ := Option.map_eq_some_iff.1 hmatch
      refine ⟨?_, fun code hcode => exists_of_codeOf? hcode⟩
      rintro _ ⟨⟩
      exact exists_of_codeOf? hcode

/-- The digits of a match are digits, and there are as many as were asked for. -/
theorem digits_of_legible (hl : l.Legible) (hscript : p.script = l.script)
    (hdigits : p.digits = l.digits) (hmin : 1 ≤ p.min) (hle : p.min ≤ p.max)
    (hfaithful : Faithful (l.digits.map DigitWord.word) text) (hm : m ∈ p.find text) :
    isDigits m.digits.toList = true ∧ p.min ≤ m.digits.toList.length ∧
      m.digits.toList.length ≤ p.max := by
  have husable : p.Usable := hl.usable hdigits hmin
  have hsep : Separable p.script p.digits := by
    rw [hscript, hdigits]
    exact hl.separable
  rw [← hdigits] at hfaithful
  exact ⟨List.all_eq_true.2 (husable.isDigit_of_mem hle (hdigits ▸ hl.value_le) hm),
    husable.length_digits hle hsep hfaithful hm⟩

end NumberPhrase

namespace Decoder

variable {l : Lexicon} {s : Source} {e : Elements} {c : Config} {d : Decoder} {kind : ResultKind}
  {text value : String}

theorem isDigit_of_mem_leadingNumerals {digits : List DigitWord}
    (h : ∀ d ∈ digits, d.value ≤ 9) (room : Nat) (t : List Char) :
    ∀ g ∈ leadingNumerals digits room t, g.isDigit = true := by
  fun_induction leadingNumerals digits room t with
  | case1 => simp
  | case2 room t value rest hfound ih =>
    obtain ⟨d, hd, hvalue⟩ := List.exists_of_findSome?_eq_some hfound
    obtain ⟨_, -, heq⟩ := Option.map_eq_some_iff.1 hvalue
    obtain ⟨rfl, -⟩ := Prod.mk.inj heq
    exact List.forall_mem_cons.2 ⟨NumberPhrase.isDigit_numeral (h d hd), ih⟩
  | case3 => simp

theorem exists_of_getD_ne {x : Option String} (h : x.getD "" ≠ "") : ∃ value, x = some value := by
  cases x with
  | none => exact absurd rfl h
  | some value => exact ⟨value, rfl⟩

section Fields

variable (hmade : d.Made l s e c) (hl : l.Legible)
  (hfaithful : Faithful (l.digits.map DigitWord.word) text.toList)

include hmade hl hfaithful

/-- An aircraft is the code of an airline and at least one digit. -/
theorem Made.aircraft_formed (hvalid : c.validate = .ok ())
    (h : d.aircraftOf? text = some value) :
    ∃ a ∈ s.airlines, ∃ flight : String, flight ≠ "" ∧ isDigits flight.toList = true ∧
      value = a.code ++ " " ++ flight := by
  obtain ⟨hpos, hle⟩ := Config.validate_eq_ok_iff.1 hvalid
  rw [aircraftOf?, hmade.lexicon_eq, hmade.aircraft_eq, hmade.airlines_eq] at h
  split at h
  · obtain ⟨m, hm, h⟩ := Option.bind_eq_some_iff.1 h
    obtain ⟨code, hcode, h⟩ := Option.bind_eq_some_iff.1 h
    have hm := List.mem_of_mem_head? hm
    obtain ⟨ys, hys, y, hy, rfl⟩ := (NumberPhrase.codes_of_mem_find hm).1 code hcode
    obtain rfl := Option.some.inj hys
    obtain ⟨a, ha, rfl⟩ := List.mem_map.1 hy
    obtain ⟨hdigits, hlow, -⟩ :=
      NumberPhrase.digits_of_legible hl rfl rfl hpos hle hfaithful hm
    refine ⟨a, ha, m.digits, ?_, hdigits, (Option.some.inj h).symm⟩
    rintro hempty
    simp [hempty] at hlow
    omega
  · obtain ⟨a, ha, h⟩ := List.exists_of_findSome?_eq_some h
    obtain ⟨rest, -, h⟩ := Option.bind_eq_some_iff.1 h
    obtain ⟨hne, h⟩ := Option.ite_none_left_eq_some.1 h
    refine ⟨a, ha, _, by simpa using hne, ?_, (Option.some.inj h).symm⟩
    rw [String.toList_ofList, isDigits, List.all_eq_true]
    exact isDigit_of_mem_leadingNumerals hl.value_le _ _

/-- A runway has the name of one, listed or not. -/
theorem Made.runway_formed (h : d.runwayOf? text = some value) : ∃ r : Runway, value = r.name := by
  rw [runwayOf?, hmade.runway_eq] at h
  split_ifs at h
  · obtain ⟨m, hm, h⟩ := Option.bind_eq_some_iff.1 h
    have hm := List.mem_of_mem_head? hm
    obtain ⟨hdigits, hlow, hhigh⟩ :=
      NumberPhrase.digits_of_legible hl rfl rfl le_rfl (by decide : 1 ≤ 2) hfaithful hm
    obtain ⟨ns, hns⟩ := exists_map_digitChar hdigits
    rw [← hns, List.length_map] at hlow hhigh
    obtain ⟨side, hside⟩ : ∃ side : Option Side,
        (m.trailing.getD "").toList = (side.map Side.letter).toList := by
      cases htrailing : m.trailing with
      | none => exact ⟨none, rfl⟩
      | some code =>
        obtain ⟨ys, hys, y, hy, rfl⟩ := (NumberPhrase.codes_of_mem_find hm).2 code htrailing
        obtain rfl := Option.some.inj hys
        obtain ⟨side, hside⟩ := hl.directions y hy
        exact ⟨some side, hside⟩
    obtain ⟨r, hr⟩ := Runway.exists_chars hlow hhigh side
    refine ⟨r, String.toList_injective ?_⟩
    rw [← Option.some.inj h, Runway.name, String.toList_ofList, String.toList_append, hr, hns,
      hside]
  · obtain ⟨r, -, rfl⟩ := Option.map_eq_some_iff.1 h
    exact ⟨r.runway, rfl⟩

/-- A heading has three digits. -/
theorem Made.heading_formed (h : d.headingOf? text = some value) :
    isDigits value.toList = true ∧ value.toList.length = 3 := by
  rw [headingOf?, hmade.heading_eq] at h
  obtain ⟨m, hm, rfl⟩ := Option.map_eq_some_iff.1 h
  obtain ⟨hdigits, hlow, hhigh⟩ := NumberPhrase.digits_of_legible hl rfl rfl (by decide : 1 ≤ 3)
    le_rfl hfaithful (List.mem_of_getLast? hm)
  exact ⟨hdigits, le_antisymm hhigh hlow⟩

/-- All fields of a result are like that. -/
theorem Made.formed (hvalid : c.validate = .ok ()) (grammarName : String) :
    (d.decode kind grammarName text).Formed s.airlines := by
  rw [decode]
  split_ifs
  · exact ⟨by simp [Decoded.empty], by simp [Decoded.empty], by simp [Decoded.empty]⟩
  · refine ⟨fun h => ?_, fun h => ?_, fun h => ?_⟩
    · obtain ⟨value, hvalue⟩ := exists_of_getD_ne h
      simpa [hvalue] using hmade.aircraft_formed hl hfaithful hvalid hvalue
    · obtain ⟨value, hvalue⟩ := exists_of_getD_ne h
      simpa [hvalue] using hmade.runway_formed hl hfaithful hvalue
    · obtain ⟨value, hvalue⟩ := exists_of_getD_ne h
      simpa [hvalue] using hmade.heading_formed hl hfaithful hvalue

end Fields

/-- A decoder keeps the text in which it has found something. -/
theorem message_of_grammar_ne {grammarName : String}
    (h : (d.decode kind grammarName text).grammar ≠ .invalid) :
    (d.decode kind grammarName text).message = text := by
  rw [decode] at h ⊢
  split_ifs at h ⊢
  · exact absurd rfl h
  · rfl

end Decoder

end Phraseology
