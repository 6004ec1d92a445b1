import Phraseology.Proofs.Decoder.Make
import Phraseology.Proofs.Elements
import Phraseology.Proofs.Lexicon
import Phraseology.Proofs.NumberPhrase.Numbers
import Phraseology.Proofs.Text.Ascii

/-! The digit words of English, and airlines whose names are words of ASCII letters. -/
namespace Phraseology

open Text

/-- Where no name is told from the one looked up by more than the case of ASCII letters, both ways
to look it up agree. -/
theorem codeFor?_airlineSpellings_of_same {airlines : List Airline} {name : String}
    (h : ∀ a ∈ airlines,
      (lowercase a.name == lowercase name) = sameIgnoringAsciiCase a.name name) :
    Spelling.codeFor? (Decoder.airlineSpellings airlines) name =
      Airline.codeFor? airlines name := by
  unfold Spelling.codeFor? Airline.codeFor? Decoder.airlineSpellings
  rw [List.find?_map, Option.map_map]
  exact congrArg _ (List.find?_congr h)

/-- Names of ASCII letters are looked up alike in both ways. -/
theorem codeFor?_airlineSpellings {airlines : List Airline} {name : String}
    (h : ∀ a ∈ airlines, LetterWord a.name) (hname : LetterWord name) :
    Spelling.codeFor? (Decoder.airlineSpellings airlines) name = Airline.codeFor? airlines name :=
  codeFor?_airlineSpellings_of_same fun a ha => (h a ha).lowercase_eq hname

theorem isSome_codeFor? {airlines : List Airline} {a : Airline} (h : a ∈ airlines) :
    (Airline.codeFor? airlines a.name).isSome := by
  rw [Airline.codeFor?, Option.isSome_map, List.find?_isSome]
  exact ⟨a, h, by simp [sameIgnoringAsciiCase]⟩

def spokenDigits (ds : List DigitWord) : String := String.ofList (ds.map fun d => numeral d.value)

theorem Lexicon.plainWord_of_english_vocabulary :
    ∀ w ∈ Lexicon.english.vocabulary, PlainWord w.toList := by
  decide +kernel

theorem plainWord_of_english : ∀ d ∈ Lexicon.english.digits, PlainWord d.word.toList :=
  fun _ hd => Lexicon.plainWord_of_english_vocabulary _ (Lexicon.word_mem_vocabulary hd)

/-- A digit word is a word of its own. -/
theorem words_of_english : ∀ d ∈ Lexicon.english.digits, words d.word = [d.word] := fun d hd =>
  words_of_unbroken (plainWord_of_english d hd).unbroken

theorem values_english {p : NumberPhrase} (hp : p.digits = Lexicon.english.digits)
    {ds : List DigitWord} (h : ∀ d ∈ ds, d ∈ Lexicon.english.digits) :
    String.ofList (p.values ((digitWords ds).map String.toList)) = spokenDigits ds := by
  have hvalue : ∀ d ∈ Lexicon.english.digits,
      (Lexicon.english.digits.find? fun x =>
        lowerChars x.word.toList == lowerChars d.word.toList).map DigitWord.value =
          some d.value := by
    decide +kernel
  unfold NumberPhrase.values spokenDigits digitWords
  congr 1
  induction ds with
  | nil => rfl
  | cons d ds ih =>
    have hd : p.digitValue? d.word.toList = some d.value := by
      rw [NumberPhrase.digitValue?, hp]
      exact hvalue d (h d (by simp))
    rw [List.map_cons, List.map_cons, List.filterMap_cons, hd, List.map_cons,
      ih fun x hx => h x (List.mem_cons_of_mem d hx)]
    rfl

theorem digitWords_of_plain {p : NumberPhrase} {digits ds : List DigitWord}
    (hp : p.digits = digits) (hplain : ∀ d ∈ digits, PlainWord d.word.toList)
    (h : ∀ d ∈ ds, d ∈ digits) : p.DigitWords (digitWords ds) where
  plain := by
    intro w hw
    obtain ⟨d, hd, rfl⟩ := List.mem_map.1 hw
    exact hplain d (h d hd)
  digit := by
    intro w hw
    obtain ⟨d, hd, rfl⟩ := List.mem_map.1 hw
    rw [NumberPhrase.isDigitWord, hp]
    exact List.any_eq_true.2 ⟨d, h d hd, decide_eq_true (Alike.refl _)⟩

theorem digitWords_english {p : NumberPhrase} (hp : p.digits = Lexicon.english.digits)
    {ds : List DigitWord} (h : ∀ d ∈ ds, d ∈ Lexicon.english.digits) :
    p.DigitWords (digitWords ds) := digitWords_of_plain hp plainWord_of_english h

namespace Decoder

variable {l : Lexicon} {s : Source} {e : Elements} {c : Config} {d : Decoder} {kind : ResultKind}
  {text : String}

theorem plain_aircraftPhrase (hvalid : c.validate = .ok ())
    (hnames : ∀ a ∈ s.airlines, PlainWord a.name.toList) :
    (aircraftPhrase .english s c).Plain := by
  obtain ⟨hpos, hle⟩ := Config.validate_eq_ok_iff.1 hvalid
  refine ⟨rfl, (by decide : Lexicon.english.digits ≠ []), plainWord_of_english, ?_, hpos, hle⟩
  intro spellings hspellings x hx
  obtain rfl := Option.some.inj hspellings
  obtain ⟨a, ha, rfl⟩ := List.mem_map.1 hx
  exact hnames a ha

theorem plain_headingPhrase : (headingPhrase .english).Plain where
  script_eq := rfl
  digits_ne := by decide
  digits := plainWord_of_english
  leading := by simp
  min_pos := by decide
  min_le := le_rfl

/-- In a spaced script an aircraft is told by what the first number of the text says. -/
theorem Made.aircraftOf?_said (hmade : d.Made l s e c) (hscript : l.script = .spaced)
    (text : String) :
    d.aircraftOf? text = (((aircraftPhrase l s c).first? text).map NumberPhrase.Match.said).bind
      fun q => q.1.map (· ++ " " ++ q.2.1) := by
  rw [aircraftOf?, hmade.lexicon_eq, hmade.aircraft_eq, hscript, aircraftPhrase, hscript]
  cases NumberPhrase.first? _ text with
  | none => rfl
  | some m => cases h : m.leading <;> simp [NumberPhrase.Match.said, h]

theorem Made.aircraft_of_said (hmade : d.Made l s e c) (hscript : l.script = .spaced)
    (hdecode : ¬ (kind = .rejected ∨ isBlankText text)) {code digits : String}
    {trailing : Option String}
    (h : ((aircraftPhrase l s c).first? text).map NumberPhrase.Match.said =
      some (some code, digits, trailing)) (grammarName : String) :
    (d.decode kind grammarName text).aircraft = code ++ " " ++ digits := by
  rw [decode, if_neg hdecode]
  simp [hmade.aircraftOf?_said hscript, h]

theorem Made.heading_of_said (hmade : d.Made l s e c)
    (hdecode : ¬ (kind = .rejected ∨ isBlankText text)) {leading trailing : Option String}
    {digits : String}
    (h : ((headingPhrase l).last? text).map NumberPhrase.Match.said =
      some (leading, digits, trailing)) (grammarName : String) :
    (d.decode kind grammarName text).heading = digits := by
  obtain ⟨m, hm, hsaid⟩ := Option.map_eq_some_iff.1 h
  obtain ⟨-, hrest⟩ := Prod.mk.inj hsaid
  obtain ⟨rfl, -⟩ := Prod.mk.inj hrest
  have hheading : d.headingOf? text = some m.digits := by
    rw [headingOf?, hmade.heading_eq, hm]
    rfl
  rw [decode, if_neg hdecode]
  simp [hheading]

end Decoder

end Phraseology
