import Phraseology.Decoder
import Phraseology.Proofs.Elements
import Phraseology.Proofs.NumberPhrase.Written
import Phraseology.Proofs.Shorthand.Written

/-! What a decoder looks for: the same words in every text, whatever the text is. -/
namespace Phraseology

open Automaton (boundFits)

theorem NumberPhrase.eq_of_make {l : Lexicon} {leading trailing : Option (List Spelling)}
    {min max : Nat} {p : NumberPhrase} (h : make l leading min max trailing = .ok p) :
    p = ⟨l.script, l.digits, leading, min, max, trailing⟩ := by
  simp only [make] at h
  split at h
  · exact (Except.ok.inj h).symm
  · cases h

namespace Decoder

structure Made (l : Lexicon) (s : Source) (e : Elements) (c : Config) (d : Decoder) : Prop where
  lexicon_eq : d.lexicon = l
  airlines_eq : d.airlines = s.airlines
  waypoints_eq : d.waypoints = s.waypoints
  runwaySpellings_eq :
    d.runwaySpellings = Text.longestFirst (fun r => r.spoken.length) e.runwayMode.spellings
  flightMaxDigits_eq : d.flightMaxDigits = c.flightMaxDigits
  aircraft_eq : d.aircraft = ⟨l.script, l.digits, some (airlineSpellings s.airlines),
    c.flightDigits, c.flightMaxDigits, none⟩
  runway_eq : d.runway =
    ⟨l.script, l.digits, some [⟨l.runwayKeyword, ""⟩], 1, 2, some l.directions⟩
  heading_eq : d.heading = ⟨l.script, l.digits, none, 3, 3, none⟩
  waypointSpelled_eq : d.waypointSpelled = ⟨l.script, l.digits, some l.phonetic, 2, 2, none⟩

/-- The decoder of these parts, whether they are small enough or not. -/
def ofParts (l : Lexicon) (s : Source) (e : Elements) (c : Config) : Decoder where
  lexicon := l
  airlines := s.airlines
  waypoints := s.waypoints
  runwaySpellings := Text.longestFirst (fun r => r.spoken.length) e.runwayMode.spellings
  flightMaxDigits := c.flightMaxDigits
  aircraft := ⟨l.script, l.digits, some (airlineSpellings s.airlines), c.flightDigits,
    c.flightMaxDigits, none⟩
  runway := ⟨l.script, l.digits, some [⟨l.runwayKeyword, ""⟩], 1, 2, some l.directions⟩
  heading := ⟨l.script, l.digits, none, 3, 3, none⟩
  waypointSpelled := ⟨l.script, l.digits, some l.phonetic, 2, 2, none⟩
  shorthand := ⟨l, s.airlines⟩

theorem eq_ofParts_of_make {l : Lexicon} {s : Source} {e : Elements} {c : Config} {d : Decoder}
    (h : make l s e c = .ok d) : d = ofParts l s e c := by
  obtain ⟨aircraft, haircraft, h⟩ := bind_eq_ok_iff.1 h
  obtain ⟨runway, hrunway, h⟩ := bind_eq_ok_iff.1 h
  obtain ⟨heading, hheading, h⟩ := bind_eq_ok_iff.1 h
  obtain ⟨spelled, hspelled, h⟩ := bind_eq_ok_iff.1 h
  obtain ⟨shorthand, hshorthand, h⟩ := bind_eq_ok_iff.1 h
  obtain rfl := Except.ok.inj h
  rw [NumberPhrase.eq_of_make haircraft, NumberPhrase.eq_of_make hrunway,
    NumberPhrase.eq_of_make hheading, NumberPhrase.eq_of_make hspelled,
    (Shorthand.make_eq_ok_iff.1 hshorthand).1, ofParts]

theorem made_of_make {l : Lexicon} {s : Source} {e : Elements} {c : Config} {d : Decoder}
    (h : make l s e c = .ok d) : d.Made l s e c := by
  rw [eq_ofParts_of_make h]
  exact ⟨rfl, rfl, rfl, rfl, rfl, rfl, rfl, rfl, rfl⟩

/-- A decoder shows texts with the vocabulary that it decodes them with. -/
theorem shorthand_of_make {l : Lexicon} {s : Source} {e : Elements} {c : Config} {d : Decoder}
    (h : make l s e c = .ok d) : d.shorthand = ⟨l, s.airlines⟩ := by
  rw [eq_ofParts_of_make h]
  rfl

abbrev aircraftPhrase (l : Lexicon) (s : Source) (c : Config) : NumberPhrase :=
  ⟨l.script, l.digits, some (airlineSpellings s.airlines), c.flightDigits, c.flightMaxDigits, none⟩

abbrev headingPhrase (l : Lexicon) : NumberPhrase := ⟨l.script, l.digits, none, 3, 3, none⟩

def numberPhrases (l : Lexicon) (s : Source) (c : Config) : List NumberPhrase :=
  [aircraftPhrase l s c, ⟨l.script, l.digits, some [⟨l.runwayKeyword, ""⟩], 1, 2, some l.directions⟩,
    headingPhrase l, ⟨l.script, l.digits, some l.phonetic, 2, 2, none⟩]

/-- All that is looked for is small enough and can be counted. -/
structure Fits (l : Lexicon) (s : Source) (c : Config) : Prop where
  numbers : ∀ p ∈ numberPhrases l s c, p.Fits
  shorthand : (Shorthand.mk l s.airlines).Fits

/-- Once the bounds of flight numbers are in order, nothing but a limit can stand in the way of a
decoder, whatever characters the words are made of. -/
theorem exists_make_iff {l : Lexicon} {s : Source} {e : Elements} {c : Config}
    (hc : c.flightDigits ≤ c.flightMaxDigits) :
    (∃ d, make l s e c = .ok d) ↔ Fits l s c := by
  constructor
  · rintro ⟨d, h⟩
    obtain ⟨aircraft, haircraft, h⟩ := bind_eq_ok_iff.1 h
    obtain ⟨runway, hrunway, h⟩ := bind_eq_ok_iff.1 h
    obtain ⟨heading, hheading, h⟩ := bind_eq_ok_iff.1 h
    obtain ⟨spelled, hspelled, h⟩ := bind_eq_ok_iff.1 h
    obtain ⟨shorthand, hshorthand, -⟩ := bind_eq_ok_iff.1 h
    obtain ⟨rfl, haircraft⟩ := (NumberPhrase.make_eq_ok_iff hc).1 haircraft
    obtain ⟨rfl, hrunway⟩ := (NumberPhrase.make_eq_ok_iff (by decide)).1 hrunway
    obtain ⟨rfl, hheading⟩ := (NumberPhrase.make_eq_ok_iff le_rfl).1 hheading
    obtain ⟨rfl, hspelled⟩ := (NumberPhrase.make_eq_ok_iff le_rfl).1 hspelled
    obtain ⟨rfl, hshorthand⟩ := Shorthand.make_eq_ok_iff.1 hshorthand
    refine ⟨?_, hshorthand⟩
    simpa [numberPhrases] using ⟨haircraft, hrunway, hheading, hspelled⟩
  · rintro ⟨hnumbers, hshorthand⟩
    simp only [numberPhrases, List.forall_mem_cons] at hnumbers
    obtain ⟨haircraft, hrunway, hheading, hspelled, -⟩ := hnumbers
    exact ⟨_, bind_eq_ok_iff.2 ⟨_, (NumberPhrase.make_eq_ok_iff hc).2 ⟨rfl, haircraft⟩,
      bind_eq_ok_iff.2 ⟨_, (NumberPhrase.make_eq_ok_iff (by decide)).2 ⟨rfl, hrunway⟩,
        bind_eq_ok_iff.2 ⟨_, (NumberPhrase.make_eq_ok_iff le_rfl).2 ⟨rfl, hheading⟩,
          bind_eq_ok_iff.2 ⟨_, (NumberPhrase.make_eq_ok_iff le_rfl).2 ⟨rfl, hspelled⟩,
            bind_eq_ok_iff.2 ⟨_, Shorthand.make_eq_ok_iff.2 ⟨rfl, hshorthand⟩, rfl⟩⟩⟩⟩⟩⟩

def delta : Source := ⟨[⟨"Delta", "DLT"⟩], [], [], List.nodup_nil, List.nodup_nil⟩

def deltaElements : Elements := .procedural .english delta .standard

theorem build_deltaElements : Elements.build .english delta .standard = .ok deltaElements := rfl

def digitsRegex (l : Lexicon) : Regex :=
  .choice (Regex.ofWords (Text.alternativesOrEmpty (l.digits.map DigitWord.word)))

private theorem english_digits_small : boundFits ((digitsRegex .english).expr true) := by
  decide +kernel

/-- The digits of a heading can be looked for in English. -/
theorem make_heading_english : NumberPhrase.make .english none 3 3 none =
    .ok ⟨Lexicon.english.script, Lexicon.english.digits, none, 3, 3, none⟩ :=
  NumberPhrase.make_eq_ok (by decide) (by decide) english_digits_small (by decide +kernel)

/-- Where all that is looked for is small enough, there is a decoder. -/
theorem exists_make_of_small {l : Lexicon} {s : Source} {c : Config}
    (hc : c.flightDigits ≤ c.flightMaxDigits) (hcount : c.flightMaxDigits ≤ Repetition.countLimit)
    (hdigits : boundFits ((digitsRegex l).expr true))
    (haircraft : boundFits ((aircraftPhrase l s c).regex.expr true))
    (hothers : ∀ p ∈ (numberPhrases l s c).tail, boundFits (p.regex.expr true))
    (hshorthand : boundFits (Shorthand.mk l s.airlines).regex.expr) (e : Elements) :
    ∃ d, make l s e c = .ok d := by
  refine (exists_make_iff hc).2 ⟨fun p hp => ?_, Shorthand.fits_of_small hshorthand⟩
  have hwords : p.digits = l.digits ∧ p.max ≤ Repetition.countLimit := by
    simp only [numberPhrases, List.mem_cons, List.not_mem_nil, or_false] at hp
    rcases hp with rfl | rfl | rfl | rfl
    · exact ⟨rfl, hcount⟩
    · exact ⟨rfl, (by decide : 2 ≤ Repetition.countLimit)⟩
    · exact ⟨rfl, (by decide : 3 ≤ Repetition.countLimit)⟩
    · exact ⟨rfl, (by decide : 2 ≤ Repetition.countLimit)⟩
  have hregex : p.digitRegex = digitsRegex l := by
    rw [NumberPhrase.digitRegex, NumberPhrase.words, hwords.1, digitsRegex]
  have hsmall : boundFits (p.regex.expr true) := by
    rcases List.mem_cons.1 hp with rfl | hp
    · exact haircraft
    · exact hothers p hp
  exact NumberPhrase.fits_of_small hwords.2 (hregex ▸ hdigits) hsmall

private theorem english_others_small :
    ∀ p ∈ (numberPhrases .english .empty .standard).tail, boundFits (p.regex.expr true) := by
  simp only [numberPhrases, List.tail_cons, List.forall_mem_cons]
  exact ⟨by decide +kernel, by decide +kernel, by decide +kernel, by simp⟩

private theorem mandarin_others_small :
    ∀ p ∈ (numberPhrases .mandarin .empty .standard).tail, boundFits (p.regex.expr true) := by
  simp only [numberPhrases, List.tail_cons, List.forall_mem_cons]
  exact ⟨by decide +kernel, by decide +kernel, by decide +kernel, by simp⟩

/-- In English the names of the airlines decide whether there is a decoder. -/
theorem exists_make_english {s : Source}
    (haircraft : boundFits ((aircraftPhrase .english s .standard).regex.expr true))
    (hshorthand : boundFits (Shorthand.mk .english s.airlines).regex.expr) (e : Elements) :
    ∃ d, make .english s e .standard = .ok d :=
  exists_make_of_small (by decide) (by decide) english_digits_small haircraft english_others_small
    hshorthand e

/-- So they do in Mandarin. -/
theorem exists_make_mandarin {s : Source}
    (haircraft : boundFits ((aircraftPhrase .mandarin s .standard).regex.expr true))
    (hshorthand : boundFits (Shorthand.mk .mandarin s.airlines).regex.expr) (e : Elements) :
    ∃ d, make .mandarin s e .standard = .ok d :=
  exists_make_of_small (by decide) (by decide) (by decide +kernel) haircraft mandarin_others_small
    hshorthand e

/-- The decoder of a source with a single airline is small enough in English. -/
theorem exists_make_delta (e : Elements) : ∃ d, make .english delta e .standard = .ok d :=
  exists_make_english (by decide +kernel) (by decide +kernel) e

end Decoder

end Phraseology
