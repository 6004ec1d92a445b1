import Phraseology.Proofs.Decoder.SpelledWaypoint
import Phraseology.Proofs.Shorthand.Words
import Phraseology.Proofs.Text.Ascii

/-! The code that is shown for an airline and the one that is decoded: they are looked up in two
ways, which agree unless names differ in the case of a letter that is not ASCII. -/
namespace Phraseology

open Text

/-- The code that a flight of English digits is decoded with: the name has to be met in the text, up
to case folding, and then the first name with the same lowercase counts. -/
def Airline.heardCode? (airlines : List Airline) (word : String) : Option String :=
  if ∃ a ∈ airlines, Alike a.name.toList word.toList then
    (airlines.find? fun a => lowercase a.name == lowercase word).map Airline.code
  else none

variable {airlines : List Airline} {w : String} {vs : List String} {values : List Nat}

theorem codeFor?_airlineSpellings_eq (airlines : List Airline) (w : String) :
    Spelling.codeFor? (Decoder.airlineSpellings airlines) w =
      (airlines.find? fun a => lowercase a.name == lowercase w).map Airline.code := by
  rw [Spelling.codeFor?, Decoder.airlineSpellings, List.find?_map, Option.map_map]
  rfl

/-- Where lowercase tells names apart no less than the case of ASCII letters does, the code that is
decoded is the one that is looked up without regard to that case. -/
theorem Airline.heardCode?_eq
    (h : ∀ a ∈ airlines, lowercase a.name = lowercase w → sameIgnoringAsciiCase a.name w = true) :
    heardCode? airlines w = codeFor? airlines w := by
  have hsame : ∀ a ∈ airlines, (lowercase a.name == lowercase w) =
      sameIgnoringAsciiCase a.name w := by
    intro a ha
    rw [Bool.eq_iff_iff, beq_iff_eq]
    exact ⟨h a ha, lowercase_eq_of_sameIgnoringAsciiCase⟩
  rw [heardCode?, ← codeFor?_airlineSpellings_eq, codeFor?_airlineSpellings_of_same hsame]
  split_ifs with hmet
  · rfl
  · -- A name that differs in the case of ASCII letters only would be met.
    refine (Option.map_eq_none_iff.2 (List.find?_eq_none.2 fun a ha hname => hmet ?_)).symm
    exact ⟨a, ha, alike_of_sameIgnoringAsciiCase hname⟩

theorem letterWord_english : ∀ d ∈ Lexicon.english.digits, LetterWord d.word := by decide +kernel

theorem alike_of_digitValue? {v : String} {value : Nat}
    (h : Lexicon.english.digitValue? v = some value) :
    ∃ d ∈ Lexicon.english.digits, Alike d.word.toList v.toList := by
  obtain ⟨d, hfind, -⟩ := Option.map_eq_some_iff.1 h
  have hd := List.mem_of_find?_eq_some hfind
  have hsame := List.find?_some hfind
  have hlower : lowercase d.word = lowercase v := beq_iff_eq.1 hsame
  exact ⟨d, hd, (letterWord_english d hd).alike_of_lowerChars (String.ofList_injective hlower)⟩

theorem digitWords_of_values {p : NumberPhrase} (hp : p.digits = Lexicon.english.digits)
    (hvs : vs.map Lexicon.english.digitValue? = values.map some) : p.DigitWords vs := by
  have halike : ∀ v ∈ vs, ∃ d ∈ Lexicon.english.digits, Alike d.word.toList v.toList := by
    intro v hv
    obtain ⟨value, -, hvalue⟩ := List.mem_map.1 (hvs ▸ List.mem_map_of_mem hv)
    exact alike_of_digitValue? hvalue.symm
  constructor
  · intro v hv
    obtain ⟨d, hd, hdv⟩ := halike v hv
    exact (letterWord_english d hd).plain.of_alike hdv
  · intro v hv
    rw [NumberPhrase.isDigitWord_eq_true_iff, hp]
    exact halike v hv

theorem values_of_map {p : NumberPhrase} (hp : p.digits = Lexicon.english.digits)
    (hvs : vs.map Lexicon.english.digitValue? = values.map some) :
    p.values (vs.map String.toList) = values.map numeral := by
  have hvalue : ∀ v : String, p.digitValue? v.toList = Lexicon.english.digitValue? v :=
    NumberPhrase.digitValue?_toList hp
  have hmap : (vs.map String.toList).map p.digitValue? = values.map some := by
    rw [List.map_map, ← hvs]
    exact List.map_congr_left fun v _ => hvalue v
  change (vs.map String.toList).filterMap (Option.map numeral ∘ p.digitValue?) = _
  rw [← List.filterMap_map, hmap, List.filterMap_map]
  exact congrFun List.filterMap_eq_map values

/-- An airline's code, or the word itself, and the number behind it. -/
theorem Shorthand.write_flight (hnames : ∀ a ∈ airlines, PlainWord a.name.toList)
    (hw : PlainWord w.toList) (hvalue : Lexicon.english.digitValue? w = none)
    (hvs : vs.map Lexicon.english.digitValue? = values.map some) (hne : vs ≠ []) :
    (Shorthand.mk .english airlines).write (" ".intercalate (w :: vs)) =
      (Airline.codeFor? airlines w).getD w ++ " " ++ String.ofList (values.map numeral) := by
  have hplain : ∀ v ∈ w :: vs, PlainWord v.toList := by
    have hdigits : (Decoder.headingPhrase .english).DigitWords vs := digitWords_of_values rfl hvs
    exact List.forall_mem_cons.2 ⟨hw, hdigits.plain⟩
  have hknown : ∀ v ∈ (Shorthand.mk .english airlines).known, PlainWord v :=
    plain_of_mem_known hnames plainWord_of_english fun x hx =>
      Lexicon.plainWord_of_english_vocabulary _ (Lexicon.direction_mem_vocabulary hx)
  have hvalues : values ≠ [] := by
    rintro rfl
    exact hne (by simpa using hvs)
  have hnumber : (Shorthand.mk .english airlines).piecesAfter [] (vs ++ []) =
      [String.ofList (values.map numeral)] := by
    rw [piecesAfter_values hvs]
    simp [piecesAfter, hvalues]
  have hpieces : (Shorthand.mk .english airlines).piecesAfter [] (w :: vs) =
      [(Airline.codeFor? airlines w).getD w, String.ofList (values.map numeral)] := by
    rw [List.append_nil] at hnumber
    simp only [piecesAfter, hvalue, hnumber]
    rfl
  rw [write, tokens_intercalate rfl hknown hplain, hpieces]
  simp [assemble, Lexicon.english]

namespace Decoder

variable {s : Source} {e : Elements} {d : Decoder} {kind : ResultKind}

theorem said_flight (hnames : ∀ a ∈ s.airlines, PlainWord a.name.toList) (hw : PlainWord w.toList)
    (hvs : vs.map Lexicon.english.digitValue? = values.map some) (hlength : vs.length = 3) :
    ((aircraftPhrase .english s .standard).first? (" ".intercalate (w :: vs))).map
        NumberPhrase.Match.said =
      (Airline.heardCode? s.airlines w).map fun code =>
        (some code, String.ofList (values.map numeral), none) := by
  have hplain : (aircraftPhrase .english s .standard).Plain :=
    plain_aircraftPhrase (by decide) hnames
  have hdigits : (aircraftPhrase .english s .standard).DigitWords vs :=
    digitWords_of_values rfl hvs
  have hnumerals : (aircraftPhrase .english s .standard).values (vs.map String.toList) =
      values.map numeral := values_of_map rfl hvs
  rw [NumberPhrase.said_first? hplain, ← NumberPhrase.numbers_other ' ', items_join (by simp),
    spacedItems_cons, NumberPhrase.items_plain hw, NumberPhrase.numbers_other,
    List.singleton_append]
  by_cases hmet : ∃ a ∈ s.airlines, Alike a.name.toList w.toList
  · have hspelling : ∃ x ∈ airlineSpellings s.airlines, Alike x.spoken.toList w.toList := by
      obtain ⟨a, ha, haw⟩ := hmet
      exact ⟨_, List.mem_map_of_mem ha, haw⟩
    have hfound : (aircraftPhrase .english s .standard).foundAt?
        (.run w.toList :: (spacedItems vs ++ [])) =
          some ⟨some w.toList, vs.map String.toList, none, []⟩ :=
      hdigits.foundAt?_leading rfl hspelling (List.ne_nil_of_length_pos (by omega)) hlength.ge
        (hlength.trans_le (by decide : 3 ≤ 4)) (.inr NumberPhrase.stops_nil)
    rw [List.append_nil] at hfound
    rw [NumberPhrase.numbers_of_some hfound, NumberPhrase.numbers_nil, List.append_nil, Airline.heardCode?,
      if_pos hmet, ← codeFor?_airlineSpellings_eq]
    simp only [NumberPhrase.Found.match?, NumberPhrase.codeOf?_some, String.ofList_toList,
      hnumerals]
    cases Spelling.codeFor? (airlineSpellings s.airlines) w <;> rfl
  · have hnone : (aircraftPhrase .english s .standard).Skips w.toList := by
      refine NumberPhrase.skips_of_leading rfl fun x hx hxw => ?_
      obtain ⟨a, ha, rfl⟩ := List.mem_map.1 hx
      exact hmet ⟨a, ha, hxw⟩
    have hunled : (aircraftPhrase .english s .standard).numbers (spacedItems vs ++ []) = _ :=
      hdigits.numbers_unled rfl hlength.le (by decide : 3 ≤ 4) NumberPhrase.stops_nil
    rw [List.append_nil, NumberPhrase.numbers_nil] at hunled
    rw [NumberPhrase.numbers_of_none (hnone _), hunled, Airline.heardCode?, if_neg hmet]
    rfl

theorem Made.aircraft_flight (hmade : d.Made .english s e .standard)
    (hnames : ∀ a ∈ s.airlines, PlainWord a.name.toList) (hw : PlainWord w.toList)
    (hvs : vs.map Lexicon.english.digitValue? = values.map some) (hlength : vs.length = 3)
    (hkind : kind ≠ .rejected) (grammarName : String) :
    (d.decode kind grammarName (" ".intercalate (w :: vs))).aircraft =
      ((Airline.heardCode? s.airlines w).map
        (· ++ " " ++ String.ofList (values.map numeral))).getD "" := by
  have hblank : isBlankText (" ".intercalate (w :: vs)) = false :=
    isBlankText_join List.mem_cons_self hw.unbroken
  rw [decode, if_neg (by simp [hkind, hblank])]
  simp only [hmade.aircraftOf?_said rfl, said_flight hnames hw hvs hlength]
  cases Airline.heardCode? s.airlines w <;> rfl

theorem normalizedMessage_flight (hmake : make .english s e .standard = .ok d)
    (hnames : ∀ a ∈ s.airlines, PlainWord a.name.toList) (hw : PlainWord w.toList)
    (hvalue : Lexicon.english.digitValue? w = none)
    (hvs : vs.map Lexicon.english.digitValue? = values.map some) (hne : vs ≠ [])
    (hkind : kind ≠ .rejected) (grammarName : String) :
    (d.decode kind grammarName (" ".intercalate (w :: vs))).normalizedMessage =
      (Airline.codeFor? s.airlines w).getD w ++ " " ++ String.ofList (values.map numeral) := by
  have hblank : isBlankText (" ".intercalate (w :: vs)) = false :=
    isBlankText_join List.mem_cons_self hw.unbroken
  rw [decode, if_neg (by simp [hkind, hblank]), shorthand_of_make hmake]
  exact Shorthand.write_flight hnames hw hvalue hvs hne

/-- Unless a limit stands in the way there is a decoder. Of a word that is no digit and three digit
words it shows the code of the airline that the word is up to the case of ASCII letters, and decodes
the code of the one that it is up to the case of any letters. Where no airline is that word in
another case than that of ASCII letters, the aircraft is what is shown, or there is none and the
word is shown as it is. -/
theorem decode_flight (s : Source) (e : Elements)
    (hnames : ∀ a ∈ s.airlines, PlainWord a.name.toList) :
    ((∃ d, make .english s e .standard = .ok d) ↔ Fits .english s .standard) ∧
    ∀ d, make .english s e .standard = .ok d → ∀ w : String, PlainWord w.toList →
      Lexicon.english.digitValue? w = none → ∀ (vs : List String) (i j k : Nat),
      vs.map Lexicon.english.digitValue? = [some i, some j, some k] →
      ∀ kind ≠ ResultKind.rejected, ∀ grammarName,
        let r := d.decode kind grammarName (" ".intercalate (w :: vs))
        let number := String.ofList [numeral i, numeral j, numeral k]
        r.normalizedMessage = (Airline.codeFor? s.airlines w).getD w ++ " " ++ number ∧
        r.aircraft = ((Airline.heardCode? s.airlines w).map (· ++ " " ++ number)).getD "" ∧
        ((∀ a ∈ s.airlines, lowercase a.name = lowercase w →
            sameIgnoringAsciiCase a.name w = true) →
          r.aircraft ≠ "" ∧ r.normalizedMessage = r.aircraft ∨
            r.aircraft = "" ∧ r.normalizedMessage = w ++ " " ++ number) := by
  refine ⟨exists_make_iff (by decide), ?_⟩
  intro d hmake w hw hvalue vs i j k hvs kind hkind grammarName r number
  have hvalues : vs.map Lexicon.english.digitValue? = [i, j, k].map some := hvs
  have hlength : vs.length = 3 := by simpa using congrArg List.length hvs
  have hne : vs ≠ [] := List.ne_nil_of_length_pos (by omega)
  have hshown : r.normalizedMessage = (Airline.codeFor? s.airlines w).getD w ++ " " ++ number :=
    normalizedMessage_flight hmake hnames hw hvalue hvalues hne hkind grammarName
  have hheard : r.aircraft =
      ((Airline.heardCode? s.airlines w).map (· ++ " " ++ number)).getD "" :=
    (made_of_make hmake).aircraft_flight hnames hw hvalues hlength hkind grammarName
  refine ⟨hshown, hheard, fun hcase => ?_⟩
  rw [Airline.heardCode?_eq hcase] at hheard
  cases hcode : Airline.codeFor? s.airlines w with
  | none =>
    rw [hcode] at hshown hheard
    exact .inr ⟨hheard, hshown⟩
  | some code =>
    rw [hcode] at hshown hheard
    refine .inl ⟨?_, hshown.trans hheard.symm⟩
    rw [hheard]
    simp

/-- A single airline, whose name begins with a letter that is not ASCII. -/
def elan : Source := ⟨[⟨"Élan", "ELN"⟩], [], [], List.nodup_nil, List.nodup_nil⟩

theorem exists_make_elan (e : Elements) : ∃ d, make .english elan e .standard = .ok d :=
  exists_make_english (by decide +kernel) (by decide +kernel) e

theorem plainWord_elan : ∀ a ∈ elan.airlines, PlainWord a.name.toList := by
  decide +kernel

/-- ASCII letters are shown and decoded alike in either case. -/
theorem decode_flight_elan :
    ∃ e d, Elements.build .english elan .standard = .ok e ∧
      make .english elan e .standard = .ok d ∧
      (d.decode .recognized "AGS0" "ÉLAN one TWO niner").aircraft = "ELN 129" ∧
      (d.decode .recognized "AGS0" "ÉLAN one TWO niner").normalizedMessage = "ELN 129" := by
  obtain ⟨e, he⟩ : ∃ e, Elements.build .english elan .standard = .ok e := ⟨_, rfl⟩
  obtain ⟨d, hd⟩ := exists_make_elan e
  obtain ⟨hshown, -, hagree⟩ := (decode_flight elan e plainWord_elan).2 d hd "ÉLAN"
    (by decide +kernel) (by decide +kernel) ["one", "TWO", "niner"] 1 2 9
    (by decide +kernel) .recognized (by decide) "AGS0"
  have hshown : (d.decode .recognized "AGS0" "ÉLAN one TWO niner").normalizedMessage =
      "ELN 129" := hshown.trans (by decide +kernel)
  rcases hagree (by decide +kernel) with ⟨-, hsame⟩ | ⟨-, hsame⟩
  · exact ⟨e, d, he, hd, hsame.symm.trans hshown, hshown⟩
  · exact absurd (hsame.symm.trans hshown) (by decide +kernel)

/-- The name in lowercase is decoded to the code, and is shown as it was said. -/
theorem decode_lowercase_elan :
    ∃ e d, Elements.build .english elan .standard = .ok e ∧
      make .english elan e .standard = .ok d ∧
      (d.decode .recognized "AGS0" "élan one two three").aircraft = "ELN 123" ∧
      (d.decode .recognized "AGS0" "élan one two three").normalizedMessage = "élan 123" := by
  obtain ⟨e, he⟩ : ∃ e, Elements.build .english elan .standard = .ok e := ⟨_, rfl⟩
  obtain ⟨d, hd⟩ := exists_make_elan e
  have hw : PlainWord "élan".toList := by decide +kernel
  have hvs : ["one", "two", "three"].map Lexicon.english.digitValue? = [1, 2, 3].map some := by
    decide +kernel
  have hkind : ResultKind.recognized ≠ .rejected := by decide
  have haircraft := (made_of_make hd).aircraft_flight plainWord_elan hw hvs rfl hkind "AGS0"
  have hshown := normalizedMessage_flight hd plainWord_elan hw (by decide +kernel) hvs (by simp)
    hkind "AGS0"
  exact ⟨e, d, he, hd, haircraft.trans (by decide +kernel), hshown.trans (by decide +kernel)⟩

end Decoder

end Phraseology
