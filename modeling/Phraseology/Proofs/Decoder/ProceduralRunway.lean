import Phraseology.Proofs.Decoder.Call
import Phraseology.Proofs.Decoder.Runways
import Phraseology.Proofs.Recognizer

/-! What is spoken from a template with a runway that is not listed is decoded to the digits and the
side of the runway, unless the words behind it go on like a runway or the words before it look like
one. -/
namespace Phraseology

open Text

namespace Decoder

variable {s : Source} {e : Elements} {c : Config} {d : Decoder} {kind : ResultKind} {text : String}

/-- What is looked for in English to find a runway that is not listed. -/
abbrev runwayPhrase : NumberPhrase :=
  ⟨.spaced, Lexicon.english.digits, some [⟨"Runway", ""⟩], 1, 2, some Lexicon.english.directions⟩

theorem plainWord_runway : PlainWord "Runway".toList := by
  have h : ("Runway".toList.all isWordChar) = true := by decide +kernel
  exact ⟨by decide, List.all_eq_true.1 h⟩

theorem plain_runwayPhrase : runwayPhrase.Plain where
  script_eq := rfl
  digits_ne := by decide
  digits := plainWord_of_english
  leading := by
    rintro spellings ⟨⟩ x hx
    obtain rfl := List.mem_singleton.1 hx
    exact plainWord_runway
  min_pos := by decide
  min_le := by decide

theorem Made.runway_of_said (hmade : d.Made .english s e c) (hmode : e.runwayMode = .procedural)
    (hdecode : ¬ (kind = .rejected ∨ isBlankText text)) {leading side : Option String}
    {digits : String}
    (h : (runwayPhrase.first? text).map NumberPhrase.Match.said = some (leading, digits, side))
    (grammarName : String) :
    (d.decode kind grammarName text).runway = digits ++ side.getD "" := by
  obtain ⟨m, hm, hsaid⟩ := Option.map_eq_some_iff.1 h
  obtain ⟨-, hrest⟩ := Prod.mk.inj hsaid
  obtain ⟨rfl, rfl⟩ := Prod.mk.inj hrest
  have hnone : d.runwaySpellings = [] := by
    rw [hmade.runwaySpellings_eq, hmode]
    rfl
  have hphrase : d.runway = runwayPhrase := hmade.runway_eq
  have hrunway : d.runwayOf? text = some (m.digits ++ m.trailing.getD "") := by
    rw [runwayOf?, hnone, hphrase, hm]
    rfl
  rw [decode, if_neg hdecode]
  simp [hrunway]

/-- A side follows the digits, or else the words behind them. -/
abbrev wordsBehindDigits (side : Option Spelling) (after : List String) : List String :=
  side.toList.map Spelling.spoken ++ after

/-- The digits and the word behind them are those of the runway, if none begins before it. -/
theorem first?_runwayPhrase {before behind : List String} {ds : List DigitWord}
    (hds : ∀ d ∈ ds, d ∈ Lexicon.english.digits) (hpos : 1 ≤ ds.length) (hle : ds.length ≤ 2)
    (hpasses : runwayPhrase.Passes (spacedItems before)
      (spacedItems ("Runway" :: digitWords ds ++ behind)))
    (hstop : ds.length = 2 ∨ runwayPhrase.Stops (spacedItems behind)) :
    (runwayPhrase.first? (spokenText (before ++ ("Runway" :: digitWords ds ++ behind)))).map
        NumberPhrase.Match.said =
      some (some "", spokenDigits ds, NumberPhrase.codeOf? (some Lexicon.english.directions)
        (runwayPhrase.takeTrailing ((spacedItems behind).dropWhile Item.isBlank)).1) := by
  have hlength : (digitWords ds).length = ds.length := length_digitWords _
  have hwords : runwayPhrase.DigitWords (digitWords ds) := digitWords_english rfl hds
  have hcode : NumberPhrase.codeOf? runwayPhrase.leading (some "Runway".toList) = some "" := by
    decide +kernel
  rw [spacedItems_append] at hpasses
  have hhead := hwords.head?_numbers rfl plainWord_runway ⟨_, List.mem_singleton_self _, rfl⟩
    hcode (by rw [← List.length_pos_iff]; omega) (hlength ▸ hpos) (hlength ▸ hle)
    (hstop.imp_left hlength.trans) hpasses
  rw [NumberPhrase.said_first? plain_runwayPhrase, ← NumberPhrase.numbers_other ' ',
    items_spokenText (by simp), hhead, values_english rfl hds]

/-- The word of the side is the one that follows the digits, and if there is none, none is taken for
it. -/
theorem codeOf?_side {side : Option Spelling} {after : List String}
    (hside : ∀ x ∈ side, x ∈ Lexicon.english.directions)
    (hnext : side = none → ∀ r, NumberPhrase.Next (spacedItems after) r →
      Lexicon.english.directionCode? (String.ofList r) = none) :
    NumberPhrase.codeOf? (some Lexicon.english.directions) (runwayPhrase.takeTrailing
      ((spacedItems (wordsBehindDigits side after)).dropWhile Item.isBlank)).1 =
        side.map Spelling.code := by
  cases side with
  | none =>
    have hbehind : wordsBehindDigits none after = after := rfl
    rw [hbehind]
    match hdrop : (spacedItems after).dropWhile Item.isBlank with
    | [] | .other _ :: _ => rfl
    | .run r :: js =>
      change NumberPhrase.codeOf? (some Lexicon.english.directions) (some r) = none
      rw [NumberPhrase.codeOf?_some]
      exact hnext rfl r ⟨js, hdrop⟩
  | some x =>
    have hx : x ∈ Lexicon.english.directions := hside x rfl
    have hplain : PlainWord x.spoken.toList :=
      Lexicon.plainWord_of_english_vocabulary _ (Lexicon.direction_mem_vocabulary hx)
    have hcode : ∀ x ∈ Lexicon.english.directions,
        Spelling.codeFor? Lexicon.english.directions x.spoken = some x.code := by decide +kernel
    have hbehind : wordsBehindDigits (some x) after = x.spoken :: after := rfl
    have htake : (runwayPhrase.takeTrailing (.run x.spoken.toList :: spacedItems after)).1 =
        some x.spoken.toList := rfl
    rw [hbehind, spacedItems_cons, NumberPhrase.items_plain hplain, List.singleton_append,
      List.dropWhile_cons_of_pos (by decide), List.dropWhile_cons_of_neg (by simp [Item.isBlank]),
      htake, NumberPhrase.codeOf?_some, String.ofList_toList, hcode x hx]
    rfl

/-- No side is a digit word, so the digits end before it. -/
theorem stops_side {side : Option Spelling} {after : List String}
    (hside : ∀ x ∈ side, x ∈ Lexicon.english.directions)
    (hnext : side = none → ∀ r, NumberPhrase.Next (spacedItems after) r →
      ∀ d ∈ Lexicon.english.digits, ¬ Alike d.word.toList r) :
    runwayPhrase.Stops (spacedItems (wordsBehindDigits side after)) := by
  refine NumberPhrase.stops_of_next fun r hr => ?_
  rw [← Bool.not_eq_true, NumberPhrase.isDigitWord_eq_true_iff]
  rintro ⟨d, hd, hdr⟩
  cases side with
  | none => exact hnext rfl r hr d hd hdr
  | some x =>
    have hx : x ∈ Lexicon.english.directions := hside x rfl
    have hplain : PlainWord x.spoken.toList :=
      Lexicon.plainWord_of_english_vocabulary _ (Lexicon.direction_mem_vocabulary hx)
    have hnot : ∀ x ∈ Lexicon.english.directions, ∀ d ∈ Lexicon.english.digits,
        ¬ Alike d.word.toList x.spoken.toList := by decide +kernel
    have hbehind : wordsBehindDigits (some x) after = x.spoken :: after := rfl
    rw [hbehind, ← List.append_nil (spacedItems _)] at hr
    have hmem := NumberPhrase.mem_items_of_next hplain.unbroken hr
    rw [NumberPhrase.items_plain hplain, List.mem_singleton] at hmem
    obtain rfl := Item.run.inj hmem
    exact hnot x hx d hd hdr

end Decoder

/-- What is spoken from a template with a runway that is not listed. -/
structure RunwayCall (e : Elements) (template : String) extends Call e .runway template where
  digits : List DigitWord
  digits_mem : ∀ d ∈ digits, d ∈ Lexicon.english.digits
  digits_pos : 1 ≤ digits.length
  digits_le : digits.length ≤ 2
  side : Option Spelling
  side_mem : ∀ x ∈ side, x ∈ Lexicon.english.directions

namespace RunwayCall

variable {s : Source} {c : Config} {e : Elements} {template : String}

/-- The side, if there is one, and the words behind the element. -/
def wordsBehind (h : RunwayCall e template) : List String :=
  h.side.toList.map Spelling.spoken ++ h.wordsAfter

def wordsFrom (h : RunwayCall e template) : List String :=
  "Runway" :: digitWords h.digits ++ h.wordsBehind

def words (h : RunwayCall e template) : List String := h.wordsBefore ++ h.wordsFrom

/-- Before the element the keyword nowhere stands right before a digit word. -/
def First (h : RunwayCall e template) : Prop :=
  Foremost [⟨"Runway", ""⟩] Lexicon.english.digits 1 h.wordsBefore h.wordsFrom

/-- Without a side, the next word is not one, nor another digit. -/
def Ends (h : RunwayCall e template) : Prop :=
  h.side = none → ∀ r, NumberPhrase.Next (spacedItems h.wordsAfter) r →
    Lexicon.english.directionCode? (String.ofList r) = none ∧
      (h.digits.length = 1 → ∀ d ∈ Lexicon.english.digits, ¬ Alike d.word.toList r)

/-- The words that a grammar is spoken with are those of its calls. -/
theorem spoken_iff (helements : e.Built .english s c) (hmode : e.runwayMode = .procedural)
    {locale : String} {cat : Category} {index : Nat} {ws : List String}
    (hmem : .element .runway ∈ Template.tokens template) :
    (Grammar.compile e locale cat template index).phrase.Spoken ws ↔
      ∃ h : RunwayCall e template, h.words = ws := by
  have hkeyword : Text.words Lexicon.english.runwayKeyword = ["Runway"] :=
    words_of_unbroken Decoder.plainWord_runway.unbroken
  have hside : ∀ side : Option Spelling, (∀ x ∈ side, x ∈ Lexicon.english.directions) →
      side.toList.flatMap (Text.words ·.spoken) = side.toList.map Spelling.spoken := by
    rintro (_ | x) hx
    · rfl
    · have hplain : PlainWord x.spoken.toList :=
        Lexicon.plainWord_of_english_vocabulary _ (Lexicon.direction_mem_vocabulary (hx x rfl))
      simpa using words_of_unbroken hplain.unbroken
  rw [Call.spoken_iff hmem]
  change (∃ (call : Call e .runway template) (vs : List String), e.runway.Spoken vs ∧ _) ↔ _
  rw [helements.runway_eq, hmode]
  constructor
  · rintro ⟨call, vs, hvs, rfl⟩
    obtain ⟨ds, side, hds, hx, rfl, hpos, hle⟩ := (Elements.uttered_runway_iff words_of_english).1 hvs
    refine ⟨⟨call, ds, hds, hpos, hle, side, hx⟩, ?_⟩
    rw [hkeyword, hside side hx]
    simp [words, wordsFrom, wordsBehind]
  · rintro ⟨h, rfl⟩
    refine ⟨h.toCall, "Runway" :: (digitWords h.digits ++ h.side.toList.map Spelling.spoken), ?_,
      ?_⟩
    · refine (Elements.uttered_runway_iff words_of_english).2
        ⟨h.digits, h.side, h.digits_mem, h.side_mem, ?_, h.digits_pos, h.digits_le⟩
      rw [hkeyword, hside h.side h.side_mem]
      rfl
    · simp [words, wordsFrom, wordsBehind]

theorem first?_runway (h : RunwayCall e template) (hfirst : h.First)
    (hstop : h.digits.length = 2 ∨ Decoder.runwayPhrase.Stops (spacedItems h.wordsBehind)) :
    (Decoder.runwayPhrase.first? (spokenText h.words)).map NumberPhrase.Match.said =
      some (some "", spokenDigits h.digits,
        NumberPhrase.codeOf? (some Lexicon.english.directions) (Decoder.runwayPhrase.takeTrailing
          ((spacedItems h.wordsBehind).dropWhile Item.isBlank)).1) :=
  Decoder.first?_runwayPhrase h.digits_mem h.digits_pos h.digits_le
    (NumberPhrase.passes_of_foremost rfl hfirst) hstop

theorem side_of_ends (h : RunwayCall e template) (hends : h.Ends) :
    NumberPhrase.codeOf? (some Lexicon.english.directions) (Decoder.runwayPhrase.takeTrailing
      ((spacedItems h.wordsBehind).dropWhile Item.isBlank)).1 = h.side.map Spelling.code :=
  Decoder.codeOf?_side h.side_mem fun hside r hr => (hends hside r hr).1

theorem stops_of_ends (h : RunwayCall e template) (hends : h.Ends) :
    h.digits.length = 2 ∨ Decoder.runwayPhrase.Stops (spacedItems h.wordsBehind) := by
  by_cases hlength : h.digits.length = 2
  · exact .inl hlength
  · have hone : h.digits.length = 1 := by
      have := h.digits_pos
      have := h.digits_le
      omega
    exact .inr (Decoder.stops_side h.side_mem fun hside r hr => (hends hside r hr).2 hone)

theorem not_isBlankText (h : RunwayCall e template) : isBlankText (spokenText h.words) = false :=
  isBlankText_join (w := "Runway") (by simp [words, wordsFrom]) Decoder.plainWord_runway.unbroken

/-- A text that is spoken from a template with a runway is decoded to the digits and the side that
were spoken for it, if no runways are listed, unless the next word is taken for a side or another
digit, or the keyword stands right before a digit word earlier. -/
theorem runway_of_call (hbuild : Elements.build .english s c = .ok e) (hrunways : s.runways = [])
    (hmem : .element .runway ∈ Template.tokens template) (locale : String) (cat : Category)
    (index : Nat) {d : Decoder} (hmake : Decoder.make .english s e c = .ok d) (kind : ResultKind)
    (hkind : kind ≠ .rejected) :
    (∀ ws, (Grammar.compile e locale cat template index).phrase.Spoken ws ↔
        ∃ h : RunwayCall e template, h.words = ws) ∧
      ∀ h : RunwayCall e template, h.First → h.Ends →
        (d.decode kind (Grammar.nameOf cat index) (spokenText h.words)).runway =
          spokenDigits h.digits ++ (h.side.map Spelling.code).getD "" := by
  have helements := Elements.built_of_build hbuild
  have hmode : e.runwayMode = .procedural := by
    have hmode := helements.mode
    rw [Elements.modeOf, if_pos (by simp [hrunways])] at hmode
    exact (Except.ok.inj hmode).symm
  refine ⟨fun ws => spoken_iff helements hmode hmem, fun h hfirst hends => ?_⟩
  have hsaid := h.first?_runway hfirst (h.stops_of_ends hends)
  rw [h.side_of_ends hends] at hsaid
  have hdecode : ¬ (kind = .rejected ∨ isBlankText (spokenText h.words) = true) := by
    rw [h.not_isBlankText]
    simpa using hkind
  exact (Decoder.made_of_make hmake).runway_of_said hmode hdecode hsaid _

def cleared : RunwayCall Decoder.deltaElements
    "\x7bAircraft\x7d \x7bRunway\x7d cleared for takeoff" where
  before := [.element .aircraft]
  after := [.literal "cleared for takeoff"]
  tokens_eq := by cbv
  wordsBefore := ["Delta", "one", "two", "three"]
  wordsAfter := ["cleared", "for", "takeoff"]
  spoken_before := .cons (.element Decoder.spoken_delta) .nil
  spoken_after := .cons (.text "cleared for takeoff") .nil
  digits := [⟨"two", 2⟩, ⟨"seven", 7⟩]
  digits_mem := by decide
  digits_pos := by decide
  digits_le := by decide
  side := none
  side_mem := by simp

theorem runway_of_cleared :
    spokenText cleared.words = "Delta one two three Runway two seven cleared for takeoff" ∧
      ∃ d, Decoder.make .english Decoder.delta Decoder.deltaElements .standard = .ok d ∧
        (d.decode .recognized "ATO0" (spokenText cleared.words)).runway = "27" := by
  obtain ⟨d, hd⟩ := Decoder.exists_make_delta Decoder.deltaElements
  have hlacks : ∀ w ∈ cleared.wordsBefore, Template.Lacks (IsSpelling [⟨"Runway", ""⟩]) w := by
    decide +kernel
  have hends : cleared.Ends := by
    rintro - r hr
    have hitems : items "cleared".toList = [.run "cleared".toList] := by decide +kernel
    rw [← List.append_nil (spacedItems _)] at hr
    have hunbroken : Unbroken "cleared".toList :=
      cleared.spoken_after.unbroken "cleared" (by simp [cleared])
    have hmem : .run r ∈ items "cleared".toList := NumberPhrase.mem_items_of_next hunbroken hr
    rw [hitems, List.mem_singleton] at hmem
    obtain rfl := Item.run.inj hmem
    exact ⟨by decide +kernel, by decide⟩
  have hmem : .element .runway ∈
      Template.tokens "\x7bAircraft\x7d \x7bRunway\x7d cleared for takeoff" := by
    rw [cleared.tokens_eq]
    simp [cleared]
  exact ⟨by decide +kernel, d, hd, (runway_of_call Decoder.build_deltaElements rfl hmem "en-US"
    .takeoff 0 hd .recognized (by decide)).2 cleared (foremost_of_lacks hlacks) hends⟩

/-- A call without a side, and with words behind the runway of which the first is a direction. -/
def leftTurn : RunwayCall Decoder.deltaElements
    "\x7bAircraft\x7d cleared for takeoff \x7bRunway\x7d left turn approved" :=
  { cleared with
    before := [.element .aircraft, .literal "cleared for takeoff"]
    after := [.literal "left turn approved"]
    tokens_eq := by cbv
    wordsBefore := ["Delta", "one", "two", "three", "cleared", "for", "takeoff"]
    wordsAfter := ["left", "turn", "approved"]
    spoken_before :=
      .cons (.element Decoder.spoken_delta) (.cons (.text "cleared for takeoff") .nil)
    spoken_after := .cons (.text "left turn approved") .nil }

/-- The direction of the turn is taken for the side of the runway. -/
theorem runway_of_leftTurn :
    Category.takeoff.accepts
        "\x7bAircraft\x7d cleared for takeoff \x7bRunway\x7d left turn approved" = true ∧
      leftTurn.side = none ∧ spokenText leftTurn.words =
        "Delta one two three cleared for takeoff Runway two seven left turn approved" ∧
      ∃ d, Decoder.make .english Decoder.delta Decoder.deltaElements .standard = .ok d ∧
        (d.decode .recognized "ATO0" (spokenText leftTurn.words)).runway = "27L" := by
  obtain ⟨d, hd⟩ := Decoder.exists_make_delta Decoder.deltaElements
  have hlacks : ∀ w ∈ leftTurn.wordsBefore, Template.Lacks (IsSpelling [⟨"Runway", ""⟩]) w := by
    decide +kernel
  have hsaid := leftTurn.first?_runway (foremost_of_lacks hlacks) (.inl rfl)
  have hside : NumberPhrase.codeOf? (some Lexicon.english.directions)
      (Decoder.runwayPhrase.takeTrailing
        ((spacedItems leftTurn.wordsBehind).dropWhile Item.isBlank)).1 = some "L" := by
    decide +kernel
  rw [hside] at hsaid
  refine ⟨by decide +kernel, rfl, by decide +kernel, d, hd, ?_⟩
  exact (Decoder.made_of_make hd).runway_of_said rfl
    (by simp [leftTurn.not_isBlankText]) hsaid "ATO0"

end RunwayCall

end Phraseology
