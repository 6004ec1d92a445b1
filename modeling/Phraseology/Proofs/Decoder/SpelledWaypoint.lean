import Phraseology.Proofs.Decoder.Call
import Phraseology.Proofs.Recognizer

/-! What is spoken from a template with a spelled waypoint is decoded to that waypoint, unless a
word of the phonetic alphabet comes right before two digits earlier. -/
namespace Phraseology

open Text

theorem NumberPhrase.digitValue?_toList {p : NumberPhrase} {l : Lexicon} (hp : p.digits = l.digits)
    (word : String) : p.digitValue? word.toList = l.digitValue? word := by
  have hlower (d : DigitWord) : (lowerChars d.word.toList == lowerChars word.toList) =
      (lowercase d.word == lowercase word) := by
    rw [Bool.eq_iff_iff, beq_iff_eq, beq_iff_eq, lowercase, lowercase, String.ofList_inj]
  rw [digitValue?, Lexicon.digitValue?, hp]
  simp only [hlower]

/-- Each digit word of a lexicon has a value, which is that of the first word like it. -/
theorem exists_values {p : NumberPhrase} {l : Lexicon} (hp : p.digits = l.digits)
    {ds : List DigitWord} (h : ∀ d ∈ ds, d ∈ l.digits) :
    ∃ values : List Nat, ds.map (l.digitValue? ·.word) = values.map some ∧
      p.values ((digitWords ds).map String.toList) = values.map numeral := by
  induction ds with
  | nil => exact ⟨[], rfl, rfl⟩
  | cons d ds ih =>
    obtain ⟨hd, hds⟩ := List.forall_mem_cons.1 h
    obtain ⟨values, hvalues, hnumerals⟩ := ih hds
    obtain ⟨v, hv⟩ : ∃ v, l.digitValue? d.word = some v := by
      rw [← Option.isSome_iff_exists, Lexicon.digitValue?, Option.isSome_map, List.find?_isSome]
      exact ⟨d, hd, beq_self_eq_true _⟩
    refine ⟨v :: values, by rw [List.map_cons, hv, hvalues, List.map_cons], ?_⟩
    rw [NumberPhrase.values] at hnumerals ⊢
    rw [digitWords, List.map_cons, List.map_cons, List.filterMap_cons,
      NumberPhrase.digitValue?_toList hp, hv, List.map_cons, ← hnumerals]
    rfl

theorem exists_codeFor? {spellings : List Spelling} {x : Spelling} (h : x ∈ spellings) :
    ∃ code, Spelling.codeFor? spellings x.spoken = some code := by
  rw [← Option.isSome_iff_exists, Spelling.codeFor?, Option.isSome_map, List.find?_isSome]
  exact ⟨x, h, beq_self_eq_true _⟩

namespace Decoder

variable {l : Lexicon} {s : Source} {e : Elements} {c : Config} {d : Decoder} {kind : ResultKind}
  {text : String}

abbrev spelledPhrase (l : Lexicon) : NumberPhrase :=
  ⟨l.script, l.digits, some l.phonetic, 2, 2, none⟩

theorem plain_spelledPhrase (hscript : l.script = .spaced)
    (hplain : ∀ w ∈ l.vocabulary, PlainWord w.toList) (hdigits : l.digits ≠ []) :
    (spelledPhrase l).Plain where
  script_eq := hscript
  digits_ne := hdigits
  digits := fun d hd => hplain d.word (Lexicon.word_mem_vocabulary hd)
  leading := by
    rintro spellings ⟨⟩ x hx
    exact hplain x.spoken (Lexicon.phonetic_mem_vocabulary hx)
  min_pos := (by decide : 1 ≤ 2)
  min_le := le_rfl

theorem Made.waypoint_of_said (hmade : d.Made l s e c) (hscript : l.script = .spaced)
    (hdecode : ¬ (kind = .rejected ∨ isBlankText text)) {code digits : String}
    {trailing : Option String}
    (h : ((spelledPhrase l).first? text).map NumberPhrase.Match.said =
      some (some code, digits, trailing)) {grammarName : String}
    (hname : Category.ofGrammarName grammarName = .vectorToSpelledWaypoint) :
    (d.decode kind grammarName text).waypoint = code ++ digits := by
  obtain ⟨m, hm, hsaid⟩ := Option.map_eq_some_iff.1 h
  obtain ⟨hleading, hrest⟩ := Prod.mk.inj hsaid
  obtain ⟨rfl, -⟩ := Prod.mk.inj hrest
  have hwaypoint : d.spelledWaypointOf? text = some (code ++ m.digits) := by
    rw [spelledWaypointOf?, hmade.lexicon_eq, hmade.waypointSpelled_eq, hscript]
    rw [spelledPhrase, hscript] at hm
    simp [hm, hleading]
  rw [decode, if_neg hdecode, hname]
  simp [waypointOf?, hwaypoint]

end Decoder

structure SpelledCall (l : Lexicon) (e : Elements) (template : String) extends
    Call e .waypointSpelled template where
  letter : Spelling
  letter_mem : letter ∈ l.phonetic
  digits : List DigitWord
  digits_mem : ∀ d ∈ digits, d ∈ l.digits
  digits_length : digits.length = 2

namespace SpelledCall

variable {l : Lexicon} {s : Source} {c : Config} {e : Elements} {template : String}

def wordsFrom (h : SpelledCall l e template) : List String :=
  h.letter.spoken :: digitWords h.digits ++ h.wordsAfter

def words (h : SpelledCall l e template) : List String := h.wordsBefore ++ h.wordsFrom

/-- Before the element no word of the phonetic alphabet stands right before two digit words. -/
def First (h : SpelledCall l e template) : Prop :=
  Foremost l.phonetic l.digits 2 h.wordsBefore h.wordsFrom

theorem digits_ne (h : SpelledCall l e template) : l.digits ≠ [] := by
  have hne : h.digits ≠ [] := by
    rw [← List.length_pos_iff, h.digits_length]
    decide
  exact List.ne_nil_of_mem (h.digits_mem _ (List.head_mem hne))

/-- The words that a grammar is spoken with are those of its calls. -/
theorem spoken_iff (hplain : ∀ w ∈ l.vocabulary, PlainWord w.toList) (helements : e.Built l s c)
    {locale : String} {cat : Category} {index : Nat} {ws : List String}
    (hmem : .element .waypointSpelled ∈ Template.tokens template) :
    (Grammar.compile e locale cat template index).phrase.Spoken ws ↔
      ∃ h : SpelledCall l e template, h.words = ws := by
  have hcut : ∀ w ∈ l.vocabulary, Text.words w = [w] := fun w hw =>
    words_of_unbroken (hplain w hw).unbroken
  have hdigit : ∀ d ∈ l.digits, Text.words d.word = [d.word] := fun d hd =>
    hcut d.word (Lexicon.word_mem_vocabulary hd)
  have hletter : ∀ x ∈ l.phonetic, Text.words x.spoken = [x.spoken] := fun x hx =>
    hcut x.spoken (Lexicon.phonetic_mem_vocabulary hx)
  rw [Call.spoken_iff hmem]
  change (∃ (call : Call e .waypointSpelled template) (vs : List String),
    e.waypointSpelled.Spoken vs ∧ _) ↔ _
  rw [helements.waypointSpelled_eq]
  constructor
  · rintro ⟨call, vs, hvs, rfl⟩
    obtain ⟨x, hx, ds, hds, rfl, hlength⟩ := (Elements.uttered_waypointSpelled_iff hdigit).1 hvs
    exact ⟨⟨call, x, hx, ds, hds, hlength⟩, by rw [hletter x hx]; rfl⟩
  · rintro ⟨h, rfl⟩
    refine ⟨h.toCall, h.letter.spoken :: digitWords h.digits, ?_, rfl⟩
    refine (Elements.uttered_waypointSpelled_iff hdigit).2
      ⟨h.letter, h.letter_mem, h.digits, h.digits_mem, ?_, h.digits_length⟩
    rw [hletter _ h.letter_mem]
    rfl

theorem first?_waypoint (hscript : l.script = .spaced)
    (hplain : ∀ w ∈ l.vocabulary, PlainWord w.toList) (h : SpelledCall l e template)
    (hfirst : h.First) {code : String}
    (hcode : Spelling.codeFor? l.phonetic h.letter.spoken = some code) :
    ((Decoder.spelledPhrase l).first? (spokenText h.words)).map NumberPhrase.Match.said =
      some (some code, String.ofList ((Decoder.spelledPhrase l).values
        ((digitWords h.digits).map String.toList)), none) := by
  have hlength : (digitWords h.digits).length = 2 := by rw [length_digitWords, h.digits_length]
  have hletter := hplain h.letter.spoken (Lexicon.phonetic_mem_vocabulary h.letter_mem)
  have hwords : (Decoder.spelledPhrase l).DigitWords (digitWords h.digits) :=
    digitWords_of_plain rfl (fun d hd => hplain d.word (Lexicon.word_mem_vocabulary hd))
      h.digits_mem
  have hpasses := NumberPhrase.passes_of_foremost (p := Decoder.spelledPhrase l) rfl hfirst
  rw [wordsFrom, spacedItems_append] at hpasses
  have hcode' : NumberPhrase.codeOf? (Decoder.spelledPhrase l).leading
      (some h.letter.spoken.toList) = some code := by
    rw [NumberPhrase.codeOf?_some, String.ofList_toList, hcode]
  have hhead := hwords.head?_numbers rfl hletter ⟨_, h.letter_mem, rfl⟩ hcode'
    (by rw [← List.length_pos_iff]; omega) hlength.ge hlength.le (.inl hlength) hpasses
  rw [NumberPhrase.said_first? (Decoder.plain_spelledPhrase hscript hplain h.digits_ne),
    ← NumberPhrase.numbers_other ' ', words, wordsFrom, items_spokenText (by simp), hhead]
  rfl

/-- A text that is spoken from a template with a spelled waypoint is decoded to the code of the
letter and the values of the two digits, unless a word of the phonetic alphabet stands right before
two digit words earlier. Words are looked up without regard to case, and the first entry that a word
is like counts. -/
theorem waypoint_of_call (hscript : l.script = .spaced)
    (hplain : ∀ w ∈ l.vocabulary, PlainWord w.toList) (hbuild : Elements.build l s c = .ok e)
    (hmem : .element .waypointSpelled ∈ Template.tokens template) (locale : String) (index : Nat)
    {d : Decoder} (hmake : Decoder.make l s e c = .ok d) (kind : ResultKind)
    (hkind : kind ≠ .rejected) :
    (∀ ws, (Grammar.compile e locale .vectorToSpelledWaypoint template index).phrase.Spoken ws ↔
        ∃ h : SpelledCall l e template, h.words = ws) ∧
      ∀ h : SpelledCall l e template, h.First →
        ∃ code, ∃ values : List Nat, Spelling.codeFor? l.phonetic h.letter.spoken = some code ∧
          h.digits.map (l.digitValue? ·.word) = values.map some ∧
            (d.decode kind (Grammar.nameOf .vectorToSpelledWaypoint index)
              (spokenText h.words)).waypoint = code ++ String.ofList (values.map numeral) := by
  refine ⟨fun ws => spoken_iff hplain (Elements.built_of_build hbuild) hmem, fun h hfirst => ?_⟩
  obtain ⟨code, hcode⟩ := exists_codeFor? h.letter_mem
  obtain ⟨values, hvalues, hnumerals⟩ :=
    exists_values (p := Decoder.spelledPhrase l) rfl h.digits_mem
  refine ⟨code, values, hcode, hvalues, ?_⟩
  have hsaid := first?_waypoint hscript hplain h hfirst hcode
  rw [hnumerals] at hsaid
  have hdecode : ¬ (kind = .rejected ∨ isBlankText (spokenText h.words) = true) := by
    have hletter := hplain _ (Lexicon.phonetic_mem_vocabulary h.letter_mem)
    rw [spokenText, isBlankText_join (w := h.letter.spoken) (by simp [words, wordsFrom])
      hletter.unbroken]
    simpa using hkind
  exact (Decoder.made_of_make hmake).waypoint_of_said hscript hdecode hsaid
    (Category.ofGrammarName_nameOf (by decide) index)

def direct : SpelledCall .english Decoder.deltaElements
    "\x7bAircraft\x7d direct to \x7bWaypointSpelled\x7d" where
  before := [.element .aircraft, .literal "direct to"]
  after := []
  tokens_eq := by cbv
  wordsBefore := ["Delta", "one", "two", "three", "direct", "to"]
  wordsAfter := []
  spoken_before := .cons (.element Decoder.spoken_delta) (.cons (.text "direct to") .nil)
  spoken_after := .nil
  letter := ⟨"alpha", "A"⟩
  letter_mem := by decide
  digits := [⟨"four", 4⟩, ⟨"five", 5⟩]
  digits_mem := by decide
  digits_length := rfl

theorem waypoint_of_direct :
    spokenText direct.words = "Delta one two three direct to alpha four five" ∧
      ∃ d, Decoder.make .english Decoder.delta Decoder.deltaElements .standard = .ok d ∧
        (d.decode .recognized "AVW0" (spokenText direct.words)).waypoint = "A45" := by
  obtain ⟨d, hd⟩ := Decoder.exists_make_delta Decoder.deltaElements
  have hlacks : ∀ w ∈ direct.wordsBefore,
      Template.Lacks (IsSpelling Lexicon.english.phonetic) w := by
    decide +kernel
  have hmem : .element .waypointSpelled ∈
      Template.tokens "\x7bAircraft\x7d direct to \x7bWaypointSpelled\x7d" := by
    rw [direct.tokens_eq]
    simp
  obtain ⟨code, values, hcode, hvalues, hwaypoint⟩ :=
    (waypoint_of_call rfl Lexicon.plainWord_of_english_vocabulary Decoder.build_deltaElements hmem
      "en-US" 0 hd .recognized (by decide)).2 direct (foremost_of_lacks hlacks)
  obtain rfl : code = "A" := by
    have : Spelling.codeFor? Lexicon.english.phonetic direct.letter.spoken = some "A" := by
      decide +kernel
    exact Option.some.inj (hcode.symm.trans this)
  obtain rfl : values = [4, 5] := by
    have : direct.digits.map (Lexicon.english.digitValue? ·.word) = [4, 5].map some := by
      decide +kernel
    exact List.map_injective_iff.2 (Option.some_injective Nat) (hvalues.symm.trans this)
  exact ⟨by decide +kernel, d, hd, hwaypoint⟩

/-- A single airline, whose name is a word of the phonetic alphabet. -/
def tango : Source := ⟨[⟨"Tango", "TGO"⟩], [], [], List.nodup_nil, List.nodup_nil⟩

def tangoElements : Elements :=
  { Decoder.deltaElements with
    aircraft := Elements.aircraftPhrase .english tango .standard
    waypointNamed := Elements.waypointNamedPhrase tango }

def overheard : SpelledCall .english tangoElements
    "\x7bAircraft\x7d direct \x7bWaypointSpelled\x7d" where
  before := [.element .aircraft, .literal "direct"]
  after := []
  tokens_eq := by cbv
  wordsBefore := ["Tango", "one", "two", "three", "direct"]
  wordsAfter := []
  spoken_before := by
    have hdigit : ∀ d ∈ Lexicon.english.digits, Text.words d.word = [d.word] := fun d hd =>
      words_of_unbroken (plainWord_of_english d hd).unbroken
    have haircraft : tangoElements.aircraft.Spoken ["Tango", "one", "two", "three"] :=
      (Elements.uttered_aircraft_iff hdigit).2 ⟨⟨"Tango", "TGO"⟩, by simp [tango],
        [⟨"one", 1⟩, ⟨"two", 2⟩, ⟨"three", 3⟩], by decide, rfl, rfl⟩
    exact .cons (.element haircraft) (.cons (.text "direct") .nil)
  spoken_after := .nil
  letter := ⟨"alpha", "A"⟩
  letter_mem := by decide
  digits := [⟨"four", 4⟩, ⟨"five", 5⟩]
  digits_mem := by decide
  digits_length := rfl

/-- The name of the airline and two digits of the flight number are taken for the waypoint. -/
theorem waypoint_of_overheard :
    Category.vectorToSpelledWaypoint.accepts
        "\x7bAircraft\x7d direct \x7bWaypointSpelled\x7d" = true ∧
      Elements.build .english tango .standard = .ok tangoElements ∧
      (∀ a ∈ tango.airlines, LetterWord a.name ∧
        ∀ x ∈ Lexicon.english.digits, ¬ Alike x.word.toList a.name.toList) ∧
      spokenText overheard.words = "Tango one two three direct alpha four five" ∧
      ∃ d, Decoder.make .english tango tangoElements .standard = .ok d ∧
        (d.decode .recognized "AVW0" (spokenText overheard.words)).waypoint = "T12" ∧
          Spelling.codeFor? Lexicon.english.phonetic overheard.letter.spoken = some "A" := by
  obtain ⟨d, hd⟩ : ∃ d, Decoder.make .english tango tangoElements .standard = .ok d :=
    Decoder.exists_make_english (by decide +kernel) (by decide +kernel) tangoElements
  have htext : spokenText overheard.words = "Tango one two three direct alpha four five" := by
    decide +kernel
  have hfound : ((Decoder.spelledPhrase .english).foundAt?
      (items (spokenText overheard.words).toList)).map
        (fun f => (f.match? (Decoder.spelledPhrase .english) 0 0).map NumberPhrase.Match.said) =
          some (some (some "T", "12", none)) := by
    rw [htext]
    decide +kernel
  obtain ⟨f, hf, hmatch⟩ := Option.map_eq_some_iff.1 hfound
  have hsaid := NumberPhrase.said_first?
    (Decoder.plain_spelledPhrase rfl Lexicon.plainWord_of_english_vocabulary (by decide))
    (spokenText overheard.words)
  rw [NumberPhrase.numbers_of_some hf, hmatch] at hsaid
  have hdecode :
      ¬ (ResultKind.recognized = .rejected ∨ isBlankText (spokenText overheard.words) = true) := by
    rw [htext]
    decide +kernel
  have hletters : ("Tango".toList.all Char.isAlpha) = true := by decide
  have hnames : ∀ a ∈ tango.airlines, LetterWord a.name ∧
      ∀ x ∈ Lexicon.english.digits, ¬ Alike x.word.toList a.name.toList := by
    intro a ha
    obtain rfl := List.mem_singleton.1 ha
    exact ⟨⟨by decide, List.all_eq_true.1 hletters⟩, by decide +kernel⟩
  refine ⟨by decide +kernel, rfl, hnames, htext, d, hd, ?_, by decide +kernel⟩
  exact (Decoder.made_of_make hd).waypoint_of_said rfl hdecode hsaid (by decide)

end SpelledCall

end Phraseology
