import Phraseology.Proofs.Decoder.Call

/-! What is spoken from a template with an aircraft and, later, a heading is decoded to these two, as
long as their digits can be told from those of the other words. -/
namespace Phraseology

open Text
open Template (Token)

/-- A digit word or the name of an airline, up to case. -/
def IsVocabulary (s : Source) (r : List Char) : Prop :=
  (∃ d ∈ Lexicon.english.digits, Alike d.word.toList r) ∨ ∃ a ∈ s.airlines, Alike a.name.toList r

instance (s : Source) : DecidablePred (IsVocabulary s) := fun r =>
  inferInstanceAs (Decidable ((∃ d ∈ Lexicon.english.digits, Alike d.word.toList r) ∨
    ∃ a ∈ s.airlines, Alike a.name.toList r))

/-- What is spoken from a template with an aircraft and, later, a heading. -/
structure HeadingCall (s : Source) (c : Config) (e : Elements) (template : String) where
  before : List Token
  between : List Token
  after : List Token
  tokens_eq : Template.tokens template =
    before ++ .element .aircraft :: (between ++ .element .heading :: after)
  wordsBefore : List String
  wordsBetween : List String
  wordsAfter : List String
  spoken_before : (Phrase.sequence (before.map (Grammar.phraseOf e))).Spoken wordsBefore
  spoken_between : (Phrase.sequence (between.map (Grammar.phraseOf e))).Spoken wordsBetween
  spoken_after : (Phrase.sequence (after.map (Grammar.phraseOf e))).Spoken wordsAfter
  airline : Airline
  airline_mem : airline ∈ s.airlines
  flight : List DigitWord
  flight_mem : ∀ d ∈ flight, d ∈ Lexicon.english.digits
  flight_length : flight.length = c.flightDigits
  heading : List DigitWord
  heading_mem : ∀ d ∈ heading, d ∈ Lexicon.english.digits
  heading_length : heading.length = 3

namespace HeadingCall

variable {s : Source} {c : Config} {e : Elements} {template : String}
  (h : HeadingCall s c e template)

def wordsFlight : List String := h.airline.name :: digitWords h.flight

def wordsBehind : List String := h.wordsBetween ++ (digitWords h.heading ++ h.wordsAfter)

def wordsAhead : List String := h.wordsBefore ++ (h.wordsFlight ++ h.wordsBetween)

def words : List String := h.wordsBefore ++ (h.wordsFlight ++ h.wordsBehind)

def text : String := " ".intercalate h.words

/-- The flight number does not go on behind its digits. -/
def Stops : Prop :=
  c.flightMaxDigits = c.flightDigits ∨
    ¬ DigitsNext Lexicon.english.digits 1 (spacedItems h.wordsBehind)

/-- The digits right before the heading make whole groups of three. -/
def Groups : Prop := 3 ∣ digitsLast Lexicon.english.digits (spacedItems h.wordsAhead)

/-- The aircraft and the heading can be told from the other words. -/
structure Apart : Prop where
  /-- No name of an airline stands right before enough digits earlier. -/
  foremost : Foremost (Decoder.airlineSpellings s.airlines) Lexicon.english.digits c.flightDigits
    h.wordsBefore (h.wordsFlight ++ h.wordsBehind)
  stops : h.Stops
  groups : h.Groups
  /-- Behind the heading there are nowhere three digits one after another. -/
  hindmost : ∀ us vs, spacedItems h.wordsAfter = us ++ vs →
    ¬ DigitsNext Lexicon.english.digits 3 vs

theorem words_eq : h.words = h.wordsAhead ++ (digitWords h.heading ++ h.wordsAfter) := by
  simp only [words, wordsAhead, wordsBehind, List.append_assoc]

theorem not_isBlankText (hname : PlainWord h.airline.name.toList) :
    isBlankText h.text = false :=
  isBlankText_join (w := h.airline.name) (by simp [words, wordsFlight]) hname.unbroken

theorem spoken_aircraft_iff (hnames : ∀ a ∈ s.airlines, LetterWord a.name)
    (helements : e.Built .english s c) {vs : List String} :
    (e.phrase .aircraft).Spoken vs ↔ ∃ a ∈ s.airlines, ∃ ds,
      (∀ d ∈ ds, d ∈ Lexicon.english.digits) ∧ vs = a.name :: digitWords ds ∧
        ds.length = c.flightDigits := by
  change e.aircraft.Spoken vs ↔ _
  rw [helements.aircraft_eq]
  refine (Elements.uttered_aircraft_iff words_of_english).trans ?_
  refine exists_congr fun a => and_congr_right fun ha => ?_
  rw [words_of_unbroken (hnames a ha).plain.unbroken]
  rfl

theorem spoken_heading_iff (helements : e.Built .english s c) {vs : List String} :
    (e.phrase .heading).Spoken vs ↔ ∃ ds,
      (∀ d ∈ ds, d ∈ Lexicon.english.digits) ∧ vs = digitWords ds ∧ ds.length = 3 := by
  change e.heading.Spoken vs ↔ _
  rw [helements.heading_eq]
  refine (Elements.uttered_digits_iff words_of_english).trans (exists_congr fun ds => ?_)
  refine and_congr_right fun _ => and_congr_right fun _ => ?_
  exact ⟨fun h => le_antisymm h.2 h.1, fun h => ⟨h.ge, h.le⟩⟩

/-- An aircraft and, later, a heading cut the tokens into three parts. -/
theorem exists_tokens {tokens : List Token}
    (hmem : List.Sublist [.element .aircraft, .element .heading] tokens) :
    ∃ before between after, tokens =
      before ++ .element .aircraft :: (between ++ .element .heading :: after) := by
  obtain ⟨front, rest, rfl, hfront, hrest⟩ := List.cons_sublist_iff.1 hmem
  obtain ⟨before, between, rfl⟩ := List.append_of_mem hfront
  obtain ⟨others, after, rfl⟩ := List.append_of_mem (List.singleton_sublist.1 hrest)
  refine ⟨before, between ++ others, after, ?_⟩
  rw [List.append_assoc, List.cons_append, List.append_assoc]

/-- The words that a grammar is spoken with are those of its calls. -/
theorem spoken_iff (hnames : ∀ a ∈ s.airlines, LetterWord a.name)
    (helements : e.Built .english s c) {locale : String} {cat : Category} {index : Nat}
    {ws : List String}
    (hmem : List.Sublist [.element .aircraft, .element .heading] (Template.tokens template)) :
    (Grammar.compile e locale cat template index).phrase.Spoken ws ↔
      ∃ h : HeadingCall s c e template, h.words = ws := by
  change (Phrase.sequence ((Template.tokens template).map (Grammar.phraseOf e))).Spoken ws ↔ _
  constructor
  · intro hws
    obtain ⟨before, between, after, htokens⟩ := exists_tokens hmem
    rw [htokens, List.map_append, List.map_cons, List.map_append, List.map_cons] at hws
    obtain ⟨us, xs, rfl, hus, hxs⟩ := hws.of_append
    cases hxs with
    | cons first behind =>
      cases first with
      | element uttered =>
        obtain ⟨a, ha, ds, hds, rfl, hlength⟩ := (spoken_aircraft_iff hnames helements).1 uttered
        obtain ⟨vs, ys, rfl, hvs, hys⟩ := behind.of_append
        cases hys with
        | cons second last =>
          cases second with
          | element uttered =>
            obtain ⟨is, his, rfl, hthree⟩ := (spoken_heading_iff helements).1 uttered
            exact ⟨⟨before, between, after, htokens, us, vs, _, hus, hvs, last, a, ha, ds, hds,
              hlength, is, his, hthree⟩, rfl⟩
  · rintro ⟨h, rfl⟩
    rw [h.tokens_eq, List.map_append, List.map_cons, List.map_append, List.map_cons]
    refine h.spoken_before.append (.cons (.element ?_)
      (h.spoken_between.append (.cons (.element ?_) h.spoken_after)))
    · exact (spoken_aircraft_iff hnames helements).2
        ⟨_, h.airline_mem, h.flight, h.flight_mem, rfl, h.flight_length⟩
    · exact (spoken_heading_iff helements).2 ⟨_, h.heading_mem, rfl, h.heading_length⟩

abbrev headingPhrase : NumberPhrase := Decoder.headingPhrase .english

/-- The heading is the last of the groups of three digits. -/
theorem last?_heading (hapart : h.Apart) :
    (headingPhrase.last? h.text).map NumberPhrase.Match.said =
      some (none, spokenDigits h.heading, none) := by
  have hheading : headingPhrase.DigitWords (digitWords h.heading) :=
    digitWords_english rfl h.heading_mem
  have hlength : (digitWords h.heading).length = 3 := by
    rw [length_digitWords, h.heading_length]
  have hne : digitWords h.heading ≠ [] := by
    rw [← List.length_pos_iff]
    omega
  have hgroup : headingPhrase.numbers
      (spacedItems (digitWords h.heading) ++ spacedItems h.wordsAfter) = _ :=
    hheading.numbers_group rfl rfl hne hlength le_rfl
  have hafter : headingPhrase.numbers (spacedItems h.wordsAfter) = [] := by
    have hpasses : headingPhrase.Passes (spacedItems h.wordsAfter) [] := by
      intro us vs hvs _
      rw [List.append_nil, Option.eq_none_iff_forall_ne_some]
      intro f hf
      exact hapart.hindmost us vs hvs (NumberPhrase.digitsNext_of_foundAt? rfl hf)
    rw [← List.append_nil (spacedItems _), hpasses.numbers_append, NumberPhrase.numbers_nil]
  obtain ⟨ms, hms⟩ := NumberPhrase.exists_numbers_append (p := headingPhrase) rfl rfl (by decide)
    rfl hapart.groups (spacedItems (digitWords h.heading) ++ spacedItems h.wordsAfter)
  have hitems : .other ' ' :: items h.text.toList = spacedItems h.wordsAhead ++
      (spacedItems (digitWords h.heading) ++ spacedItems h.wordsAfter) := by
    rw [text, h.words_eq]
    exact items_spokenText hne
  rw [NumberPhrase.said_last? Decoder.plain_headingPhrase, ← NumberPhrase.numbers_other ' ', hitems,
    hms, hgroup, hafter, values_english rfl h.heading_mem, List.getLast?_concat]

theorem not_digit_of_lacks {ws : List String}
    (hws : ∀ w ∈ ws, Template.Lacks (IsVocabulary s) w) :
    ∀ i ∈ spacedItems ws, i.isDigitWord Lexicon.english.digits = false := by
  intro i hi
  cases i with
  | other c => rfl
  | run r =>
    refine List.any_eq_false.2 fun d hd halike => ?_
    exact Template.not_mem_spacedItems hws hi (.inl ⟨d, hd, of_decide_eq_true halike⟩)

/-- Neither a digit word nor the name of an airline is in the other tokens, nor in what can be spoken
for them. -/
def Avoids : Prop := ∀ t ∈ h.before ++ (h.between ++ h.after), t.Avoids e (IsVocabulary s)

/-- Something is spoken between the two; or else the name of the airline is no digit word, and the
flight number takes up all digits that it may and whole groups of them. -/
def Parted : Prop :=
  h.wordsBetween ≠ [] ∨
    (∀ d ∈ Lexicon.english.digits, ¬ Alike d.word.toList h.airline.name.toList) ∧
      c.flightMaxDigits = c.flightDigits ∧ 3 ∣ c.flightDigits

/-- Words between the two that are no digits keep their digits apart. -/
theorem digits_of_between (hne : h.wordsBetween ≠ [])
    (hlacks : ∀ w ∈ h.wordsBetween, Template.Lacks (IsVocabulary s) w) :
    digitsFirst Lexicon.english.digits (spacedItems h.wordsBehind) = 0 ∧
      digitsLast Lexicon.english.digits (spacedItems h.wordsAhead) = 0 := by
  have hnone := not_digit_of_lacks hlacks
  obtain ⟨w, hw⟩ := List.exists_mem_of_ne_nil _ hne
  have hnot := not_digital_spacedItems hw (h.spoken_between.unbroken w hw) hnone
  constructor
  · rw [wordsBehind, spacedItems_append, digitsFirst_append_of_not hnot,
      digitsFirst_eq_zero hnone]
  · rw [wordsAhead, spacedItems_append, spacedItems_append, ← List.append_assoc,
      digitsLast_append_of_not hnot, digitsLast_eq_zero hnone]

/-- With nothing between the two, the digits before the heading are those of the flight number. -/
theorem digits_of_adjacent (hnil : h.wordsBetween = []) (hname : PlainWord h.airline.name.toList)
    (hdigits : ∀ d ∈ Lexicon.english.digits, ¬ Alike d.word.toList h.airline.name.toList) :
    digitsLast Lexicon.english.digits (spacedItems h.wordsAhead) = c.flightDigits := by
  have hflight : headingPhrase.DigitWords (digitWords h.flight) :=
    digitWords_english rfl h.flight_mem
  obtain ⟨hdigital, hfirst⟩ := hflight.digital_and_digitsFirst
  have hnone : ∀ i ∈ spacedItems [h.airline.name],
      i.isDigitWord Lexicon.english.digits = false := by
    intro i hi
    rw [spacedItems_cons, NumberPhrase.items_plain hname] at hi
    rcases List.mem_cons.1 hi with rfl | hi
    · rfl
    · obtain rfl := List.mem_singleton.1 hi
      exact List.any_eq_false.2 fun d hd halike => hdigits d hd (of_decide_eq_true halike)
  have hnot := not_digital_spacedItems List.mem_cons_self hname.unbroken hnone
  have hahead : spacedItems h.wordsAhead = spacedItems h.wordsBefore ++
      spacedItems [h.airline.name] ++ spacedItems (digitWords h.flight) := by
    rw [wordsAhead, hnil, List.append_nil, wordsFlight, ← List.singleton_append,
      spacedItems_append, spacedItems_append, List.append_assoc]
  rw [hahead, hdigital.digitsLast_append, hdigital.digitsLast_eq, hfirst,
    digitsLast_append_of_not hnot, digitsLast_eq_zero hnone, Nat.add_zero, length_digitWords,
    h.flight_length]

variable {h} in
/-- Where the other tokens have neither digit words nor names of airlines, only the digits that meet
those of the flight number and of the heading matter. -/
theorem Avoids.apart (havoids : h.Avoids) (hstops : h.Stops) (hgroups : h.Groups) : h.Apart := by
  have hbefore : ∀ w ∈ h.wordsBefore, Template.Lacks (IsVocabulary s) w :=
    Template.lacks_of_spoken (fun t ht => havoids t (by simp [ht])) h.spoken_before
  have hafter : ∀ w ∈ h.wordsAfter, Template.Lacks (IsVocabulary s) w :=
    Template.lacks_of_spoken (fun t ht => havoids t (by simp [ht])) h.spoken_after
  refine ⟨foremost_of_lacks fun w hw r hr hspelling => hbefore w hw r hr ?_, hstops, hgroups,
    fun us vs hvs => ?_⟩
  · obtain ⟨x, hx, halike⟩ := hspelling
    obtain ⟨a, ha, rfl⟩ := List.mem_map.1 hx
    exact .inr ⟨a, ha, halike⟩
  · have hnone : ∀ i ∈ vs, i.isDigitWord Lexicon.english.digits = false := fun i hi =>
      not_digit_of_lacks hafter i (by rw [hvs]; exact List.mem_append_right us hi)
    rw [digitsNext_iff, digitsFirst_eq_zero hnone]
    decide

variable {h} in
theorem Avoids.stops_and_groups (havoids : h.Avoids) (hname : PlainWord h.airline.name.toList)
    (hparted : h.Parted) : h.Stops ∧ h.Groups := by
  have hlacks : ∀ w ∈ h.wordsBetween, Template.Lacks (IsVocabulary s) w :=
    Template.lacks_of_spoken (fun t ht => havoids t (by simp [ht])) h.spoken_between
  by_cases hnil : h.wordsBetween = []
  · obtain ⟨hdigits, hmax, hdvd⟩ := hparted.resolve_left (not_not.2 hnil)
    exact ⟨.inl hmax, by rwa [Groups, h.digits_of_adjacent hnil hname hdigits]⟩
  · obtain ⟨hfirst, hlast⟩ := h.digits_of_between hnil hlacks
    refine ⟨.inr ?_, by rw [Groups, hlast]; exact dvd_zero 3⟩
    rw [digitsNext_iff, hfirst]
    decide

abbrev aircraftPhrase (s : Source) (c : Config) : NumberPhrase :=
  Decoder.aircraftPhrase .english s c

theorem plain_aircraftPhrase (hvalid : c.validate = .ok ())
    (hnames : ∀ a ∈ s.airlines, LetterWord a.name) : (aircraftPhrase s c).Plain :=
  Decoder.plain_aircraftPhrase hvalid fun a ha => (hnames a ha).plain

/-- The aircraft comes first. -/
theorem first?_aircraft (hvalid : c.validate = .ok ())
    (hnames : ∀ a ∈ s.airlines, LetterWord a.name) (hapart : h.Apart) :
    ((aircraftPhrase s c).first? h.text).map NumberPhrase.Match.said =
      (Airline.codeFor? s.airlines h.airline.name).map fun code =>
        (some code, spokenDigits h.flight, none) := by
  obtain ⟨hpos, hle⟩ := Config.validate_eq_ok_iff.1 hvalid
  have hname : LetterWord h.airline.name := hnames _ h.airline_mem
  have hflight : (aircraftPhrase s c).DigitWords (digitWords h.flight) :=
    digitWords_english rfl h.flight_mem
  have hlength : (digitWords h.flight).length = c.flightDigits := by
    rw [length_digitWords, h.flight_length]
  have hstop : (digitWords h.flight).length = c.flightMaxDigits ∨
      (aircraftPhrase s c).Stops (spacedItems h.wordsBehind) :=
    hapart.stops.imp (fun hmax => hlength.trans hmax.symm) NumberPhrase.stops_of_not_digitsNext
  have hpasses := NumberPhrase.passes_of_foremost (p := aircraftPhrase s c) rfl hapart.foremost
  rw [wordsFlight, spacedItems_append] at hpasses
  obtain ⟨code, hfound⟩ := Option.isSome_iff_exists.1 (isSome_codeFor? h.airline_mem)
  have hcode : NumberPhrase.codeOf? (aircraftPhrase s c).leading (some h.airline.name.toList) =
      some code := by
    rw [NumberPhrase.codeOf?_some, String.ofList_toList, codeFor?_airlineSpellings hnames hname,
      hfound]
  have hhead := hflight.head?_numbers rfl hname.plain
    ⟨⟨h.airline.name, h.airline.code⟩, List.mem_map.2 ⟨_, h.airline_mem, rfl⟩, rfl⟩ hcode
    (by rw [← List.length_pos_iff]; omega) hlength.ge (hlength.trans_le hle) hstop hpasses
  have hitems : .other ' ' :: items h.text.toList = spacedItems h.wordsBefore ++
      (spacedItems h.wordsFlight ++ spacedItems h.wordsBehind) :=
    items_spokenText (by simp [wordsFlight])
  rw [NumberPhrase.said_first? (plain_aircraftPhrase hvalid hnames),
    ← NumberPhrase.numbers_other ' ', hitems, wordsFlight, hhead, hfound,
    values_english rfl h.flight_mem]
  rfl

/-- A text that is spoken from a template with an aircraft and, later, a heading is decoded to these
two, if they can be told from the other words. Where these have neither digit words nor names of
airlines, it is enough that the digits of the two do not meet those of another element or each
other, which they never do with words in between. -/
theorem decode_eq (hvalid : c.validate = .ok ()) (hnames : ∀ a ∈ s.airlines, LetterWord a.name)
    (hbuild : Elements.build .english s c = .ok e)
    (hmem : List.Sublist [.element .aircraft, .element .heading] (Template.tokens template))
    (locale : String) (index : Nat) {d : Decoder} (hmake : Decoder.make .english s e c = .ok d)
    (kind : ResultKind) (hkind : kind ≠ .rejected) :
    (∀ ws, (Grammar.compile e locale .flyHeading template index).phrase.Spoken ws ↔
        ∃ h : HeadingCall s c e template, h.words = ws) ∧
      (∀ h : HeadingCall s c e template, h.Avoids →
        (h.Parted → h.Stops ∧ h.Groups) ∧ (h.Stops → h.Groups → h.Apart)) ∧
      ∀ h : HeadingCall s c e template, h.Apart → ∀ grammarName,
        ∃ code, Airline.codeFor? s.airlines h.airline.name = some code ∧
          (d.decode kind grammarName h.text).aircraft = code ++ " " ++ spokenDigits h.flight ∧
          (d.decode kind grammarName h.text).heading = spokenDigits h.heading := by
  refine ⟨fun ws => spoken_iff hnames (Elements.built_of_build hbuild) hmem,
    fun h havoids => ⟨havoids.stops_and_groups (hnames _ h.airline_mem).plain, havoids.apart⟩, ?_⟩
  intro h hapart grammarName
  obtain ⟨code, hcode⟩ := Option.isSome_iff_exists.1 (isSome_codeFor? h.airline_mem)
  have hmade := Decoder.made_of_make hmake
  have hdecode : ¬ (kind = .rejected ∨ isBlankText h.text = true) := by
    rw [h.not_isBlankText (hnames _ h.airline_mem).plain]
    simpa using hkind
  have haircraft := h.first?_aircraft hvalid hnames hapart
  rw [hcode] at haircraft
  exact ⟨code, hcode, hmade.aircraft_of_said rfl hdecode haircraft grammarName,
    hmade.heading_of_said hdecode (h.last?_heading hapart) grammarName⟩

/-- A call with a choice and literals between the two, and an optional part that is left out. -/
def turnLeft : HeadingCall Decoder.delta .standard Decoder.deltaElements
    "\x7bAircraft\x7d turn <left|right> heading \x7bHeading\x7d [now]" where
  before := []
  between := [.literal "turn", .choice ["left", "right"], .literal "heading"]
  after := [.optional "now"]
  tokens_eq := by cbv
  wordsBefore := []
  wordsBetween := ["turn", "left", "heading"]
  wordsAfter := []
  spoken_before := .nil
  spoken_between :=
    .cons (.text "turn") (.cons (.choice (by simp) (.text "left")) (.cons (.text "heading") .nil))
  spoken_after := .cons (.repeated [] (by simp) le_rfl (by decide)) .nil
  airline := ⟨"Delta", "DLT"⟩
  airline_mem := by simp [Decoder.delta]
  flight := [⟨"one", 1⟩, ⟨"two", 2⟩, ⟨"three", 3⟩]
  flight_mem := by decide
  flight_length := rfl
  heading := [⟨"zero", 0⟩, ⟨"niner", 9⟩, ⟨"zero", 0⟩]
  heading_mem := by decide
  heading_length := rfl

theorem names_delta : ∀ a ∈ Decoder.delta.airlines, LetterWord a.name ∧
    ∀ x ∈ Lexicon.english.digits, ¬ Alike x.word.toList a.name.toList := by
  intro a ha
  obtain rfl := List.mem_singleton.1 ha
  have hletters : ("Delta".toList.all Char.isAlpha) = true := by decide
  exact ⟨⟨by decide, List.all_eq_true.1 hletters⟩, by decide +kernel⟩

theorem avoids_turnLeft : turnLeft.Avoids := by
  have hturn : Template.Lacks (IsVocabulary Decoder.delta) "turn" := by decide +kernel
  have hside : ∀ text ∈ ["left", "right"], Template.Lacks (IsVocabulary Decoder.delta) text := by
    decide +kernel
  have hheading : Template.Lacks (IsVocabulary Decoder.delta) "heading" := by decide +kernel
  have hnow : Template.Lacks (IsVocabulary Decoder.delta) "now" := by decide +kernel
  simpa [Avoids, turnLeft, Token.Avoids] using ⟨hturn, by simpa using hside, hheading, hnow⟩

theorem apart_turnLeft : turnLeft.Apart := by
  obtain ⟨hletters, -⟩ := names_delta _ turnLeft.airline_mem
  obtain ⟨hstops, hgroups⟩ :=
    avoids_turnLeft.stops_and_groups hletters.plain (.inl (by decide))
  exact avoids_turnLeft.apart hstops hgroups

theorem decode_turnLeft :
    turnLeft.text = "Delta one two three turn left heading zero niner zero" ∧
      ∃ d, Decoder.make .english Decoder.delta Decoder.deltaElements .standard = .ok d ∧
        (d.decode .recognized "AFH0" turnLeft.text).aircraft = "DLT 123" ∧
          (d.decode .recognized "AFH0" turnLeft.text).heading = "090" := by
  obtain ⟨d, hd⟩ := Decoder.exists_make_delta Decoder.deltaElements
  have hmem : List.Sublist [.element .aircraft, .element .heading]
      (Template.tokens "\x7bAircraft\x7d turn <left|right> heading \x7bHeading\x7d [now]") := by
    rw [turnLeft.tokens_eq]
    simp [turnLeft]
  obtain ⟨-, hparted, happly⟩ :=
    decode_eq (by decide) (fun a ha => (names_delta a ha).1) Decoder.build_deltaElements hmem
      "en-US" 0 hd .recognized (by decide)
  obtain ⟨hdigits, hapart⟩ := hparted turnLeft avoids_turnLeft
  obtain ⟨hstops, hgroups⟩ := hdigits (.inl (by decide))
  obtain ⟨code, hcode, haircraft, hheading⟩ := happly turnLeft (hapart hstops hgroups) "AFH0"
  obtain rfl : code = "DLT" := by
    have : Airline.codeFor? Decoder.delta.airlines turnLeft.airline.name = some "DLT" := by
      decide +kernel
    exact Option.some.inj (hcode.symm.trans this)
  exact ⟨by decide +kernel, d, hd, haircraft, hheading⟩

/-- A call in which the heading comes right behind the flight number. -/
def adjacent : HeadingCall Decoder.delta .standard Decoder.deltaElements
    "\x7bAircraft\x7d \x7bHeading\x7d" :=
  { turnLeft with
    between := []
    after := []
    tokens_eq := by cbv
    wordsBetween := []
    spoken_between := .nil
    spoken_after := .nil }

/-- One digit of the heading is taken for a digit of the flight number. -/
theorem decode_adjacent :
    Category.flyHeading.accepts "\x7bAircraft\x7d \x7bHeading\x7d" = true ∧
      adjacent.text = "Delta one two three zero niner zero" ∧
      ∃ d, Decoder.make .english Decoder.delta Decoder.deltaElements .standard = .ok d ∧
        ¬ ∃ code, Airline.codeFor? Decoder.delta.airlines adjacent.airline.name = some code ∧
          (d.decode .recognized "AFH0" adjacent.text).aircraft =
            code ++ " " ++ spokenDigits adjacent.flight := by
  obtain ⟨d, hd⟩ := Decoder.exists_make_delta Decoder.deltaElements
  have hmade := Decoder.made_of_make hd
  have htext : adjacent.text = "Delta one two three zero niner zero" := by decide +kernel
  have hfound : ((aircraftPhrase Decoder.delta .standard).foundAt? (items adjacent.text.toList)).map
      (fun f => (f.match? (aircraftPhrase Decoder.delta .standard) 0 0).map
        NumberPhrase.Match.said) = some (some (some "DLT", "1230", none)) := by
    rw [htext]
    decide +kernel
  obtain ⟨f, hf, hmatch⟩ := Option.map_eq_some_iff.1 hfound
  have hsaid := NumberPhrase.said_first?
    (plain_aircraftPhrase (c := .standard) (by decide) fun a ha => (names_delta a ha).1)
    adjacent.text
  rw [NumberPhrase.numbers_of_some hf, hmatch] at hsaid
  have hdecode : ¬ (ResultKind.recognized = .rejected ∨ isBlankText adjacent.text = true) := by
    rw [htext]
    decide +kernel
  have haircraft := hmade.aircraft_of_said rfl hdecode hsaid "AFH0"
  refine ⟨by decide +kernel, htext, d, hd, ?_⟩
  rintro ⟨code, hcode, hwrong⟩
  obtain rfl : code = "DLT" := by
    have : Airline.codeFor? Decoder.delta.airlines adjacent.airline.name = some "DLT" := by
      decide +kernel
    exact Option.some.inj (hcode.symm.trans this)
  rw [haircraft] at hwrong
  exact absurd hwrong (by decide +kernel)

end HeadingCall

end Phraseology
