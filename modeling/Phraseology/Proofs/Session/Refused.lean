import Phraseology.Proofs.Recognizer.Language
import Phraseology.Proofs.Session.Orders
import Phraseology.Proofs.Session.Transcript

/-! Why a session cannot be configured: its language is not known, or a runway cannot be said in it.
Apart from limits on counts and on size nothing else stands in the way, whatever the names, the
templates and the words are. -/
namespace Phraseology

namespace Lexicon

variable {l : Lexicon} {r : Runway} {err : Error}

/-- Some direction has the letter of the side, in either case, as its code. -/
def HasSide (l : Lexicon) (side : Side) : Prop :=
  ∃ x ∈ l.directions, ∃ c, x.code.toList = [c] ∧ c.toLower = side.letter.toLower

/-- The digits of a runway can always be said, so only its side matters. -/
def CanSay (l : Lexicon) (r : Runway) : Prop := ∀ side ∈ r.side, l.HasSide side

theorem isSome_directionWord?_iff {side : Side} :
    (l.directionWord? side.letter).isSome ↔ l.HasSide side := by
  rw [directionWord?, Option.isSome_map, List.find?_isSome]
  refine exists_congr fun x => and_congr_right fun _ => ?_
  constructor
  · intro h
    split at h
    · rename_i c hc
      exact ⟨c, hc, by simpa using h⟩
    · cases h
  · rintro ⟨c, hc, hletter⟩
    simp [hc, hletter]

/-- A lexicon that can be used has a word for each digit. -/
theorem exists_mapM_canonicalDigit? (hl : l.validate = .ok ()) (digits : List (Fin 10))
    (unspellable : Fin 10 → Error) :
    ∃ words, digits.mapM (fun n => match l.canonicalDigit? n.val with
      | some word => Except.ok word
      | none => .error (unspellable n)) = .ok words := by
  cases h : digits.mapM fun n => match l.canonicalDigit? n.val with
    | some word => Except.ok word
    | none => .error (unspellable n) with
  | ok words => exact ⟨words, rfl⟩
  | error err =>
    obtain ⟨-, n, -, -, -, hn⟩ := mapM_eq_error_iff.1 h
    obtain ⟨word, hword⟩ :=
      Option.isSome_iff_exists.1 ((validate_eq_ok_iff.1 hl).digit n n.isLt)
    simp [hword] at hn

theorem spellRunway_eq_error_iff (hl : l.validate = .ok ()) :
    l.spellRunway r = .error err ↔ ∃ side, r.side = some side ∧ ¬ l.HasSide side ∧
      err = .unspellableRunway r.name l.locale side.letter := by
  obtain ⟨digits, hdigits⟩ := exists_mapM_canonicalDigit? hl r.digits fun n =>
    .unspellableRunway r.name l.locale (digitChar n)
  unfold spellRunway
  rw [bind_eq_error_iff]
  constructor
  · rintro (h | ⟨_, -, h⟩)
    · cases hdigits.symm.trans h
    · rcases bind_eq_error_iff.1 h with h | ⟨_, -, h⟩
      · obtain ⟨before, side, after, hside, -, h⟩ := mapM_eq_error_iff.1 h
        have hmem : side ∈ r.side := Option.mem_toList.1 (by simp [hside])
        split at h
        · cases h
        · rename_i hnone
          refine ⟨side, hmem, ?_, (Except.error.inj h).symm⟩
          rw [← isSome_directionWord?_iff, hnone]
          simp
      · cases h
  · rintro ⟨side, hside, hnone, rfl⟩
    refine .inr ⟨digits, hdigits, bind_eq_error_iff.2 (.inl ?_)⟩
    rw [← isSome_directionWord?_iff, Option.not_isSome_iff_eq_none] at hnone
    rw [hside, Option.toList_some, List.mapM_cons, hnone]
    rfl

theorem exists_spellRunway_iff (hl : l.validate = .ok ()) :
    (∃ spoken, l.spellRunway r = .ok spoken) ↔ l.CanSay r := by
  cases h : l.spellRunway r with
  | ok spoken =>
    refine iff_of_true ⟨spoken, rfl⟩ fun side hside => ?_
    by_contra hnot
    rw [(spellRunway_eq_error_iff hl).2 ⟨side, hside, hnot, rfl⟩] at h
    cases h
  | error err =>
    obtain ⟨side, hside, hnot, -⟩ := (spellRunway_eq_error_iff hl).1 h
    exact iff_of_false (by simp) fun hsay => hnot (hsay side hside)

end Lexicon

namespace Elements

variable {l : Lexicon} {s : Source} {c : Config} {err : Error}

theorem build_eq_error_iff : build l s c = .error err ↔ spellRunways l s.runways = .error err := by
  have hmode : build l s c = .error err ↔ modeOf l s = .error err := by
    rw [build, bind_eq_error_iff]
    constructor
    · rintro (h | ⟨_, -, h⟩)
      · exact h
      · cases h
    · exact .inl
  rw [hmode, modeOf]
  split_ifs with hnone
  · simp [List.isEmpty_iff.1 hnone, spellRunways, pure, Except.pure]
  · cases spellRunways l s.runways <;> simp [Except.map]

/-- The first runway that cannot be said is reported. -/
theorem spellRunways_eq_error_iff (hl : l.validate = .ok ()) :
    spellRunways l s.runways = .error err ↔
      ∃ before r after side, s.runways = before ++ r :: after ∧ (∀ r' ∈ before, l.CanSay r') ∧
        r.side = some side ∧ ¬ l.HasSide side ∧
          err = .unspellableRunway r.name l.locale side.letter := by
  have hok (r : Runway) : (∃ b, (l.spellRunway r).map (RunwaySpelling.mk r) = .ok b) ↔
      l.CanSay r := by
    rw [← Lexicon.exists_spellRunway_iff hl]
    cases l.spellRunway r <;> simp [Except.map]
  have herror (r : Runway) : (l.spellRunway r).map (RunwaySpelling.mk r) = .error err ↔
      l.spellRunway r = .error err := by
    cases l.spellRunway r <;> simp [Except.map]
  rw [spellRunways, mapM_eq_error_iff]
  simp only [hok, herror, Lexicon.spellRunway_eq_error_iff hl]
  constructor
  · rintro ⟨before, r, after, hruns, hbefore, side, hside, hnot, rfl⟩
    exact ⟨before, r, after, side, hruns, hbefore, hside, hnot, rfl⟩
  · rintro ⟨before, r, after, side, hruns, hbefore, hside, hnot, rfl⟩
    exact ⟨before, r, after, hruns, hbefore, side, hside, hnot, rfl⟩

end Elements

/-- Nothing that is made of the source and the rules is beyond a limit on counts or on size. -/
structure Setup.Fits (catalogue : Catalogue) (config : Config) (source : Source) (rules : RuleSet)
    (tag : String) : Prop where
  decoder : ∀ l, catalogue.get? tag = some l → Decoder.Fits l source config
  patterns : ∀ l e, catalogue.get? tag = some l → Elements.build l source config = .ok e →
    ∀ g ∈ (GrammarSet.compile e l.locale rules).grammars, ∀ p ∈ g.pattern?, p.Fits

section Fits

variable {catalogue : Catalogue} {config : Config} {source : Source} {rules : RuleSet}
  {tag : String} {err : Error}

/-- Grammars are not nested deep, whatever the templates are. -/
theorem GrammarSet.exists_make {l : Lexicon} {e : Elements} (he : e.Built l source config)
    (hfits : ∀ g ∈ (compile e l.locale rules).grammars, ∀ p ∈ g.pattern?, p.Fits) :
    ∃ r, Recognizer.make (compile e l.locale rules).grammars = .ok r := by
  refine (Recognizer.exists_make_iff fun g hg => ?_).2 fun g hg p hp => ?_
  · obtain ⟨c, -, template, index, rfl⟩ := mem_compile hg
    exact he.bounded_compile c template index
  · obtain ⟨c, -, template, index, hcompile⟩ := mem_compile hg
    have hshallow : g.phrase.Shallow 2 := hcompile ▸ he.shallow_compile c template index
    exact (hfits g hg p hp).withinLimits (Pattern.shallow_ofPhrase? hshallow hp) (by decide)

theorem Setup.exists_build (hconfig : config.validate = .ok ())
    (hfits : Fits catalogue config source rules tag) {l : Lexicon} {e : Elements}
    (hl : catalogue.get? tag = some l) (he : Elements.build l source config = .ok e) :
    ∃ u, build catalogue config source rules tag = .ok u := by
  obtain ⟨d, hd⟩ := (Decoder.exists_make_iff (e := e) (Config.validate_eq_ok_iff.1 hconfig).2).2
    (hfits.decoder l hl)
  obtain ⟨r, hr⟩ := GrammarSet.exists_make (Elements.built_of_build he) (hfits.patterns l e hl he)
  exact ⟨⟨l, source, rules, e, _, d, r⟩,
    build_eq_ok_iff.2 ⟨Catalogue.get_eq_ok_iff.2 hl, rfl, rfl, he, rfl, hd, hr⟩⟩

/-- What has been made is within the limits. -/
theorem Setup.Built.fits {u : Setup} (h : u.Built catalogue config source rules tag)
    (hconfig : config.validate = .ok ()) : Setup.Fits catalogue config source rules tag := by
  have hlexicon : ∀ l, catalogue.get? tag = some l → l = u.lexicon := fun l hl =>
    Except.ok.inj ((Catalogue.get_eq_ok_iff.2 hl).symm.trans h.get_lexicon)
  constructor
  · intro l hl
    obtain rfl := hlexicon l hl
    exact (Decoder.exists_make_iff (Config.validate_eq_ok_iff.1 hconfig).2).1 ⟨_, h.make_decoder⟩
  · intro l e hl he g hg p hp
    obtain rfl := hlexicon l hl
    obtain rfl := Except.ok.inj (h.build_elements.symm.trans he)
    have hbounded : ∀ g ∈ u.compiled.grammars, g.phrase.Bounded := by
      rw [h.compile_eq]
      intro g hg
      obtain ⟨c, -, template, index, rfl⟩ := GrammarSet.mem_compile hg
      exact (Elements.built_of_build he).bounded_compile c template index
    rw [← h.compile_eq] at hg
    exact ((Recognizer.exists_make_iff hbounded).1 ⟨_, h.make_recognizer⟩ g hg p hp).fits

/-- What can be reported: the language is not known, or it is, and a runway is the first of the
source that cannot be said in it. -/
inductive Refusal (catalogue : Catalogue) (source : Source) (tag : String) : Error → Prop where
  | language (unknown : catalogue.get? tag = none) :
      Refusal catalogue source tag (.unsupportedLocale tag)
  | runway {l : Lexicon} {before after : List Runway} {r : Runway} {side : Side}
      (known : catalogue.get? tag = some l) (runways_eq : source.runways = before ++ r :: after)
      (said : ∀ r' ∈ before, l.CanSay r') (side_eq : r.side = some side)
      (unsaid : ¬ l.HasSide side) :
      Refusal catalogue source tag (.unspellableRunway r.name l.locale side.letter)

theorem Setup.build_eq_error_iff (hcatalogue : catalogue.Flawless)
    (hconfig : config.validate = .ok ()) (hfits : Fits catalogue config source rules tag) :
    build catalogue config source rules tag = .error err ↔ Refusal catalogue source tag err := by
  constructor
  · intro h
    cases hl : catalogue.get? tag with
    | none =>
      have hget := Catalogue.get_eq_error_iff.2 ⟨hl, rfl⟩
      obtain rfl := Except.error.inj ((bind_eq_error_iff.2 (.inl hget)).symm.trans h)
      exact .language hl
    | some l =>
      cases he : Elements.build l source config with
      | ok e =>
        obtain ⟨u, hu⟩ := exists_build hconfig hfits hl he
        rw [hu] at h
        cases h
      | error err' =>
        have hget := Catalogue.get_eq_ok_iff.2 hl
        obtain rfl := Except.error.inj <|
          (bind_eq_error_iff.2 (.inr ⟨l, hget, bind_eq_error_iff.2 (.inl he)⟩)).symm.trans h
        obtain ⟨before, r, after, side, hruns, hbefore, hside, hnot, rfl⟩ :=
          (Elements.spellRunways_eq_error_iff (hcatalogue.validate hl)).1
            (Elements.build_eq_error_iff.1 he)
        exact .runway hl hruns hbefore hside hnot
  · intro h
    cases h with
    | language hl => exact bind_eq_error_iff.2 (.inl (Catalogue.get_eq_error_iff.2 ⟨hl, rfl⟩))
    | @runway l before after r side hl hruns hbefore hside hnot =>
      have he := Elements.build_eq_error_iff (c := config).2 <|
        (Elements.spellRunways_eq_error_iff (hcatalogue.validate hl)).2
          ⟨before, r, after, side, hruns, hbefore, hside, hnot, rfl⟩
      exact bind_eq_error_iff.2
        (.inr ⟨l, Catalogue.get_eq_ok_iff.2 hl, bind_eq_error_iff.2 (.inl he)⟩)

end Fits

namespace Session

variable {config : Config} {s : Session} {source : Source} {rules : RuleSet} {err : Error}

theorem reconfigure_eq_error_iff {locale : String} :
    s.reconfigure source rules locale = .error err ↔
      Setup.build s.catalogue s.config source rules locale = .error err := by
  rw [reconfigure, bind_eq_error_iff]
  constructor
  · rintro (h | ⟨_, -, h⟩)
    · exact h
    · cases h
  · exact .inl

/-- Whatever a session has been through, it cannot be configured if the language is not known or a
runway cannot be said in it, and otherwise, unless a limit is exceeded, it can: every expression can
be read, whatever characters the names, the words and the templates are made of, none is nested too
deep, and no digit is without a word. -/
theorem reconfigure_refused_iff {start? : Option String} (hstart : start config start? = .ok s)
    (calls : List Call) (tag : String)
    (hfits : Setup.Fits (s.run calls).catalogue config source rules tag) (err : Error) :
    (s.run calls).reconfigure source rules tag = .error err ↔
      Refusal (s.run calls).catalogue source tag err := by
  have hfresh := fresh_of_start hstart
  obtain ⟨-, hunder⟩ := hfresh.settled.run hfresh.under calls
  rw [reconfigure_eq_error_iff, hunder.config_eq]
  exact Setup.build_eq_error_iff (Config.flawless_catalogue hunder.catalogue_eq)
    (validate_of_start hstart) hfits

theorem fits_deltaLeft :
    Setup.Fits sideless.catalogue sidelessConfig deltaLeft .empty "en-XX" := by
  have hl : sideless.catalogue.get? "en-XX" = some sidelessEnglish := rfl
  have hdelta := (Decoder.exists_make_iff (by decide)).1
    (Decoder.exists_make_delta Decoder.deltaElements)
  have hnumbers := hdelta.numbers
  simp only [Decoder.numberPhrases, List.forall_mem_cons] at hnumbers
  obtain ⟨haircraft, hrunway, hheading, hspelled, -⟩ := hnumbers
  constructor
  · intro l hl'
    obtain rfl := Option.some.inj (hl.symm.trans hl')
    -- Which words may follow a runway does not matter in a spaced script.
    have hsideless : NumberPhrase.Fits
        ⟨.spaced, sidelessEnglish.digits, some [⟨"Runway", ""⟩], 1, 2, some []⟩ :=
      ⟨hrunway.digits, hrunway.count, hrunway.size⟩
    refine ⟨?_, Shorthand.fits_of_small (by decide +kernel)⟩
    simp only [Decoder.numberPhrases, List.forall_mem_cons]
    exact ⟨haircraft, hsideless, hheading, hspelled, by simp⟩
  · intro l e hl' he
    obtain rfl := Option.some.inj (hl.symm.trans hl')
    cases he

/-- A source and rules in English are accepted after all that has been tried before. A runway with a
side is refused in a language that has no words for sides. -/
theorem reconfigure_refused_delta :
    (∃ next, (blank.run [.configure Decoder.delta statusRules "xx"]).reconfigure Decoder.delta
        statusRules "en-US" = .ok next) ∧
      (sideless.run []).reconfigure deltaLeft .empty "en-XX" =
        .error (.unspellableRunway "27L" "en-XX" 'L') := by
  constructor
  · obtain ⟨u, hu, -⟩ := exists_build_status
    have hfits := (Setup.build_eq_ok_iff.1 hu).fits (validate_of_start start_standard)
    cases h : (blank.run [.configure Decoder.delta statusRules "xx"]).reconfigure Decoder.delta
        statusRules "en-US" with
    | ok next => exact ⟨next, rfl⟩
    | error err =>
      have href := (reconfigure_refused_iff start_standard
        [.configure Decoder.delta statusRules "xx"] "en-US" hfits err).1 h
      cases href with
      | language unknown => cases unknown
      | runway _ runways_eq => simp [Decoder.delta] at runways_eq
  · refine (reconfigure_refused_iff start_sideless [] "en-XX" fits_deltaLeft _).2 ?_
    have hunsaid : ¬ sidelessEnglish.HasSide .left := by
      rintro ⟨x, hx, -⟩
      cases hx
    exact @Refusal.runway _ _ _ sidelessEnglish [] [] ⟨2, some 7, some .left⟩ .left rfl rfl
      (by simp) rfl hunsaid

end Session

end Phraseology
