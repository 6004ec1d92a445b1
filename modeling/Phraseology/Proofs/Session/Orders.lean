import Phraseology.Proofs.Session.Replies

/-! Source, rules and language may come in any order, unless the language comes last and what the
starting language cannot say has been dropped by then. -/
namespace Phraseology.Session

variable {config : Config} {s : Session} {source : Source} {rules : RuleSet} {language : String}
  {u v : Setup}

/-- The session with what it knows replaced, and the setup left as it is. -/
def knowing (s : Session) (source? : Option Source) (rules? : Option RuleSet) (locale : String) :
    Session :=
  { s with source := source?, rules := rules?, locale := locale }

/-- The session with a setup for all that it is to know, if one can be made. Until source and rules
are both known none is needed. -/
def settle? (s : Session) : Option Source → Option RuleSet → String → Option Session
  | some source, some rules, locale =>
    (Setup.build s.catalogue s.config source rules locale).toOption.map s.withSetup
  | source?, rules?, locale => some (s.knowing source? rules? locale)

/-- A change counts as a whole or not at all. -/
theorem change_apply (s : Session) (source? : Option Source) (rules? : Option RuleSet)
    (locale : String) :
    (s.change (s.apply source? rules? locale)).1 = (s.settle? source? rules? locale).getD s := by
  cases source? with
  | none => rfl
  | some source =>
    cases rules? with
    | none => rfl
    | some rules =>
      simp only [apply, reconfigure, settle?]
      cases h : Setup.build s.catalogue s.config source rules locale with
      | error e => rfl
      | ok u =>
        obtain ⟨-, rfl, rfl, -⟩ := Setup.build_eq_ok_iff.1 h
        rfl

theorem settle?_knowing (s : Session) (source? source?' : Option Source)
    (rules? rules?' : Option RuleSet) (locale locale' : String) :
    (s.knowing source?' rules?' locale').settle? source? rules? locale =
      s.settle? source? rules? locale := by
  cases source? <;> cases rules? <;> rfl

@[simp] theorem settle?_none_source (s : Session) (rules? : Option RuleSet) (locale : String) :
    s.settle? none rules? locale = some (s.knowing none rules? locale) := rfl

@[simp] theorem settle?_none_rules (s : Session) (source? : Option Source) (locale : String) :
    s.settle? source? none locale = some (s.knowing source? none locale) := by
  cases source? <;> rfl

theorem settle?_of_build {locale : String}
    (h : Setup.build s.catalogue s.config source rules locale = .ok u) :
    s.settle? (some source) (some rules) locale = some (s.withSetup u) := by
  rw [settle?, h]
  rfl

theorem settle?_of_error {locale : String} {e : Error}
    (h : Setup.build s.catalogue s.config source rules locale = .error e) :
    s.settle? (some source) (some rules) locale = none := by
  rw [settle?, h]
  rfl

theorem handle_language {l : Lexicon} (h : s.catalogue.get language = .ok l) :
    (s.handle (.language language)).1 = (s.settle? s.source s.rules l.locale).getD s := by
  rw [← change_apply]
  simp only [handle, changeLanguage, h, ok_bind, change]
  cases s.apply s.source s.rules l.locale <;> rfl

section Three

variable {source? : Option Source} {rules? : Option RuleSet} {locale : String}

@[simp] theorem knowing_source (s : Session) (source : Source) :
    ((s.knowing source? rules? locale).handle (.source source)).1 =
      (s.settle? (some source) rules? locale).getD (s.knowing source? rules? locale) := by
  rw [← settle?_knowing]
  exact change_apply _ _ _ _

@[simp] theorem knowing_rules (s : Session) (rules : RuleSet) :
    ((s.knowing source? rules? locale).handle (.rules rules)).1 =
      (s.settle? source? (some rules) locale).getD (s.knowing source? rules? locale) := by
  rw [← settle?_knowing]
  exact change_apply _ _ _ _

theorem knowing_language {l : Lexicon} (h : s.catalogue.get language = .ok l) :
    ((s.knowing source? rules? locale).handle (.language language)).1 =
      (s.settle? source? rules? l.locale).getD (s.knowing source? rules? locale) := by
  rw [handle_language (s := s.knowing source? rules? locale) h, settle?_knowing]
  rfl

end Three

/-- The locale of a lexicon leads to the same setup as any other tag of it. -/
theorem build_locale (hfiled : s.catalogue.Filed)
    (hu : Setup.build s.catalogue s.config source rules language = .ok u) :
    Setup.build s.catalogue s.config source rules u.lexicon.locale = .ok u := by
  have hbuilt := Setup.build_eq_ok_iff.1 hu
  exact Setup.build_eq_ok_iff.2 (hbuilt.of_get (hfiled.get_locale hbuilt.get_lexicon))

@[simp] theorem converse_three (s : Session) (a b c : HostMessage) :
    (s.converse [a, b, c]).1 = (((s.handle a).1.handle b).1.handle c).1 := rfl

theorem order_cases {a b c : HostMessage} {ms : List HostMessage} (h : ms.Perm [a, b, c]) :
    ms = [a, b, c] ∨ ms = [b, a, c] ∨ ms = [b, c, a] ∨ ms = [a, c, b] ∨ ms = [c, a, b] ∨
      ms = [c, b, a] := by
  simpa [← List.mem_permutations', List.permutations'Aux] using h

theorem order_cases_last {a b c : HostMessage} {ms : List HostMessage} (h : ms.Perm [a, b, c])
    (hlast : ms.getLast? = some c) (hac : a ≠ c) (hbc : b ≠ c) :
    ms = [a, b, c] ∨ ms = [b, a, c] := by
  rcases order_cases h with rfl | rfl | rfl | rfl | rfl | rfl <;> simp_all

theorem Fresh.knowing_eq (h : Fresh config s) : s.knowing none none s.locale = s := by
  rw [← h.source_eq, ← h.rules_eq]
  rfl

/-- By the time that source and rules are both known, the language is known as well. -/
theorem Fresh.converse_language_early (h : Fresh config s)
    (hu : Setup.build s.catalogue s.config source rules language = .ok u) {ms : List HostMessage}
    (hms : ms.Perm [.source source, .rules rules, .language language])
    (hlast : ms.getLast? ≠ some (.language language)) : (s.converse ms).1 = s.withSetup u := by
  have hsettle := settle?_of_build (build_locale h.under.filed hu)
  have hget := (Setup.build_eq_ok_iff.1 hu).get_lexicon
  rw [← h.knowing_eq]
  rcases order_cases hms with rfl | rfl | rfl | rfl | rfl | rfl
  · exact absurd rfl hlast
  · exact absurd rfl hlast
  all_goals
    simp only [converse_three, knowing_source, knowing_rules, knowing_language hget,
      settle?_none_source, settle?_none_rules, hsettle, Option.getD_some]
    rfl

/-- When the language comes last, what the starting language makes of source and rules decides. -/
theorem Fresh.converse_source_rules (h : Fresh config s) (source : Source) (rules : RuleSet)
    (language : String) :
    (s.converse [.source source, .rules rules, .language language]).1 =
        (((s.settle? (some source) (some rules) s.locale).getD
          (s.knowing (some source) none s.locale)).handle (.language language)).1 ∧
      (s.converse [.rules rules, .source source, .language language]).1 =
        (((s.settle? (some source) (some rules) s.locale).getD
          (s.knowing none (some rules) s.locale)).handle (.language language)).1 := by
  rw [← h.knowing_eq]
  simp only [converse_three, knowing_source, knowing_rules, settle?_none_source,
    settle?_none_rules, Option.getD_some]
  exact ⟨rfl, rfl⟩

/-- What could be made before the language was known is made again in the language. -/
theorem handle_language_withSetup (hfiled : s.catalogue.Filed)
    (hu : Setup.build s.catalogue s.config source rules language = .ok u)
    (hv : Setup.build s.catalogue s.config source rules s.locale = .ok v) :
    ((s.withSetup v).handle (.language language)).1 = s.withSetup u := by
  obtain ⟨-, rfl, rfl, -⟩ := Setup.build_eq_ok_iff.1 hv
  rw [handle_language (s := s.withSetup v) (Setup.build_eq_ok_iff.1 hu).get_lexicon]
  exact congrArg (Option.getD · _) (settle?_of_build (s := s.withSetup v) (build_locale hfiled hu))

/-- Source, rules and a language that fit together are in force at the end, unless the language comes
last and they do not fit the language that the session starts in. Then the second of them has been
dropped, and there is no setup. -/
theorem configuration_in_any_order {tag : Option String} (hs : start config tag = .ok s)
    (hu : Setup.build s.catalogue s.config source rules language = .ok u) {ms : List HostMessage}
    (hms : ms.Perm [.source source, .rules rules, .language language]) :
    ∃ l, s.catalogue.get language = .ok l ∧
      ((s.converse ms).1 =
          { s with
            locale := l.locale, source := some source, rules := some rules, setup := some u } ↔
        (ms.getLast? = some (.language language) →
          ∃ v, Setup.build s.catalogue s.config source rules s.locale = .ok v)) ∧
      ∀ e, Setup.build s.catalogue s.config source rules s.locale = .error e →
        (ms = [.source source, .rules rules, .language language] →
          (s.converse ms).1 = { s with locale := l.locale, source := some source }) ∧
        (ms = [.rules rules, .source source, .language language] →
          (s.converse ms).1 = { s with locale := l.locale, rules := some rules }) := by
  have h := fresh_of_start hs
  have hfiled := h.under.filed
  obtain ⟨hget, rfl, rfl, -⟩ := Setup.build_eq_ok_iff.1 hu
  obtain ⟨hsource, hrules⟩ := h.converse_source_rules u.source u.rules language
  refine ⟨u.lexicon, hget, ⟨?_, ?_⟩, ?_⟩
  · intro hend hlast
    cases hv : Setup.build s.catalogue s.config u.source u.rules s.locale with
    | ok v => exact ⟨v, rfl⟩
    | error e =>
      -- Nothing has been made by the end, but that is what a setup would be.
      rw [settle?_of_error hv, Option.getD_none, knowing_language hget] at hsource hrules
      have hsetup : (s.converse ms).1.setup = s.setup := by
        rcases order_cases_last hms hlast (by simp) (by simp) with rfl | rfl
        · rw [hsource, settle?_none_rules]
          rfl
        · rw [hrules, settle?_none_source]
          rfl
      rw [hend, h.setup_eq] at hsetup
      cases hsetup
  · intro hlast
    by_cases hend : ms.getLast? = some (.language language)
    · obtain ⟨v, hv⟩ := hlast hend
      rw [settle?_of_build hv, Option.getD_some, handle_language_withSetup hfiled hu hv]
        at hsource hrules
      rcases order_cases_last hms hend (by simp) (by simp) with rfl | rfl
      · exact hsource
      · exact hrules
    · exact h.converse_language_early hu hms hend
  · intro e he
    rw [settle?_of_error he, Option.getD_none, knowing_language hget, settle?_none_rules] at hsource
    rw [settle?_of_error he, Option.getD_none, knowing_language hget, settle?_none_source] at hrules
    refine ⟨?_, ?_⟩
    · rintro rfl
      rw [hsource, knowing, ← h.rules_eq]
      rfl
    · rintro rfl
      rw [hrules, knowing, ← h.source_eq]
      rfl

/-- English is the language from the start, and is selected before there is a source. -/
theorem configuration_in_any_order_delta :
    ∃ u, Setup.build .builtin .standard Decoder.delta .empty "en-US" = .ok u ∧
      ∃ l, blank.catalogue.get "en-US" = .ok l ∧
        (blank.converse [.rules .empty, .language "en-US", .source Decoder.delta]).1 =
          { blank with
            locale := l.locale, source := some Decoder.delta, rules := some .empty
            setup := some u } := by
  obtain ⟨u, hu⟩ := exists_build_delta
  have horder : [HostMessage.rules .empty, .language "en-US", .source Decoder.delta].Perm
      [.source Decoder.delta, .rules .empty, .language "en-US"] := by
    simp [← List.mem_permutations', List.permutations'Aux]
  obtain ⟨l, hl, hend, -⟩ := configuration_in_any_order start_standard hu horder
  exact ⟨u, hu, l, hl, hend.2 (by simp)⟩

def sidelessEnglish : Lexicon := { Lexicon.english with locale := "en-XX", directions := [] }

def sidelessConfig : Config := { Config.standard with lexicons := [sidelessEnglish] }

def sideless : Session :=
  ⟨sidelessConfig, Catalogue.builtin.insert sidelessEnglish, "en-XX", none, none, none, true⟩

def deltaLeft : Source :=
  ⟨Decoder.delta.airlines, [], [⟨2, some 7, some .left⟩], List.nodup_nil, List.nodup_singleton _⟩

theorem start_sideless : start sidelessConfig (some "en-XX") = .ok sideless := rfl

theorem build_sideless :
    Setup.build sideless.catalogue sideless.config deltaLeft .empty sideless.locale =
      .error (.unspellableRunway "27L" "en-XX" 'L') := rfl

theorem exists_build_deltaLeft :
    ∃ u, Setup.build sideless.catalogue sidelessConfig deltaLeft .empty "en-US" = .ok u := by
  obtain ⟨e, he⟩ : ∃ e, Elements.build .english deltaLeft sidelessConfig = .ok e := ⟨_, rfl⟩
  have hget : sideless.catalogue.get "en-US" = .ok .english := rfl
  obtain ⟨u, hu, -⟩ := exists_build_english hget he (Decoder.exists_make_delta e)
  exact ⟨u, hu⟩

/-- Either way the language is English at the end, which can say the runway, but here the rules came
before and have been dropped. -/
theorem language_last_drops_rules :
    start sidelessConfig (some "en-XX") = .ok sideless ∧
      ∃ u, Setup.build sideless.catalogue sideless.config deltaLeft .empty "en-US" = .ok u ∧
        (sideless.converse [.language "en-US", .source deltaLeft, .rules .empty]).1 =
          sideless.withSetup u ∧
        (sideless.converse [.source deltaLeft, .rules .empty, .language "en-US"]).1 =
          { sideless with locale := "en-US", source := some deltaLeft } := by
  obtain ⟨u, hu⟩ := exists_build_deltaLeft
  have hfresh := fresh_of_start start_sideless
  refine ⟨start_sideless, u, hu, ?_, ?_⟩
  · exact hfresh.converse_language_early (s := sideless) hu
      (by simp [← List.mem_permutations', List.permutations'Aux]) (by simp)
  · have hget : sideless.catalogue.get "en-US" = .ok .english := rfl
    rw [(hfresh.converse_source_rules deltaLeft .empty "en-US").1, settle?_of_error build_sideless,
      Option.getD_none, knowing_language hget]
    rfl

end Phraseology.Session
