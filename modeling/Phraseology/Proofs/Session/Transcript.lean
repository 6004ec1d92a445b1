import Phraseology.Proofs.Decoder.English
import Phraseology.Proofs.GrammarSet
import Phraseology.Proofs.Recognizer.Language
import Phraseology.Proofs.Session.Invariant
import Phraseology.Proofs.Text.Blank

/-! What a transcript is decoded to: the category of the first grammar that accepts it. -/
namespace Phraseology

open Text

theorem Text.isBlankText_trim (x : String) : isBlankText (trim x) = isBlankText x := by
  obtain ⟨bl, bl', hx, hbl, hbl'⟩ := exists_trimChars x.toList
  rw [isBlankText, isBlankText, trim, String.toList_ofList]
  conv_rhs => rw [hx, List.all_append, List.all_append, List.all_eq_true.2 hbl,
    List.all_eq_true.2 hbl', Bool.true_and, Bool.and_true]

/-- What is recognized keeps its kind and has the category that its name tells. -/
theorem Decoder.decode_recognized {x : String} (h : isBlankText x = false) (d : Decoder)
    (name : String) :
    (d.decode .recognized name x).kind = .recognized ∧
      (d.decode .recognized name x).grammar = Category.ofGrammarName name := by
  have hdecode : ¬ (ResultKind.recognized = .rejected ∨ isBlankText x = true) := by simp [h]
  rw [decode, if_neg hdecode]
  exact ⟨rfl, rfl⟩

namespace Setup.Built

variable {catalogue : Catalogue} {config : Config} {source : Source} {rules : RuleSet}
  {tag x : String} {u : Setup} {g : Grammar}

/-- A transcript is decoded as the grammar through which it is recognized. -/
theorem decode_recognize (h : u.Built catalogue config source rules tag)
    (hg : u.compiled.recognizing? x = some g) :
    u.decoder.decode (u.recognizer.recognize x).kind (u.recognizer.recognize x).grammarName
      (u.recognizer.recognize x).text = u.decoder.decode .recognized g.name (trim x) := by
  have hfind : u.recognizer.find? x = some g.name := by
    rw [Recognizer.find?_eq h.make_recognizer]
    change (u.compiled.recognizing? x).map Grammar.name = some g.name
    rw [hg]
    rfl
  rw [Recognizer.recognize, hfind]

/-- A transcript that no grammar accepts is rejected. -/
theorem decode_reject (h : u.Built catalogue config source rules tag)
    (hg : u.compiled.recognizing? x = none) :
    u.decoder.decode (u.recognizer.recognize x).kind (u.recognizer.recognize x).grammarName
      (u.recognizer.recognize x).text = .empty .rejected := by
  have hfind : u.recognizer.find? x = none := by
    rw [Recognizer.find?_eq h.make_recognizer]
    change (u.compiled.recognizing? x).map Grammar.name = none
    rw [hg]
    rfl
  rw [Recognizer.recognize, hfind, Decoder.decode, if_pos (.inl rfl)]

end Setup.Built

namespace Session

variable {config : Config} {tag : Option String} {s : Session} {u : Setup} {x : String}
  {g : Grammar} {calls : List Call}

/-- Whatever a session has been through, its setup is made of what it has now. -/
theorem built_of_start (hstart : start config tag = .ok s) (hu : (s.run calls).setup = some u) :
    u.Built (s.run calls).catalogue config u.source u.rules (s.run calls).locale := by
  have hfresh := fresh_of_start hstart
  obtain ⟨hsettled, hunder⟩ := hfresh.settled.run hfresh.under calls
  have hbuilt := Setup.build_eq_ok_iff.1 (hsettled.build_eq u hu)
  rwa [hunder.config_eq] at hbuilt

theorem decodeTranscript_of_recognizing? (hstart : start config tag = .ok s)
    (hu : (s.run calls).setup = some u) (hg : u.compiled.recognizing? x = some g) :
    (s.run calls).decodeTranscript x = .ok (u.decoder.decode .recognized g.name (trim x)) := by
  rw [decodeTranscript, hu]
  exact congrArg Except.ok ((built_of_start hstart hu).decode_recognize hg)

theorem decodeTranscript_of_accepts (hstart : start config tag = .ok s)
    (hu : (s.run calls).setup = some u) (hx : isBlankText x = false) {before after : List Grammar}
    (hgrammars : u.compiled.grammars = before ++ g :: after)
    (hbefore : ∀ g' ∈ before, g'.accepts x = false) (hg : g.accepts x = true) :
    ∃ d, (s.run calls).decodeTranscript x = .ok d ∧ d.kind = .recognized ∧
      d.grammar = g.category := by
  have hrecognizing : u.compiled.recognizing? x = some g :=
    List.find?_eq_some_iff_append.2
      ⟨hg, before, after, hgrammars, fun g' hg' => by rw [hbefore g' hg', Bool.not_false]⟩
  have hmem : g ∈ u.compiled.grammars := GrammarSet.recognizing?_mem hrecognizing
  rw [(built_of_start hstart hu).compile_eq] at hmem
  have hblank : isBlankText (trim x) = false := (isBlankText_trim x).trans hx
  obtain ⟨hkind, hgrammar⟩ := u.decoder.decode_recognized hblank g.name
  exact ⟨_, decodeTranscript_of_recognizing? hstart hu hrecognizing, hkind,
    hgrammar.trans (GrammarSet.ofGrammarName_name hmem).1⟩

theorem decodeTranscript_of_rejects (hstart : start config tag = .ok s)
    (hu : (s.run calls).setup = some u) (hg : ∀ g ∈ u.compiled.grammars, g.accepts x = false) :
    (s.run calls).decodeTranscript x = .ok (.empty .rejected) := by
  have hrecognizing : u.compiled.recognizing? x = none :=
    List.find?_eq_none.2 fun g hmem => by simp [hg g hmem]
  rw [decodeTranscript, hu]
  exact congrArg Except.ok ((built_of_start hstart hu).decode_reject hrecognizing)

def statusRules : RuleSet :=
  { RuleSet.empty with
    status := ["say again", "\x7bAircraft\x7d <status|say position>"] }

def statusGrammar : Grammar where
  name := "AGS0"
  category := .status
  locale := "en-US"
  phrase := .sequence [.element .aircraft Decoder.deltaElements.aircraft,
    .oneOf ["status", "say position"]]

theorem grammars_statusRules :
    (GrammarSet.compile Decoder.deltaElements "en-US" statusRules).grammars = [statusGrammar] := by
  have haccepted : statusRules.accepted .status =
      ["\x7bAircraft\x7d <status|say position>"] := by decide +kernel
  have htokens : Template.tokens "\x7bAircraft\x7d <status|say position>" =
      [.element .aircraft, .choice ["status", "say position"]] := by cbv
  rw [GrammarSet.grammars_compile, Category.commands, List.flatMap_cons,
    GrammarSet.ofCategory, haccepted, List.mapIdx_cons, Grammar.compile, htokens]
  rfl

theorem bounded_statusGrammar : statusGrammar.phrase.Bounded := by
  have helements := Elements.built_of_build Decoder.build_deltaElements
  refine .sequence (List.forall_mem_cons.2 ⟨.element (helements.bounded .aircraft), ?_⟩)
  exact List.forall_mem_singleton.2 (Elements.bounded_oneOf _)

theorem exists_build_status :
    ∃ u, Setup.build .builtin .standard Decoder.delta statusRules "en-US" = .ok u ∧
      u.lexicon = .english ∧ u.source = Decoder.delta ∧ u.elements = Decoder.deltaElements ∧
        u.compiled.grammars = [statusGrammar] := by
  obtain ⟨d, hd⟩ := Decoder.exists_make_delta Decoder.deltaElements
  obtain ⟨r, hr⟩ : ∃ r, Recognizer.make [statusGrammar] = .ok r := by
    refine (Recognizer.exists_make_iff (List.forall_mem_singleton.2 bounded_statusGrammar)).2 ?_
    intro g hg p hp
    obtain rfl := List.mem_singleton.1 hg
    obtain rfl := Option.some.inj hp
    exact Pattern.withinLimits_of_boundFits (by decide +kernel) (by decide +kernel)
  rw [← grammars_statusRules] at hr ⊢
  exact ⟨⟨.english, Decoder.delta, statusRules, Decoder.deltaElements, _, d, r⟩,
    Setup.build_eq_ok_iff.2 ⟨rfl, rfl, rfl, Decoder.build_deltaElements, rfl, hd, hr⟩,
    rfl, rfl, rfl, rfl⟩

def status : Session := blank.run [.configure Decoder.delta statusRules "en-US"]

theorem exists_setup_status :
    ∃ u, status.setup = some u ∧ Setup.build .builtin .standard Decoder.delta statusRules "en-US" =
      .ok u ∧ u.lexicon = .english ∧ u.source = Decoder.delta ∧
        u.elements = Decoder.deltaElements ∧ u.compiled.grammars = [statusGrammar] := by
  obtain ⟨u, hu, hparts⟩ := exists_build_status
  refine ⟨u, ?_, hu, hparts⟩
  rw [status, run, List.foldl_cons, List.foldl_nil, perform_configure_of_build (s := blank) hu]
  rfl

/-- It does not matter whether the words are spoken with blanks between them. -/
theorem statusGrammar_accepts {w x : String} (hw : w ∈ ["status", "say position"])
    (hx : isLaid ((["Delta", "one", "two", "three"] ++ words w).map String.toList) x.toList = true) :
    statusGrammar.accepts x = true := by
  have hdigits : ∀ d ∈ [⟨"one", 1⟩, ⟨"two", 2⟩, ⟨"three", 3⟩], d ∈ Lexicon.english.digits := by
    decide +kernel
  have haircraft : Decoder.deltaElements.aircraft.Spoken ["Delta", "one", "two", "three"] :=
    (Elements.uttered_aircraft_iff words_of_english).2 ⟨_, List.mem_singleton_self _, _, hdigits,
      by decide +kernel, rfl⟩
  have hspoken : statusGrammar.phrase.Spoken (["Delta", "one", "two", "three"] ++ words w) := by
    rw [← List.append_nil (words w)]
    exact .cons (.element haircraft)
      (.cons (Phrase.Uttered.oneOf_iff.2 ⟨w, hw, rfl⟩) .nil)
  exact (Grammar.accepts_iff bounded_statusGrammar).2 ⟨_, hspoken, (laid_of_isLaid hx).spread⟩

/-- Grammars are compiled by category, and in a category template by template; their names count
them, no two are the same, and each leads back to its grammar and tells its category. So a transcript
is decoded as the category of the first grammar that accepts it, and rejected if there is none. -/
theorem names_tell_grammars :
    (∀ e locale rules,
      (GrammarSet.compile e locale rules).grammars =
          Category.commands.flatMap (GrammarSet.ofCategory e locale rules) ∧
        (∀ c ∈ Category.commands, ∃ code, c.code? = some code ∧
          (GrammarSet.ofCategory e locale rules c).map Grammar.name =
            (List.range (rules.accepted c).length).map fun k => code ++ toString k) ∧
        ((GrammarSet.compile e locale rules).grammars.map Grammar.name).Nodup ∧
        (∀ g ∈ (GrammarSet.compile e locale rules).grammars,
          (GrammarSet.compile e locale rules).get? g.name = some g ∧
            Category.ofGrammarName g.name = g.category ∧ g.category ≠ .invalid) ∧
        GrammarSet.compile e locale rules.filtered = GrammarSet.compile e locale rules) ∧
      ∀ config tag s, start config tag = .ok s → ∀ calls u, (s.run calls).setup = some u →
        u.compiled = GrammarSet.compile u.elements u.lexicon.locale u.rules ∧
          ∀ x, isBlankText x = false →
            (∀ before g after, u.compiled.grammars = before ++ g :: after →
              (∀ g' ∈ before, g'.accepts x = false) → g.accepts x = true →
                ∃ d, (s.run calls).decodeTranscript x = .ok d ∧ d.kind = .recognized ∧
                  d.grammar = g.category) ∧
            ((∀ g ∈ u.compiled.grammars, g.accepts x = false) →
              (s.run calls).decodeTranscript x = .ok (.empty .rejected)) := by
  refine ⟨fun e locale rules => ⟨?_, ?_, ?_, ?_, ?_⟩, ?_⟩
  · exact GrammarSet.grammars_compile e locale rules
  · intro c hc
    obtain ⟨code, hcode, -⟩ := Category.exists_code hc
    refine ⟨code, hcode, ?_⟩
    rw [GrammarSet.map_name_ofCategory]
    exact List.map_congr_left fun k _ => Grammar.nameOf_eq hcode k
  · exact GrammarSet.nodup_names e locale rules
  · intro g hg
    obtain ⟨hname, hcategory⟩ := GrammarSet.ofGrammarName_name hg
    refine ⟨GrammarSet.get?_name hg, hname, ?_⟩
    rintro h
    rw [h] at hcategory
    exact absurd hcategory (by decide)
  · exact GrammarSet.compile_filtered e locale rules
  · intro config tag s hstart calls u hu
    refine ⟨(built_of_start hstart hu).compile_eq, fun x hx => ⟨?_, ?_⟩⟩
    · intro before g after hgrammars hbefore hg
      exact decodeTranscript_of_accepts hstart hu hx hgrammars hbefore hg
    · exact decodeTranscript_of_rejects hstart hu

theorem names_tell_status :
    (∃ d, status.decodeTranscript "Delta one two three status" = .ok d ∧ d.kind = .recognized ∧
        d.grammar = .status) ∧
      status.decodeTranscript "say again" = .ok (.empty .rejected) := by
  obtain ⟨u, hsetup, -, -, -, -, hgrammars⟩ := exists_setup_status
  obtain ⟨-, htells⟩ := names_tell_grammars.2 _ _ blank start_standard _ u hsetup
  constructor
  · refine (htells "Delta one two three status" (by decide)).1 [] statusGrammar [] hgrammars
      (by simp) (statusGrammar_accepts (w := "status") (by simp) (by decide +kernel))
  · refine (htells "say again" (by decide)).2 fun g hg => ?_
    rw [hgrammars] at hg
    obtain rfl := List.mem_singleton.1 hg
    decide +kernel

end Session

end Phraseology
