import Phraseology.Proofs.Catalogue
import Phraseology.Session

/-! What one message, or one configuration, can do to a session. -/
namespace Phraseology

structure Setup.Built (catalogue : Catalogue) (config : Config) (source : Source) (rules : RuleSet)
    (tag : String) (u : Setup) : Prop where
  get_lexicon : catalogue.get tag = .ok u.lexicon
  source_eq : u.source = source
  rules_eq : u.rules = rules
  build_elements : Elements.build u.lexicon source config = .ok u.elements
  compile_eq : u.compiled = GrammarSet.compile u.elements u.lexicon.locale rules
  make_decoder : Decoder.make u.lexicon source u.elements config = .ok u.decoder
  make_recognizer : Recognizer.make u.compiled.grammars = .ok u.recognizer

variable {catalogue : Catalogue} {config : Config} {source : Source} {rules : RuleSet}
  {tag : String} {u : Setup}

theorem Setup.build_eq_ok_iff :
    Setup.build catalogue config source rules tag = .ok u ↔
      u.Built catalogue config source rules tag := by
  unfold Setup.build
  constructor
  · intro h
    obtain ⟨l, hl, h⟩ := bind_eq_ok_iff.1 h
    obtain ⟨e, he, h⟩ := bind_eq_ok_iff.1 h
    obtain ⟨d, hd, h⟩ := bind_eq_ok_iff.1 h
    obtain ⟨r, hr, h⟩ := bind_eq_ok_iff.1 h
    obtain rfl := Except.ok.inj h
    exact ⟨hl, rfl, rfl, he, rfl, hd, hr⟩
  · rintro ⟨hl, rfl, rfl, he, hcompiled, hd, hr⟩
    rw [hcompiled] at hr
    refine bind_eq_ok_iff.2 ⟨_, hl, bind_eq_ok_iff.2 ⟨_, he, bind_eq_ok_iff.2 ⟨_, hd, ?_⟩⟩⟩
    refine bind_eq_ok_iff.2 ⟨_, hr, ?_⟩
    rw [← hcompiled]
    rfl

/-- Of its tag a setup keeps only the lexicon. -/
theorem Setup.Built.of_get {other : String} (h : u.Built catalogue config source rules tag)
    (hl : catalogue.get other = .ok u.lexicon) : u.Built catalogue config source rules other :=
  { h with get_lexicon := hl }

namespace Session

def install (setup : Setup) : ExceptT Error (StateM Session) GrammarSet := do
  modify fun s => { s with locale := setup.lexicon.locale }
  modify fun s => { s with source := some setup.source }
  modify fun s => { s with rules := some setup.rules }
  modify fun s => { s with setup := some setup }
  return setup.compiled

def configure (source : Source) (rules : RuleSet) (locale : String) :
    ExceptT Error (StateM Session) GrammarSet := do
  let s ← get
  match Setup.build s.catalogue s.config source rules locale with
  | .ok setup => install setup
  | .error e => throw e

/-- Everything that can fail comes before anything is changed. -/
theorem run_configure (s : Session) (source : Source) (rules : RuleSet) (locale : String) :
    (configure source rules locale).run.run s =
      match s.reconfigure source rules locale with
      | .ok (next, compiled) => (.ok compiled, next)
      | .error e => (.error e, s) := by
  unfold reconfigure
  change StateT.run (ExceptT.run
    (match Setup.build s.catalogue s.config source rules locale with
      | .ok setup => install setup
      | .error e => throw e)) s = _
  cases h : Setup.build s.catalogue s.config source rules locale with
  | error e => rfl
  | ok u =>
    obtain ⟨-, rfl, rfl, -⟩ := Setup.build_eq_ok_iff.1 h
    rfl

variable {s next : Session} {compiled : Option GrammarSet} {source? : Option Source}
  {rules? : Option RuleSet} {locale : String}

theorem reconfigure_eq_ok_iff {grammars : GrammarSet} :
    s.reconfigure source rules locale = .ok (next, grammars) ↔
      ∃ u, Setup.build s.catalogue s.config source rules locale = .ok u ∧ grammars = u.compiled ∧
        next = { s with
          locale := u.lexicon.locale
          source := some source
          rules := some rules
          setup := some u } := by
  unfold reconfigure
  rw [bind_eq_ok_iff]
  constructor
  · rintro ⟨u, hu, h⟩
    obtain ⟨rfl, rfl⟩ := Prod.mk.inj (Except.ok.inj h)
    exact ⟨u, hu, rfl, rfl⟩
  · rintro ⟨u, hu, rfl, rfl⟩
    exact ⟨u, hu, rfl⟩

/-- A change is either kept for later, because not all is known, or put in force. -/
theorem apply_cases (h : s.apply source? rules? locale = .ok (next, compiled)) :
    ((source? = none ∨ rules? = none) ∧ compiled = none ∧
        next = { s with source := source?, rules := rules?, locale := locale }) ∨
      ∃ source rules grammars, source? = some source ∧ rules? = some rules ∧
        compiled = some grammars ∧ s.reconfigure source rules locale = .ok (next, grammars) := by
  unfold apply at h
  split at h
  · rename_i source rules
    obtain ⟨⟨t, grammars⟩, ht, h⟩ := bind_eq_ok_iff.1 h
    obtain ⟨rfl, rfl⟩ := Prod.mk.inj (Except.ok.inj h)
    exact .inr ⟨source, rules, grammars, rfl, rfl, rfl, ht⟩
  · rename_i hnot
    obtain ⟨rfl, rfl⟩ := Prod.mk.inj (Except.ok.inj h)
    refine .inl ⟨?_, rfl, rfl⟩
    by_contra hboth
    rw [not_or] at hboth
    obtain ⟨source, hsource⟩ := Option.ne_none_iff_exists'.1 hboth.1
    obtain ⟨rules, hrules⟩ := Option.ne_none_iff_exists'.1 hboth.2
    exact hnot source rules hsource hrules

/-- All that one message can do. A change never forgets a source or rules, and its locale is the one
in force or one that a lexicon is filed under. -/
inductive Step (s : Session) : Session → List ClientMessage → Prop where
  | kept {replies : List ClientMessage} (told : ∀ gs, .compiled gs ∉ replies) : Step s s replies
  | running (isRunning : Bool) : Step s { s with running := isRunning } [.running isRunning]
  | changed {source? : Option Source} {rules? : Option RuleSet} {locale : String} {next : Session}
      {compiled : Option GrammarSet} {greeting : List ClientMessage}
      (source_kept : source? = none → s.source = none)
      (rules_kept : rules? = none → s.rules = none)
      (locale_known : locale = s.locale ∨ ∃ tag l, s.catalogue.get tag = .ok l ∧ locale = l.locale)
      (greeted : greeting = [] ∨ ∃ tag, greeting = [.languageInit tag true ""])
      (applied : s.apply source? rules? locale = .ok (next, compiled)) :
      Step s next (greeting ++ compiledReplies compiled)

theorem step_change {applied : Except Error (Session × Option GrammarSet)}
    (h : ∀ next compiled, applied = .ok (next, compiled) → Step s next (compiledReplies compiled)) :
    Step s (s.change applied).1 (s.change applied).2 := by
  cases applied with
  | error e =>
    change Step s s [.ofError e]
    exact .kept (by simp [ClientMessage.ofError])
  | ok r => exact h r.1 r.2 rfl

theorem step_changeLanguage (s : Session) (tag : String) :
    Step s (s.changeLanguage tag).1 (s.changeLanguage tag).2 := by
  unfold changeLanguage
  cases h : (do
    let lexicon ← s.catalogue.get tag
    s.apply s.source s.rules lexicon.locale) with
  | error e =>
    change Step s s [.languageInit tag false e.message]
    exact .kept (by simp)
  | ok r =>
    obtain ⟨l, hl, h⟩ := bind_eq_ok_iff.1 h
    exact .changed id id (.inr ⟨tag, l, hl, rfl⟩) (.inr ⟨tag, rfl⟩) h

theorem step_handle (s : Session) (m : HostMessage) : Step s (s.handle m).1 (s.handle m).2 := by
  have told (d : Except Error Decoded) (gs : List Summary) :
      .compiled gs ∉ if s.running then reply d else [] := by
    split_ifs
    · cases d <;> simp [reply, ClientMessage.ofError]
    · simp
  cases m with
  | source source =>
    exact step_change fun _ _ h => .changed (by simp) id (.inl rfl) (.inl rfl) h
  | rules rules =>
    exact step_change fun _ _ h => .changed id (by simp) (.inl rfl) (.inl rfl) h
  | language tag => exact step_changeLanguage s tag
  | running isRunning => exact .running isRunning
  | recognition r => exact .kept (told _)
  | transcript text => exact .kept (told _)

end Session

end Phraseology
