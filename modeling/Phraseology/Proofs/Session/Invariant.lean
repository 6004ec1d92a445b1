import Phraseology.Proofs.Decoder.Make
import Phraseology.Proofs.Session.Step

/-! Whatever has been done to a session, its setup is the one that its source, its rules and its
locale give now. -/
namespace Phraseology.Session

inductive Call where
  | message (m : HostMessage)
  | configure (source : Source) (rules : RuleSet) (locale : String)

def perform (s : Session) : Call → Session
  | .message m => (s.handle m).1
  | .configure source rules locale => ((configure source rules locale).run.run s).2

def run (s : Session) (calls : List Call) : Session := calls.foldl perform s

/-- A session with a configuration, in a locale of its own if a tag is given. -/
def start (config : Config) (tag : Option String) : Except Error Session := do
  let s ← make config
  match tag with
  | some tag => s.withLocale tag
  | none => return s

/-- The configuration of a session never changes, and neither do the lexicons that it gives. -/
structure Under (config : Config) (s : Session) : Prop where
  config_eq : s.config = config
  catalogue_eq : config.catalogue = .ok s.catalogue

/-- There is a setup as soon as source and rules are known, and it is theirs. -/
structure Settled (s : Session) : Prop where
  isSome_setup : s.setup.isSome ↔ s.source.isSome ∧ s.rules.isSome
  source_eq : ∀ u ∈ s.setup, s.source = some u.source
  rules_eq : ∀ u ∈ s.setup, s.rules = some u.rules
  locale_eq : ∀ u ∈ s.setup, u.lexicon.locale = s.locale
  build_eq : ∀ u ∈ s.setup, Setup.build s.catalogue s.config u.source u.rules s.locale = .ok u
  get_locale : ∃ l, s.catalogue.get s.locale = .ok l

variable {config : Config} {s next : Session}

theorem Under.filed (h : Under config s) : s.catalogue.Filed :=
  Config.filed_catalogue h.catalogue_eq

/-- Without a setup nothing but the locale has to be right. -/
theorem settled_of_none (hsetup : s.setup = none) (hunknown : s.source = none ∨ s.rules = none)
    (hlocale : ∃ l, s.catalogue.get s.locale = .ok l) : s.Settled where
  isSome_setup := by
    rcases hunknown with h | h <;> simp [hsetup, h]
  source_eq := by simp [hsetup]
  rules_eq := by simp [hsetup]
  locale_eq := by simp [hsetup]
  build_eq := by simp [hsetup]
  get_locale := hlocale

/-- A session that has just been configured is settled, whatever it was before. -/
theorem settled_of_reconfigure (hfiled : s.catalogue.Filed) {source : Source} {rules : RuleSet}
    {locale : String} {grammars : GrammarSet}
    (h : s.reconfigure source rules locale = .ok (next, grammars)) : next.Settled := by
  obtain ⟨u, hu, -, rfl⟩ := reconfigure_eq_ok_iff.1 h
  have hbuilt := Setup.build_eq_ok_iff.1 hu
  obtain ⟨hget, rfl, rfl, -⟩ := id hbuilt
  have hown := hfiled.get_locale hget
  have hmem : ∀ v ∈ some u, v = u := fun v hv => (Option.some.inj hv).symm
  refine ⟨by simp, ?_, ?_, ?_, ?_, u.lexicon, hown⟩
  · intro v hv
    rw [hmem v hv]
  · intro v hv
    rw [hmem v hv]
  · intro v hv
    rw [hmem v hv]
  · intro v hv
    rw [hmem v hv]
    exact Setup.build_eq_ok_iff.2 (hbuilt.of_get hown)

theorem Under.reconfigure (hs : Under config s) {source : Source} {rules : RuleSet}
    {locale : String} {grammars : GrammarSet}
    (h : s.reconfigure source rules locale = .ok (next, grammars)) : Under config next := by
  obtain ⟨u, -, -, rfl⟩ := reconfigure_eq_ok_iff.1 h
  exact ⟨hs.config_eq, hs.catalogue_eq⟩

theorem Under.step {replies : List ClientMessage} (hs : Under config s)
    (h : Step s next replies) : Under config next := by
  cases h with
  | kept told => exact hs
  | running isRunning => exact ⟨hs.config_eq, hs.catalogue_eq⟩
  | changed _ _ _ _ applied =>
    rcases apply_cases applied with ⟨-, -, rfl⟩ | ⟨_, _, _, -, -, -, h⟩
    · exact ⟨hs.config_eq, hs.catalogue_eq⟩
    · exact hs.reconfigure h

theorem Settled.step {replies : List ClientMessage} (hs : s.Settled) (hfiled : s.catalogue.Filed)
    (h : Step s next replies) : next.Settled := by
  cases h with
  | kept told => exact hs
  | running isRunning =>
    exact ⟨hs.isSome_setup, hs.source_eq, hs.rules_eq, hs.locale_eq, hs.build_eq, hs.get_locale⟩
  | @changed source? rules? locale _ _ _ hsource hrules hlocale _ applied =>
    rcases apply_cases applied with ⟨hunknown, -, rfl⟩ | ⟨_, _, _, -, -, -, h⟩
    · -- What is not known now was not known before, so there was no setup either.
      have hbefore : s.source = none ∨ s.rules = none := hunknown.imp hsource hrules
      have hsetup : s.setup = none := by
        rw [← Option.not_isSome_iff_eq_none, hs.isSome_setup]
        rintro ⟨h₁, h₂⟩
        rcases hbefore with h | h
        · simp [h] at h₁
        · simp [h] at h₂
      refine settled_of_none hsetup hunknown ?_
      rcases hlocale with rfl | ⟨tag, l, hl, rfl⟩
      · exact hs.get_locale
      · exact ⟨l, hfiled.get_locale hl⟩
    · exact settled_of_reconfigure hfiled h

theorem perform_configure (s : Session) (source : Source) (rules : RuleSet) (locale : String) :
    s.perform (.configure source rules locale) =
      match s.reconfigure source rules locale with
      | .ok (next, _) => next
      | .error _ => s := by
  change (StateT.run (ExceptT.run (Session.configure source rules locale)) s).2 = _
  rw [run_configure]
  cases s.reconfigure source rules locale <;> rfl

theorem Settled.perform (hs : s.Settled) (hunder : Under config s) (call : Call) :
    (s.perform call).Settled ∧ Under config (s.perform call) := by
  cases call with
  | message m => exact ⟨hs.step hunder.filed (step_handle s m), hunder.step (step_handle s m)⟩
  | configure source rules locale =>
    rw [perform_configure]
    cases h : s.reconfigure source rules locale with
    | error e => exact ⟨hs, hunder⟩
    | ok r => exact ⟨settled_of_reconfigure hunder.filed h, hunder.reconfigure h⟩

theorem Settled.run (hs : s.Settled) (hunder : Under config s) (calls : List Call) :
    (s.run calls).Settled ∧ Under config (s.run calls) := by
  induction calls generalizing s with
  | nil => exact ⟨hs, hunder⟩
  | cons call calls ih =>
    obtain ⟨hs, hunder⟩ := hs.perform hunder call
    exact ih hs hunder

/-- A session that has just been made knows nothing but its configuration and its locale. -/
structure Fresh (config : Config) (s : Session) : Prop where
  under : Under config s
  source_eq : s.source = none
  rules_eq : s.rules = none
  setup_eq : s.setup = none
  get_locale : ∃ l, s.catalogue.get s.locale = .ok l

theorem Fresh.settled (h : Fresh config s) : s.Settled :=
  settled_of_none h.setup_eq (.inl h.source_eq) h.get_locale

theorem fresh_of_make (h : make config = .ok s) : Fresh config s := by
  obtain ⟨-, -, h⟩ := bind_eq_ok_iff.1 h
  obtain ⟨c, hc, h⟩ := bind_eq_ok_iff.1 h
  obtain rfl := Except.ok.inj h
  exact ⟨⟨rfl, hc⟩, rfl, rfl, rfl, Config.get_english hc⟩

theorem Fresh.withLocale {t : Session} {tag : String} (ht : Fresh config t)
    (h : t.withLocale tag = .ok s) : Fresh config s := by
  obtain ⟨l, hl, h⟩ := bind_eq_ok_iff.1 h
  obtain rfl := Except.ok.inj h
  exact ⟨⟨ht.under.config_eq, ht.under.catalogue_eq⟩, ht.source_eq, ht.rules_eq, ht.setup_eq, l,
    ht.under.filed.get_locale hl⟩

theorem fresh_of_start {tag : Option String} (h : start config tag = .ok s) : Fresh config s := by
  obtain ⟨t, ht, h⟩ := bind_eq_ok_iff.1 h
  cases tag with
  | none =>
    obtain rfl := Except.ok.inj h
    exact fresh_of_make ht
  | some tag => exact (fresh_of_make ht).withLocale h

theorem validate_of_start {tag : Option String} (h : start config tag = .ok s) :
    config.validate = .ok () := by
  obtain ⟨t, ht, -⟩ := bind_eq_ok_iff.1 h
  obtain ⟨⟨⟩, hvalid, -⟩ := bind_eq_ok_iff.1 ht
  exact hvalid

/-- Two settled sessions under one configuration that agree on source, rules and locale have the
same setup. -/
theorem Settled.setup_eq {t : Session} (hs : s.Settled) (ht : t.Settled) (hsu : Under config s)
    (htu : Under config t) (hsource : s.source = t.source) (hrules : s.rules = t.rules)
    (hlocale : s.locale = t.locale) : s.setup = t.setup := by
  have hsome : s.setup.isSome ↔ t.setup.isSome := by
    rw [hs.isSome_setup, ht.isSome_setup, hsource, hrules]
  cases hu : s.setup with
  | none =>
    cases hv : t.setup with
    | none => rfl
    | some v => simp [hu, hv] at hsome
  | some u =>
    obtain ⟨v, hv⟩ : ∃ v, t.setup = some v := Option.isSome_iff_exists.1 (hsome.1 (by simp [hu]))
    have hcatalogue : s.catalogue = t.catalogue :=
      Except.ok.inj (hsu.catalogue_eq.symm.trans htu.catalogue_eq)
    have husource : u.source = v.source := Option.some.inj <| by
      rw [← hs.source_eq u hu, hsource, ht.source_eq v hv]
    have hurules : u.rules = v.rules := Option.some.inj <| by
      rw [← hs.rules_eq u hu, hrules, ht.rules_eq v hv]
    have hbuild := hs.build_eq u hu
    rw [hcatalogue, hsu.config_eq, ← htu.config_eq, husource, hurules, hlocale,
      ht.build_eq v hv] at hbuild
    rw [hv, Except.ok.inj hbuild]

theorem decode_congr {t : Session} (h : s.setup = t.setup) :
    s.decode = t.decode ∧ s.decodeTranscript = t.decodeTranscript := by
  constructor
  · funext r
    unfold decode
    rw [h]
  · funext text
    unfold decodeTranscript
    rw [h]

/-- Whatever a session has been through, it is settled, and what it has been through does not show:
another with the same configuration, source, rules and locale decodes alike. -/
theorem settled_run {tag : Option String} (calls : List Call) (h : start config tag = .ok s) :
    (s.run calls).Settled ∧ Under config (s.run calls) ∧
      ∀ (tag' : Option String) (s' : Session) (calls' : List Call), start config tag' = .ok s' →
        (s.run calls).source = (s'.run calls').source →
        (s.run calls).rules = (s'.run calls').rules →
        (s.run calls).locale = (s'.run calls').locale →
          (s.run calls).decode = (s'.run calls').decode ∧
            (s.run calls).decodeTranscript = (s'.run calls').decodeTranscript := by
  have hfresh := fresh_of_start h
  obtain ⟨hrun, hunder⟩ := hfresh.settled.run hfresh.under calls
  refine ⟨hrun, hunder, fun tag' s' calls' h' hsource hrules hlocale => ?_⟩
  have hfresh' := fresh_of_start h'
  obtain ⟨hrun', hunder'⟩ := hfresh'.settled.run hfresh'.under calls'
  exact decode_congr (hrun.setup_eq hrun' hunder hunder' hsource hrules hlocale)

def withSetup (s : Session) (u : Setup) : Session :=
  { s with
    locale := u.lexicon.locale, source := some u.source, rules := some u.rules, setup := some u }

theorem perform_configure_of_build {source : Source} {rules : RuleSet} {locale : String} {u : Setup}
    (h : Setup.build s.catalogue s.config source rules locale = .ok u) :
    s.perform (.configure source rules locale) = s.withSetup u := by
  obtain ⟨-, rfl, rfl, -⟩ := Setup.build_eq_ok_iff.1 h
  rw [perform_configure, reconfigure_eq_ok_iff.2 ⟨u, h, rfl, rfl⟩]
  rfl

theorem perform_rules_of_build {source : Source} {rules : RuleSet} {u : Setup}
    (hsource : s.source = some source)
    (h : Setup.build s.catalogue s.config source rules s.locale = .ok u) :
    s.perform (.message (.rules rules)) = s.withSetup u := by
  obtain ⟨-, rfl, rfl, -⟩ := Setup.build_eq_ok_iff.1 h
  have happly :
      s.apply s.source (some u.rules) s.locale = .ok (s.withSetup u, some u.compiled) := by
    rw [hsource]
    exact bind_eq_ok_iff.2 ⟨_, reconfigure_eq_ok_iff.2 ⟨u, h, rfl, rfl⟩, rfl⟩
  simp only [perform, handle, change, happly]

theorem perform_source_of_rules (hrules : s.rules = none) (source : Source) :
    s.perform (.message (.source source)) = { s with source := some source } := by
  simp only [perform, handle, change, apply, hrules]

theorem perform_running (s : Session) (isRunning : Bool) :
    s.perform (.message (.running isRunning)) = { s with running := isRunning } := rfl

def blank : Session := ⟨.standard, .builtin, "en-US", none, none, none, true⟩

theorem start_standard : start .standard none = .ok blank := rfl

/-- Without rules nothing but the elements and the decoder can stand in the way of a setup. -/
theorem exists_build_english {catalogue : Catalogue} {source : Source} {e : Elements}
    (hget : catalogue.get "en-US" = .ok .english)
    (he : Elements.build .english source config = .ok e)
    (hd : ∃ d, Decoder.make .english source e config = .ok d) :
    ∃ u, Setup.build catalogue config source .empty "en-US" = .ok u ∧ u.lexicon = .english := by
  obtain ⟨d, hd⟩ := hd
  exact ⟨⟨.english, source, .empty, e, ⟨"en-US", []⟩, d, ⟨[]⟩⟩,
    Setup.build_eq_ok_iff.2 ⟨hget, rfl, rfl, he, rfl, hd, rfl⟩, rfl⟩

theorem builtin_get_english : Catalogue.builtin.get "en-US" = .ok .english := rfl

theorem exists_build_delta :
    ∃ u, Setup.build .builtin .standard Decoder.delta .empty "en-US" = .ok u := by
  obtain ⟨u, hu, -⟩ :=
    exists_build_english builtin_get_english Decoder.build_deltaElements (Decoder.exists_make_delta _)
  exact ⟨u, hu⟩

/-- One session is configured at once; the other has had another source and has been stopped. -/
theorem settled_run_delta :
    (blank.run [.configure Decoder.delta .empty "en-US"]).setup.isSome ∧
      (blank.run [.configure Decoder.delta .empty "en-US"]).decode =
        (blank.run [.message (.source .empty), .message (.running false),
          .message (.source Decoder.delta), .message (.rules .empty)]).decode := by
  obtain ⟨u, hu⟩ := exists_build_delta
  have hdirect : blank.run [.configure Decoder.delta .empty "en-US"] = blank.withSetup u := by
    rw [run, List.foldl_cons, List.foldl_nil, perform_configure_of_build (s := blank) hu]
  have hdetour : blank.run [.message (.source .empty), .message (.running false),
      .message (.source Decoder.delta), .message (.rules .empty)] =
      withSetup { blank with source := some Decoder.delta, running := false } u := by
    rw [run, List.foldl_cons, List.foldl_cons, List.foldl_cons, List.foldl_cons, List.foldl_nil,
      perform_source_of_rules rfl, perform_running, perform_source_of_rules rfl]
    exact perform_rules_of_build
      (s := { blank with source := some Decoder.delta, running := false }) rfl hu
  refine ⟨by rw [hdirect]; rfl, ?_⟩
  exact ((settled_run [.configure Decoder.delta .empty "en-US"] start_standard).2.2 none blank
    [.message (.source .empty), .message (.running false), .message (.source Decoder.delta),
      .message (.rules .empty)] start_standard (by rw [hdirect, hdetour]; rfl)
    (by rw [hdirect, hdetour]; rfl) (by rw [hdirect, hdetour]; rfl)).1

end Phraseology.Session
