import Phraseology.Proofs.Session.Replies

/-! Utterances and the state of the engine leave the configuration alone, and each utterance is
answered by the setup that was made last. -/
namespace Phraseology

def HostMessage.isConfiguration : HostMessage → Bool
  | .source _ | .rules _ | .language _ => true
  | .running _ | .recognition _ | .transcript _ => false

def HostMessage.running? : HostMessage → Option Bool
  | .running isRunning => some isRunning
  | _ => none

inductive Utterance where
  | heard (r : Recognition)
  | typed (text : String)

def Utterance.message : Utterance → HostMessage
  | .heard r => .recognition r
  | .typed text => .transcript text

def Setup.understand (u : Setup) : Utterance → Decoded
  | .heard r => u.decoder.decode r.kind r.grammarName r.text
  | .typed text =>
    let r := u.recognizer.recognize text
    u.decoder.decode r.kind r.grammarName r.text

namespace Session

/-- The setup that a source, rules and a locale make, if the first two are known and nothing
fails. -/
def attempt? (s : Session) (source : Option Source) (rules : Option RuleSet) (locale : String) :
    Option Setup := do
  (Setup.build s.catalogue s.config (← source) (← rules) locale).toOption

def rebuild? (s : Session) : HostMessage → Option Setup
  | .source source => s.attempt? (some source) s.rules s.locale
  | .rules rules => s.attempt? s.source (some rules) s.locale
  | .language tag => do s.attempt? s.source s.rules (← s.catalogue.get? tag).locale
  | .running _ | .recognition _ | .transcript _ => none

def rebuilds (s : Session) : List HostMessage → List Setup
  | [] => []
  | m :: ms => (s.rebuild? m).toList ++ (s.handle m).1.rebuilds ms

/-- The setup that was made last, or the one at the start if there was none since. -/
def lastSetup? (s : Session) (ms : List HostMessage) : Option Setup :=
  (s.rebuilds ms).getLast?.or s.setup

/-- The state of the engine that was asked for last, or the one at the start. -/
def lastRunning (s : Session) (ms : List HostMessage) : Bool :=
  (ms.filterMap HostMessage.running?).getLast?.getD s.running

def dialogue (s : Session) : List HostMessage → List (HostMessage × List ClientMessage)
  | [] => []
  | m :: ms => (m, (s.handle m).2) :: (s.handle m).1.dialogue ms

variable {s : Session} {m : HostMessage}

theorem dialogue_append (s : Session) (before after : List HostMessage) :
    s.dialogue (before ++ after) = s.dialogue before ++ (s.converse before).1.dialogue after := by
  induction before generalizing s with
  | nil => rfl
  | cons m before ih => exact congrArg _ (ih (s.handle m).1)

theorem length_dialogue (s : Session) (ms : List HostMessage) :
    (s.dialogue ms).length = ms.length := by
  induction ms generalizing s with
  | nil => rfl
  | cons m ms ih => exact congrArg (· + 1) (ih (s.handle m).1)

def withRunning (s : Session) (isRunning : Bool) : Session := { s with running := isRunning }

theorem reconfigure_withRunning (s : Session) (isRunning : Bool) (source : Source)
    (rules : RuleSet) (locale : String) :
    (s.withRunning isRunning).reconfigure source rules locale =
      (s.reconfigure source rules locale).map fun r => (r.1.withRunning isRunning, r.2) := by
  change (Setup.build s.catalogue s.config source rules locale >>= _) = _
  unfold reconfigure
  cases Setup.build s.catalogue s.config source rules locale <;> rfl

theorem apply_withRunning (s : Session) (isRunning : Bool) (source : Option Source)
    (rules : Option RuleSet) (locale : String) :
    (s.withRunning isRunning).apply source rules locale =
      (s.apply source rules locale).map fun r => (r.1.withRunning isRunning, r.2) := by
  cases source with
  | none => rfl
  | some source =>
    cases rules with
    | none => rfl
    | some rules =>
      simp only [apply, reconfigure_withRunning]
      cases s.reconfigure source rules locale <;> rfl

/-- What a session is configured with does not depend on whether its engine is running, and neither
does what the host is told about it. -/
theorem handle_withRunning (s : Session) (isRunning : Bool) (hm : m.isConfiguration = true) :
    (s.withRunning isRunning).handle m =
      ((s.handle m).1.withRunning isRunning, (s.handle m).2) := by
  cases m with
  | source source =>
    change (s.withRunning isRunning).change
      ((s.withRunning isRunning).apply (some source) s.rules s.locale) = _
    rw [apply_withRunning, handle]
    cases s.apply (some source) s.rules s.locale <;> rfl
  | rules rules =>
    change (s.withRunning isRunning).change
      ((s.withRunning isRunning).apply s.source (some rules) s.locale) = _
    rw [apply_withRunning, handle]
    cases s.apply s.source (some rules) s.locale <;> rfl
  | language tag =>
    have hget : (s.withRunning isRunning).catalogue.get tag = s.catalogue.get tag := rfl
    cases hlexicon : s.catalogue.get tag with
    | error e =>
      simp only [handle, changeLanguage, hget, hlexicon, error_bind]
    | ok l =>
      have happly : (s.withRunning isRunning).apply (s.withRunning isRunning).source
          (s.withRunning isRunning).rules l.locale =
            (s.apply s.source s.rules l.locale).map fun r => (r.1.withRunning isRunning, r.2) :=
        s.apply_withRunning isRunning s.source s.rules l.locale
      simp only [handle, changeLanguage, hget, hlexicon, ok_bind, happly]
      cases s.apply s.source s.rules l.locale <;> rfl
  | running _ => cases hm
  | recognition _ => cases hm
  | transcript _ => cases hm

theorem handle_of_not_isConfiguration (s : Session) (hm : m.isConfiguration = false) :
    (s.handle m).1 = s.withRunning (m.running?.getD s.running) := by
  cases m with
  | source _ | rules _ | language _ => cases hm
  | running _ | recognition _ | transcript _ => rfl

theorem attempt?_of_build {source : Source} {rules : RuleSet} {locale : String} {u : Setup}
    (h : Setup.build s.catalogue s.config source rules locale = .ok u) :
    s.attempt? (some source) (some rules) locale = some u := by
  simp [attempt?, h, Except.toOption]

theorem apply_attempt (s : Session) (source : Option Source) (rules : Option RuleSet)
    (locale : String) :
    (∃ next compiled, s.apply source rules locale = .ok (next, compiled) ∧
        next.setup = (s.attempt? source rules locale).or s.setup) ∨
      (∃ e, s.apply source rules locale = .error e) ∧ s.attempt? source rules locale = none := by
  cases source with
  | none => exact .inl ⟨_, _, rfl, rfl⟩
  | some source =>
    cases rules with
    | none => exact .inl ⟨_, _, rfl, rfl⟩
    | some rules =>
      simp only [apply, reconfigure, attempt?]
      cases h : Setup.build s.catalogue s.config source rules locale with
      | error e => exact .inr ⟨⟨e, rfl⟩, by simp [h, Except.toOption]⟩
      | ok u => exact .inl ⟨_, _, rfl, by simp [h, Except.toOption]⟩

/-- A message leaves the setup that it makes, or else the one that was there. -/
theorem setup_handle (s : Session) (m : HostMessage) :
    (s.handle m).1.setup = (s.rebuild? m).or s.setup := by
  cases m with
  | source source =>
    simp only [handle, rebuild?]
    rcases s.apply_attempt (some source) s.rules s.locale with
      ⟨next, compiled, happly, hsetup⟩ | ⟨⟨e, happly⟩, hnone⟩
    · rw [happly, ← hsetup]
      rfl
    · rw [happly, hnone]
      rfl
  | rules rules =>
    simp only [handle, rebuild?]
    rcases s.apply_attempt s.source (some rules) s.locale with
      ⟨next, compiled, happly, hsetup⟩ | ⟨⟨e, happly⟩, hnone⟩
    · rw [happly, ← hsetup]
      rfl
    · rw [happly, hnone]
      rfl
  | language tag =>
    simp only [handle, changeLanguage, rebuild?, Catalogue.get]
    cases s.catalogue.get? tag with
    | none => rfl
    | some l =>
      rcases s.apply_attempt s.source s.rules l.locale with
        ⟨next, compiled, happly, hsetup⟩ | ⟨⟨e, happly⟩, hnone⟩
      · simp [happly, ← hsetup]
      · simp [happly, hnone]
  | running _ => rfl
  | recognition _ => rfl
  | transcript _ => rfl

theorem running_handle (s : Session) (m : HostMessage) :
    (s.handle m).1.running = m.running?.getD s.running := by
  cases hm : m.isConfiguration with
  | false => rw [s.handle_of_not_isConfiguration hm, withRunning]
  | true =>
    have hkept := congrArg (·.1.running) (s.handle_withRunning s.running hm)
    cases m with
    | source _ | rules _ | language _ => exact hkept
    | running _ | recognition _ | transcript _ => cases hm

/-- An utterance is answered by the setup in force while the engine is running. -/
theorem handle_utterance (s : Session) (e : Utterance) :
    (s.handle e.message).2 =
      if s.running then
        match s.setup with
        | none => [.ofError .notConfigured]
        | some u => [.result (u.understand e)]
      else [] := by
  cases e <;> cases hsetup : s.setup <;>
    simp only [Utterance.message, handle, decode, decodeTranscript, hsetup, reply] <;> rfl

theorem setup_converse (s : Session) (ms : List HostMessage) :
    (s.converse ms).1.setup = s.lastSetup? ms := by
  induction ms generalizing s with
  | nil => rfl
  | cons m ms ih =>
    rw [converse, ih, lastSetup?, lastSetup?, rebuilds, List.getLast?_append, setup_handle,
      ← Option.or_assoc]
    cases s.rebuild? m <;> rfl

theorem running_converse (s : Session) (ms : List HostMessage) :
    (s.converse ms).1.running = s.lastRunning ms := by
  induction ms generalizing s with
  | nil => rfl
  | cons m ms ih =>
    rw [converse, ih, lastRunning, lastRunning, running_handle, List.filterMap_cons]
    cases m.running? with
    | none => rfl
    | some isRunning =>
      rw [List.getLast?_cons, Option.getD_some, Option.getD_some]

/-- Without all other messages the configuration ends as it does with them, and is told alike. -/
theorem converse_filter (s : Session) (isRunning : Bool) (ms : List HostMessage) :
    ((s.withRunning isRunning).converse (ms.filter HostMessage.isConfiguration)).1 =
        (s.converse ms).1.withRunning isRunning ∧
      (s.withRunning isRunning).dialogue (ms.filter HostMessage.isConfiguration) =
        (s.dialogue ms).filter (·.1.isConfiguration) := by
  induction ms generalizing s with
  | nil => exact ⟨rfl, rfl⟩
  | cons m ms ih =>
    obtain ⟨hconverse, hdialogue⟩ := ih (s.handle m).1
    cases hm : m.isConfiguration with
    | true =>
      simp only [List.filter_cons, hm, if_true, dialogue, converse,
        handle_withRunning s isRunning hm]
      exact ⟨hconverse, congrArg _ hdialogue⟩
    | false =>
      have hsame : (s.handle m).1.withRunning isRunning = s.withRunning isRunning := by
        rw [handle_of_not_isConfiguration s hm]
        rfl
      rw [hsame] at hconverse hdialogue
      simp only [List.filter_cons, hm, Bool.false_eq_true, if_false, dialogue]
      exact ⟨hconverse, hdialogue⟩

theorem getElem?_dialogue (s : Session) (before after : List HostMessage) (m : HostMessage) :
    (s.dialogue (before ++ m :: after))[before.length]? =
      some (m, ((s.converse before).1.handle m).2) := by
  rw [dialogue_append, List.getElem?_append_right (by rw [length_dialogue]), length_dialogue,
    Nat.sub_self]
  rfl

/-- Whatever is said, and whenever the engine is stopped or goes on, the configuration ends as it
would without, and the host is told the same about it. An utterance is not answered while the engine
is stopped; otherwise there is one answer to it, which is that nothing is configured as long as no
setup has been made, and then what the setup made last makes of it. -/
theorem events_leave_configuration (s : Session) (ms : List HostMessage) :
    (s.converse (ms.filter HostMessage.isConfiguration)).1.locale = (s.converse ms).1.locale ∧
      (s.converse (ms.filter HostMessage.isConfiguration)).1.source = (s.converse ms).1.source ∧
      (s.converse (ms.filter HostMessage.isConfiguration)).1.rules = (s.converse ms).1.rules ∧
      (s.converse (ms.filter HostMessage.isConfiguration)).1.setup = (s.converse ms).1.setup ∧
      s.dialogue (ms.filter HostMessage.isConfiguration) =
        (s.dialogue ms).filter (·.1.isConfiguration) ∧
      ∀ before e after, ms = before ++ Utterance.message e :: after →
        ∃ replies, (s.dialogue ms)[before.length]? = some (e.message, replies) ∧
          (replies = [] ↔ s.lastRunning before = false) ∧
          (s.lastRunning before = true →
            (replies = [.ofError .notConfigured] ↔ s.rebuilds before = [] ∧ s.setup = none) ∧
              ∀ u ∈ s.lastSetup? before, replies = [.result (u.understand e)]) := by
  obtain ⟨hconverse, hdialogue⟩ := s.converse_filter s.running ms
  change (s.converse (ms.filter HostMessage.isConfiguration)).1 = _ at hconverse
  refine ⟨by rw [hconverse]; rfl, by rw [hconverse]; rfl, by rw [hconverse]; rfl,
    by rw [hconverse]; rfl, hdialogue, ?_⟩
  rintro before e after rfl
  refine ⟨_, s.getElem?_dialogue before after e.message, ?_⟩
  rw [handle_utterance, running_converse, setup_converse]
  have hnone : s.lastSetup? before = none ↔ s.rebuilds before = [] ∧ s.setup = none := by
    rw [lastSetup?, Option.or_eq_none_iff, List.getLast?_eq_none_iff]
  cases s.lastRunning before with
  | false => simp
  | true =>
    rw [← hnone]
    cases s.lastSetup? before <;> simp [ClientMessage.ofError]

/-- The same utterance before there is a setup, while the engine is stopped, and when it goes on. -/
theorem events_leave_configuration_delta :
    ∃ u, Setup.build .builtin .standard Decoder.delta .empty "en-US" = .ok u ∧
      let replies := (blank.dialogue [.source Decoder.delta, .transcript "Delta", .rules .empty,
        .running false, .transcript "Delta", .running true, .transcript "Delta"]).map Prod.snd
      replies[1]? = some [.ofError .notConfigured] ∧ replies[4]? = some [] ∧
        replies[6]? = some [.result (u.understand (.typed "Delta"))] := by
  obtain ⟨u, hu⟩ := exists_build_delta
  refine ⟨u, hu, ?_⟩
  have hfrom := (events_leave_configuration blank [.source Decoder.delta, .transcript "Delta",
    .rules .empty, .running false, .transcript "Delta", .running true, .transcript "Delta"]).2.2.2.2.2
  obtain ⟨first, hfirst, -, hnone⟩ := hfrom [.source Decoder.delta] (.typed "Delta") _ rfl
  obtain ⟨second, hsecond, hstopped, -⟩ := hfrom
    [.source Decoder.delta, .transcript "Delta", .rules .empty, .running false] (.typed "Delta") _ rfl
  obtain ⟨third, hthird, -, hsome⟩ := hfrom
    [.source Decoder.delta, .transcript "Delta", .rules .empty, .running false, .transcript "Delta",
      .running true] (.typed "Delta") _ rfl
  have hmade : blank.lastSetup? [.source Decoder.delta, .transcript "Delta", .rules .empty,
      .running false, .transcript "Delta", .running true] = some u := by
    have hsource : (blank.handle (.source Decoder.delta)).1 =
        { blank with source := some Decoder.delta } := perform_source_of_rules rfl Decoder.delta
    have hrules : rebuild? { blank with source := some Decoder.delta } (.rules .empty) = some u :=
      attempt?_of_build (s := { blank with source := some Decoder.delta }) hu
    have hblank : blank.rebuild? (.source Decoder.delta) = none := rfl
    have htyped (s : Session) : s.rebuild? (.transcript "Delta") = none := rfl
    have hrunning (s : Session) (b : Bool) : s.rebuild? (.running b) = none := rfl
    have hkept (s : Session) : (s.handle (.transcript "Delta")).1 = s := rfl
    simp only [lastSetup?, rebuilds, hsource, hrules, hblank, htyped, hrunning, hkept,
      Option.toList_none, Option.toList_some, List.nil_append, List.append_nil,
      List.getLast?_singleton, Option.some_or]
  simp only [List.getElem?_map]
  refine ⟨?_, ?_, ?_⟩
  · rw [show 1 = [HostMessage.source Decoder.delta].length from rfl, hfirst,
      (hnone rfl).1.2 ⟨rfl, rfl⟩]
    rfl
  · exact (congrArg _ hsecond).trans (by rw [hstopped.2 rfl]; rfl)
  · exact (congrArg _ hthird).trans (by rw [(hsome rfl).2 u hmade]; rfl)

end Session

end Phraseology
