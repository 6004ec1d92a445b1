import Phraseology.Proofs.Session.Invariant

/-! What a host can tell from the replies: a failure has changed nothing, and the grammars in force
are those that it was told last. -/
namespace Phraseology

def ClientMessage.IsFailure : ClientMessage → Prop
  | .configurationError _ => True
  | .languageInit _ isSuccess _ => isSuccess = false
  | _ => False

def ClientMessage.grammars? : ClientMessage → Option (List Summary)
  | .compiled grammars => some grammars
  | _ => none

/-- The grammars that the last of some replies tells of, if one of them tells of any. -/
def ClientMessage.lastGrammars? (replies : List ClientMessage) : Option (List Summary) :=
  (replies.filterMap grammars?).getLast?

def Setup.summaries (u : Setup) : List Summary := u.compiled.grammars.map Grammar.summary

namespace Session

open ClientMessage (lastGrammars?)

/-- The session after several messages, and all replies to them. -/
def converse (s : Session) : List HostMessage → Session × List ClientMessage
  | [] => (s, [])
  | m :: ms => (((s.handle m).1.converse ms).1, (s.handle m).2 ++ ((s.handle m).1.converse ms).2)

variable {s next : Session} {replies : List ClientMessage}

theorem converse_fst (s : Session) (ms : List HostMessage) :
    (s.converse ms).1 = s.run (ms.map .message) := by
  induction ms generalizing s with
  | nil => rfl
  | cons m ms ih => exact ih (s.handle m).1

theorem not_isFailure_compiledReplies {compiled : Option GrammarSet} {r : ClientMessage}
    (h : r ∈ compiledReplies compiled) : ¬ r.IsFailure := by
  cases compiled with
  | none => simp [compiledReplies] at h
  | some grammars =>
    rw [List.mem_singleton.1 h]
    exact id

theorem Step.eq_of_isFailure (h : Step s next replies) {r : ClientMessage} (hr : r ∈ replies)
    (hfailure : r.IsFailure) : next = s := by
  cases h with
  | kept told => rfl
  | running isRunning =>
    rw [List.mem_singleton.1 hr] at hfailure
    exact hfailure.elim
  | changed _ _ _ greeted _ =>
    exfalso
    rcases List.mem_append.1 hr with hr | hr
    · rcases greeted with rfl | ⟨tag, rfl⟩
      · simp at hr
      · rw [List.mem_singleton.1 hr] at hfailure
        exact absurd hfailure (by simp [ClientMessage.IsFailure])
    · exact not_isFailure_compiledReplies hr hfailure

/-- A configuration that fails changes nothing. -/
theorem run_configure_of_error {source : Source} {rules : RuleSet} {locale : String} {e : Error}
    (h : ((configure source rules locale).run.run s).1 = .error e) :
    ((configure source rules locale).run.run s).2 = s := by
  rw [run_configure] at h ⊢
  cases hr : s.reconfigure source rules locale with
  | error e => rfl
  | ok r => simp [hr] at h

theorem lastGrammars?_append (old new : List ClientMessage) :
    lastGrammars? (old ++ new) = (lastGrammars? new).or (lastGrammars? old) := by
  unfold lastGrammars?
  rw [List.filterMap_append, List.getLast?_append]

theorem lastGrammars?_eq_none_iff :
    lastGrammars? replies = none ↔ ∀ gs, .compiled gs ∉ replies := by
  unfold lastGrammars?
  rw [List.getLast?_eq_none_iff, List.filterMap_eq_nil_iff]
  constructor
  · intro h gs hgs
    exact absurd (h _ hgs) (by simp [ClientMessage.grammars?])
  · intro h r hr
    cases r with
    | compiled gs => exact absurd hr (h gs)
    | _ => rfl

/-- The host has been told the grammars in force last, or there are none and it has been told of
none. -/
def Told (s : Session) (replies : List ClientMessage) : Prop :=
  lastGrammars? replies = s.setup.map Setup.summaries

theorem lastGrammars?_greeting {greeting : List ClientMessage} {compiled : Option GrammarSet}
    (h : greeting = [] ∨ ∃ tag, greeting = [.languageInit tag true ""]) :
    lastGrammars? (greeting ++ compiledReplies compiled) =
      compiled.map fun g => g.grammars.map Grammar.summary := by
  rcases h with rfl | ⟨tag, rfl⟩ <;> cases compiled <;> rfl

theorem Told.step {old : List ClientMessage} (ht : s.Told old) (h : Step s next replies) :
    next.Told (old ++ replies) := by
  unfold Told at *
  rw [lastGrammars?_append]
  cases h with
  | kept told => rw [lastGrammars?_eq_none_iff.2 told, Option.none_or, ht]
  | running isRunning => exact ht
  | changed _ _ _ greeted applied =>
    rw [lastGrammars?_greeting greeted]
    rcases apply_cases applied with ⟨-, rfl, rfl⟩ | ⟨_, _, grammars, -, -, rfl, hr⟩
    · exact ht
    · obtain ⟨u, -, rfl, rfl⟩ := reconfigure_eq_ok_iff.1 hr
      rfl

theorem Told.converse {old : List ClientMessage} (ht : s.Told old) (ms : List HostMessage) :
    (s.converse ms).1.Told (old ++ (s.converse ms).2) := by
  induction ms generalizing s old with
  | nil => simpa [Session.converse] using ht
  | cons m ms ih =>
    rw [Session.converse, ← List.append_assoc]
    exact ih (ht.step (step_handle s m))

theorem told_of_fresh {config : Config} (h : Fresh config s) : s.Told [] := by
  unfold Told
  rw [h.setup_eq]
  rfl

theorem Told.isSome_iff (h : s.Told replies) :
    s.setup.isSome ↔ ∃ gs, .compiled gs ∈ replies := by
  rw [← Option.isSome_map (f := Setup.summaries), ← h, Option.isSome_iff_ne_none, Ne,
    lastGrammars?_eq_none_iff]
  simp only [not_forall, not_not]

/-- A reply that tells of a failure, to a message or to a direct configuration, tells that nothing
has changed; and the grammars in force are exactly those that the host was told last. -/
theorem replies_tell_session {config : Config} {tag : Option String}
    (h : start config tag = .ok s) :
    (∀ calls m, ∀ r ∈ ((s.run calls).handle m).2, r.IsFailure →
        ((s.run calls).handle m).1 = s.run calls) ∧
      (∀ calls source rules locale e,
        ((configure source rules locale).run.run (s.run calls)).1 = .error e →
          ((configure source rules locale).run.run (s.run calls)).2 = s.run calls) ∧
      ∀ ms,
        lastGrammars? (s.converse ms).2 = (s.converse ms).1.setup.map Setup.summaries ∧
          ((s.converse ms).1.setup.isSome ↔ ∃ gs, .compiled gs ∈ (s.converse ms).2) := by
  refine ⟨?_, ?_, ?_⟩
  · intro calls m r hr hfailure
    exact (step_handle (s.run calls) m).eq_of_isFailure hr hfailure
  · intro calls source rules locale e he
    exact run_configure_of_error he
  · intro ms
    have ht : (s.converse ms).1.Told (s.converse ms).2 :=
      (told_of_fresh (fresh_of_start h)).converse ms
    exact ⟨ht, ht.isSome_iff⟩

/-- A locale without a lexicon fails both ways, and with a source and rules there are grammars. -/
theorem replies_tell_blank :
    (blank.handle (.language "fr-FR")).1 = blank ∧
      ((configure .empty .empty "fr-FR").run.run blank).2 = blank ∧
        ∃ gs, .compiled gs ∈
          (blank.converse [.source Decoder.delta, .running false, .rules .empty]).2 := by
  obtain ⟨hmessage, hdirect, hconverse⟩ := replies_tell_session start_standard
  refine ⟨?_, ?_, ?_⟩
  · have hreply : (blank.handle (.language "fr-FR")).2 =
        [.languageInit "fr-FR" false "Unsupported locale: fr-FR"] := rfl
    exact hmessage [] (.language "fr-FR") (.languageInit "fr-FR" false "Unsupported locale: fr-FR")
      (by rw [show blank.run [] = blank from rfl, hreply]; simp) rfl
  · exact hdirect [] .empty .empty "fr-FR" (.unsupportedLocale "fr-FR") rfl
  · obtain ⟨u, hu⟩ := exists_build_delta
    refine (hconverse [.source Decoder.delta, .running false, .rules .empty]).2.1 ?_
    have hrules := perform_rules_of_build
      (s := { blank with source := some Decoder.delta, running := false }) rfl hu
    rw [converse_fst, run, List.map_cons, List.map_cons, List.map_cons, List.map_nil,
      List.foldl_cons, List.foldl_cons, List.foldl_cons, List.foldl_nil,
      perform_source_of_rules rfl, perform_running, hrules]
    rfl

end Session

end Phraseology
