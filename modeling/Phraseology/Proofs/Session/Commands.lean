import Phraseology.Proofs.Decoder.AirlineCode
import Phraseology.Proofs.Decoder.FlyHeading
import Phraseology.Proofs.Decoder.Formed
import Phraseology.Proofs.Session.Transcript

/-! What a session decodes gives a command unless something is missing, or the code of the airline
is not a single word. -/
namespace Phraseology

open Text

namespace Session

variable {config : Config} {tag : Option String} {s : Session} {u : Setup} {r : Decoded}

def Decodes (s : Session) (r : Decoded) : Prop :=
  (∃ heard, s.decode heard = .ok r) ∨ ∃ text, s.decodeTranscript text = .ok r

theorem Decodes.exists_eq (h : s.Decodes r) (hu : s.setup = some u) :
    ∃ kind grammarName text, r = u.decoder.decode kind grammarName text := by
  rcases h with ⟨heard, h⟩ | ⟨text, h⟩
  · rw [decode, hu] at h
    exact ⟨_, _, _, (Except.ok.inj h).symm⟩
  · rw [decodeTranscript, hu] at h
    exact ⟨_, _, _, (Except.ok.inj h).symm⟩

/-- In a session in English or Mandarin, whatever it has been through, the aircraft of a complete
result is the code of an airline and a flight number, and the result gives its command exactly when
this code is a single word. In English no digit word may differ from the listed one by more than
lowercase undoes. -/
theorem command_of_complete (hstart : start config tag = .ok s) (calls : List Call)
    (hu : (s.run calls).setup = some u)
    (hlexicon : u.lexicon = .english ∨ u.lexicon = .mandarin) (hr : (s.run calls).Decodes r)
    (hcomplete : r.Complete)
    (hfaithful : u.lexicon = .english →
      Faithful (Lexicon.english.digits.map DigitWord.word) r.message.toList) :
    ∃ a ∈ u.source.airlines, ∃ flight : String, flight ≠ "" ∧ isDigits flight.toList = true ∧
      r.aircraft = a.code ++ " " ++ flight ∧
        ((∃ c, r.command? = some c ∧ r.Tells c) ↔ Unbroken a.code.toList) := by
  have hmade := Decoder.made_of_make (built_of_start hstart hu).make_decoder
  obtain ⟨kind, grammarName, text, rfl⟩ := hr.exists_eq hu
  rw [Decoder.message_of_grammar_ne hcomplete.grammar_ne] at hfaithful
  have hlegible : u.lexicon.Legible := by
    rcases hlexicon with h | h
    · exact h ▸ Lexicon.legible_english
    · exact h ▸ Lexicon.legible_mandarin
  have hcase : Faithful (u.lexicon.digits.map DigitWord.word) text.toList := by
    rcases hlexicon with h | h
    · rw [h]
      exact hfaithful h
    · rw [h]
      exact Lexicon.glyphs_mandarin.faithful_digits text.toList
  exact hcomplete.command_iff (hmade.formed hlegible hcase (validate_of_start hstart) grammarName)

def configured (source : Source) : Session := blank.run [.configure source .empty "en-US"]

theorem exists_setup_configured {source : Source} {e : Elements}
    (he : Elements.build .english source .standard = .ok e)
    (hd : ∃ d, Decoder.make .english source e .standard = .ok d) :
    ∃ u, (configured source).setup = some u ∧ u.lexicon = .english ∧ u.source = source ∧
      ∃ e, u.decoder.Made .english source e .standard := by
  obtain ⟨u, hu, hlexicon⟩ := exists_build_english builtin_get_english he hd
  have hbuilt := Setup.build_eq_ok_iff.1 hu
  refine ⟨u, ?_, hlexicon, hbuilt.source_eq, u.elements, ?_⟩
  · rw [configured, run, List.foldl_cons, List.foldl_nil,
      perform_configure_of_build (s := blank) hu]
    rfl
  · rw [← hlexicon]
    exact Decoder.made_of_make hbuilt.make_decoder

/-- The heading is given to the aircraft. -/
theorem command_turnLeft :
    ∃ r c, (configured Decoder.delta).decode
        ⟨"AFH0", HeadingCall.turnLeft.text, Recognizer.one, .recognized⟩ = .ok r ∧
      r.aircraft = "DLT 123" ∧ r.heading = "090" ∧ r.command? = some c ∧ r.Tells c := by
  obtain ⟨u, hu, hlexicon, hsource, e, hmade⟩ :=
    exists_setup_configured Decoder.build_deltaElements (Decoder.exists_make_delta _)
  have hblank : isBlankText HeadingCall.turnLeft.text = false := by decide +kernel
  have hdecode : ¬ (ResultKind.recognized = .rejected ∨
      isBlankText HeadingCall.turnLeft.text = true) := by simp [hblank]
  set r := u.decoder.decode .recognized "AFH0" HeadingCall.turnLeft.text
  have haircraft : r.aircraft = "DLT 123" :=
    hmade.aircraft_of_said rfl hdecode (HeadingCall.turnLeft.first?_aircraft (by decide)
      (fun a ha => (HeadingCall.names_delta a ha).1) HeadingCall.apart_turnLeft) "AFH0"
  have hheading : r.heading = "090" :=
    hmade.heading_of_said hdecode (HeadingCall.turnLeft.last?_heading HeadingCall.apart_turnLeft)
      "AFH0"
  obtain ⟨hkind, hgrammar⟩ : r.kind = .recognized ∧ r.grammar = .flyHeading :=
    u.decoder.decode_recognized hblank "AFH0"
  have hcomplete : r.Complete := by
    refine ⟨by simp [hkind], by simp [hgrammar], ?_, fun _ => ?_⟩
    · simp [hgrammar, Category.required, Decoded.field, haircraft, hheading]
    · rw [hheading]
      decide
  have hresult : (configured Decoder.delta).decode
      ⟨"AFH0", HeadingCall.turnLeft.text, Recognizer.one, .recognized⟩ = .ok r := by
    rw [decode, hu]
  obtain ⟨a, ha, -, -, -, -, hiff⟩ := command_of_complete start_standard
    [.configure Decoder.delta .empty "en-US"] hu (.inl hlexicon) (.inl ⟨_, hresult⟩) hcomplete
    fun _ => by
      rw [Decoder.message_of_grammar_ne hcomplete.grammar_ne]
      exact faithful_of_ascii (by decide +kernel) (by decide +kernel)
  rw [hsource] at ha
  obtain rfl := List.mem_singleton.1 ha
  have hcode : PlainWord "DLT".toList := by decide +kernel
  obtain ⟨c, hc, htells⟩ := hiff.2 hcode.unbroken
  exact ⟨r, c, hresult, haircraft, hheading, hc, htells⟩

def parted : Source := ⟨[⟨"Delta", "D LT"⟩], [], [], List.nodup_nil, List.nodup_nil⟩

/-- With such a code there is an aircraft, but it is not read back as a callsign. -/
theorem no_command_of_parted :
    ∃ u r, (configured parted).setup = some u ∧ u.lexicon = .english ∧
      (configured parted).decode ⟨"AGS0", "Delta one two three", Recognizer.one, .recognized⟩ = .ok r ∧
        r.Complete ∧ r.aircraft = "D LT 123" ∧ r.command? = none := by
  obtain ⟨e, he⟩ : ∃ e, Elements.build .english parted .standard = .ok e := ⟨_, rfl⟩
  obtain ⟨u, hu, hlexicon, -, _, hmade⟩ :=
    exists_setup_configured he (Decoder.exists_make_english (by decide +kernel) (by decide +kernel) e)
  set r := u.decoder.decode .recognized "AGS0" "Delta one two three"
  obtain ⟨hkind, hgrammar⟩ : r.kind = .recognized ∧ r.grammar = .status :=
    u.decoder.decode_recognized (by decide) "AGS0"
  have hvs : ["one", "two", "three"].map Lexicon.english.digitValue? = [1, 2, 3].map some := by
    decide +kernel
  have hnames : ∀ a ∈ parted.airlines, PlainWord a.name.toList := by decide +kernel
  have haircraft : r.aircraft = "D LT 123" :=
    hmade.aircraft_flight hnames (w := "Delta") (by decide +kernel) hvs rfl (by decide) "AGS0"
  refine ⟨u, r, hu, hlexicon, ?_, ?_, haircraft, ?_⟩
  · rw [decode, hu]
  · refine ⟨by simp [hkind], by simp [hgrammar], ?_, by simp [hgrammar]⟩
    simp [hgrammar, Category.required, Decoded.field, haircraft]
  · rw [Option.eq_none_iff_forall_ne_some]
    intro c hc
    have hparse := (Decoded.command?_eq_some_iff.1 hc).2.1
    rw [haircraft] at hparse
    obtain ⟨hwords, -⟩ := Callsign.exists_of_parse hparse
    have hthree : (wordChars "D LT 123".toList).length = 3 := by decide
    rw [hwords] at hthree
    cases hthree

end Session

end Phraseology
