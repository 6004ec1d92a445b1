import Phraseology.Proofs.Decoder.Names

/-! What is spoken from a template with a named waypoint is decoded to that waypoint, unless the
words of one that is listed before it are there, too. -/
namespace Phraseology

open Text

structure NamedCall (s : Source) (e : Elements) (template : String) extends
    Call e .waypointNamed template where
  name : String
  name_mem : name ∈ s.waypoints

namespace NamedCall

variable {l : Lexicon} {s : Source} {c : Config} {e : Elements} {template : String}

def words (h : NamedCall s e template) : List String :=
  h.wordsBefore ++ (Text.words h.name ++ h.wordsAfter)

/-- The words of no waypoint that is listed before the spoken one are embedded in those of the call,
regardless of case. -/
def First (h : NamedCall s e template) : Prop :=
  ∀ v ∈ s.waypoints.takeWhile (· != h.name),
    ¬ Embedded (lowerWords v) (h.words.map (lowerChars ·.toList))

/-- The words that a grammar is spoken with are those of its calls. -/
theorem spoken_iff (helements : e.Built l s c) {locale : String} {cat : Category} {index : Nat}
    {ws : List String} (hmem : .element .waypointNamed ∈ Template.tokens template) :
    (Grammar.compile e locale cat template index).phrase.Spoken ws ↔
      ∃ h : NamedCall s e template, h.words = ws := by
  rw [Call.spoken_iff hmem]
  change (∃ (call : Call e .waypointNamed template) (vs : List String),
    e.waypointNamed.Spoken vs ∧ _) ↔ _
  rw [helements.waypointNamed_eq]
  constructor
  · rintro ⟨call, vs, hvs, rfl⟩
    obtain ⟨name, hname, rfl⟩ := Phrase.Uttered.oneOf_iff.1 hvs
    exact ⟨⟨call, name, hname⟩, rfl⟩
  · rintro ⟨h, rfl⟩
    exact ⟨h.toCall, Text.words h.name, Phrase.Uttered.oneOf_iff.2 ⟨h.name, h.name_mem, rfl⟩, rfl⟩

theorem unbroken (h : NamedCall s e template) : ∀ w ∈ h.words, Unbroken w.toList :=
  List.forall_mem_append.2 ⟨h.spoken_before.unbroken,
    List.forall_mem_append.2 ⟨unbroken_words h.name, h.spoken_after.unbroken⟩⟩

theorem lowerWords_eq (h : NamedCall s e template) :
    lowerWords (spokenText h.words) = h.words.map (lowerChars ·.toList) := by
  rw [Text.lowerWords_eq, words_spokenText h.unbroken]

theorem mentions_name (hscript : l.script = .spaced) (h : NamedCall s e template)
    (hname : SpacedOnce h.name) :
    Decoder.mentions l (spokenText h.words) h.name = true := by
  refine (Decoder.mentions_iff_embedded hscript hname (spacedOnce_spokenText h.unbroken)).2 ?_
  refine embedded_of_infix ?_
  rw [h.lowerWords_eq, Text.lowerWords_eq]
  exact List.IsInfix.map _ ⟨h.wordsBefore, h.wordsAfter, by simp [words]⟩

theorem find?_name (hscript : l.script = .spaced) (h : NamedCall s e template)
    (hname : SpacedOnce h.name) (hfirst : h.First) :
    (s.waypoints.find? fun w => Decoder.mentions l (spokenText h.words) w) = some h.name := by
  obtain ⟨after, hwaypoints⟩ :
      ∃ after, s.waypoints = s.waypoints.takeWhile (· != h.name) ++ h.name :: after := by
    have hsplit := List.takeWhile_append_dropWhile (p := (· != h.name)) (l := s.waypoints)
    cases hdrop : s.waypoints.dropWhile (· != h.name) with
    | nil => simpa using List.dropWhile_eq_nil_iff.1 hdrop h.name h.name_mem
    | cons w after =>
      have hw := List.head?_dropWhile_not (· != h.name) s.waypoints
      rw [hdrop] at hw hsplit
      obtain rfl : w = h.name := by simpa using hw
      exact ⟨after, hsplit.symm⟩
  refine List.find?_eq_some_iff_append.2
    ⟨h.mentions_name hscript hname, _, after, hwaypoints, fun v hv => ?_⟩
  rw [Bool.not_eq_true']
  by_contra hmentions
  have hembedded :=
    Decoder.embedded_of_mentions hscript (Bool.eq_true_of_not_eq_false hmentions)
  rw [h.lowerWords_eq] at hembedded
  exact hfirst v hv hembedded

theorem words_name_ne_nil (h : NamedCall s e template) (hname : SpacedOnce h.name)
    (hne : h.name ≠ "") : Text.words h.name ≠ [] := by
  intro hnil
  rw [SpacedOnce, hnil] at hname
  exact hne hname.symm

/-- A text that is spoken from a template with a named waypoint is decoded to the name of the
waypoint as it is listed, unless the words of one that is listed before it are embedded in those
that are spoken. -/
theorem name_of_call (hscript : l.script = .spaced)
    (hnames : ∀ w ∈ s.waypoints, SpacedOnce w ∧ w ≠ "") (hbuild : Elements.build l s c = .ok e)
    (hmem : .element .waypointNamed ∈ Template.tokens template) (locale : String) (index : Nat)
    {d : Decoder} (hmake : Decoder.make l s e c = .ok d) (kind : ResultKind)
    (hkind : kind ≠ .rejected) :
    (∀ ws, (Grammar.compile e locale .vectorToNamedWaypoint template index).phrase.Spoken ws ↔
        ∃ h : NamedCall s e template, h.words = ws) ∧
      ∀ h : NamedCall s e template, h.First →
        (d.decode kind (Grammar.nameOf .vectorToNamedWaypoint index)
          (spokenText h.words)).waypoint = h.name := by
  refine ⟨fun ws => spoken_iff (Elements.built_of_build hbuild) hmem, fun h hfirst => ?_⟩
  obtain ⟨hname, hne⟩ := hnames h.name h.name_mem
  obtain ⟨w, ws, hws⟩ := List.exists_cons_of_ne_nil (h.words_name_ne_nil hname hne)
  have hw : w ∈ h.words := by simp [words, hws]
  have hdecode : ¬ (kind = .rejected ∨ isBlankText (spokenText h.words) = true) := by
    rw [spokenText, isBlankText_join hw (h.unbroken w hw)]
    simpa using hkind
  rw [(Decoder.made_of_make hmake).waypoint_eq hdecode
    (Category.ofGrammarName_nameOf (by decide) index), h.find?_name hscript hname hfirst,
    Option.getD_some]

def cities : Source :=
  { Decoder.delta with
    waypoints := ["York", "Paris", "Three", "New York", "Tokyo"]
    waypoints_nodup := by decide }

def cityElements : Elements :=
  { Decoder.deltaElements with waypointNamed := Elements.waypointNamedPhrase cities }

theorem exists_make_cities :
    ∃ d, Decoder.make .english cities cityElements .standard = .ok d :=
  Decoder.exists_make_english (by decide +kernel) (by decide +kernel) cityElements

def direct (name : String) (hname : name ∈ cities.waypoints) :
    NamedCall cities cityElements "\x7bAircraft\x7d direct \x7bWaypointNamed\x7d" where
  before := [.element .aircraft, .literal "direct"]
  after := []
  tokens_eq := by cbv
  wordsBefore := ["Delta", "one", "two", "three", "direct"]
  wordsAfter := []
  spoken_before := .cons (.element Decoder.spoken_delta) (.cons (.text "direct") .nil)
  spoken_after := .nil
  name := name
  name_mem := hname

theorem name_of_paris : ∃ d, Decoder.make .english cities cityElements .standard = .ok d ∧
    spokenText (direct "Paris" (by decide)).words = "Delta one two three direct Paris" ∧
      (d.decode .recognized "AVD0" "Delta one two three direct Paris").waypoint = "Paris" := by
  obtain ⟨d, hd⟩ := exists_make_cities
  have hmem : .element .waypointNamed ∈
      Template.tokens "\x7bAircraft\x7d direct \x7bWaypointNamed\x7d" := by
    rw [(direct "Paris" (by decide)).tokens_eq]
    simp
  have htext :
      spokenText (direct "Paris" (by decide)).words = "Delta one two three direct Paris" := by
    decide +kernel
  -- Of the two that are in the text only the other one comes before it in the list.
  have hfirst : (direct "Paris" (by decide)).First := by
    intro v hv hembedded
    have hbefore : cities.waypoints.takeWhile (· != "Paris") = ["York"] := by decide
    obtain rfl : v = "York" := List.mem_singleton.1 (hbefore ▸ hv)
    rw [← lowerWords_eq] at hembedded
    have hmentions := (Decoder.mentions_iff_embedded (l := .english) rfl (by decide +kernel)
      (by decide +kernel)).2 hembedded
    rw [htext] at hmentions
    exact absurd hmentions (by decide +kernel)
  refine ⟨d, hd, htext, ?_⟩
  rw [← htext]
  exact (name_of_call rfl (by decide +kernel) rfl hmem "en-US" 0 hd .recognized (by decide)).2 _
    hfirst

/-- A waypoint that is listed before is decoded where it is part of the spoken one or one of the
digit words. -/
theorem name_of_listed_before :
    Category.vectorToNamedWaypoint.accepts "\x7bAircraft\x7d direct \x7bWaypointNamed\x7d" =
        true ∧
      Elements.build .english cities .standard = .ok cityElements ∧
      (cities.waypoints.map lowercase).Nodup ∧
      (∀ w ∈ cities.waypoints, (∀ v ∈ Text.words w, LetterWord v) ∧ SpacedOnce w ∧ w ≠ "" ∧
        Decoder.mentions .english "direct" w = false ∧
          ∀ a ∈ cities.airlines, Decoder.mentions .english a.name w = false) ∧
      spokenText (direct "New York" (by decide)).words = "Delta one two three direct New York" ∧
      spokenText (direct "Tokyo" (by decide)).words = "Delta one two three direct Tokyo" ∧
      ∃ d, Decoder.make .english cities cityElements .standard = .ok d ∧
        (d.decode .recognized "AVD0" "Delta one two three direct New York").waypoint = "York" ∧
          (d.decode .recognized "AVD0" "Delta one two three direct Tokyo").waypoint = "Three" := by
  obtain ⟨d, hd⟩ := exists_make_cities
  have hmade := Decoder.made_of_make hd
  refine ⟨by decide +kernel, rfl, by decide +kernel, by decide +kernel, by decide +kernel,
    by decide +kernel, d, hd, ?_, ?_⟩
  · rw [hmade.waypoint_eq (by decide +kernel) (by decide)]
    decide +kernel
  · rw [hmade.waypoint_eq (by decide +kernel) (by decide)]
    decide +kernel

end NamedCall

end Phraseology
