import Phraseology.Proofs.Decoder.SpelledRunway
import Phraseology.Proofs.Text.Embedded
import Phraseology.Proofs.Wire.Source

/-! Where words are separated by blanks, a listed name is found in a text when its words are embedded
in those of the text. -/
namespace Phraseology

open Text

/-- The text is its words with single spaces between them. -/
def Text.SpacedOnce (s : String) : Prop := spokenText (words s) = s

instance : DecidablePred SpacedOnce := fun _ => inferInstanceAs (Decidable (_ = _))

namespace Text

variable {s : String} {ws : List String}

theorem words_spokenText (h : ∀ w ∈ ws, Unbroken w.toList) : words (spokenText ws) = ws := by
  rw [words, spokenText, wordChars_intercalate h, List.map_map]
  simp [Function.comp_def]

theorem unbroken_words (s : String) : ∀ w ∈ words s, Unbroken w.toList := by
  intro w hw
  obtain ⟨u, hu, rfl⟩ := List.mem_map.1 hw
  rw [String.toList_ofList]
  exact unbroken_of_mem_wordChars hu

theorem spacedOnce_spokenText (h : ∀ w ∈ ws, Unbroken w.toList) : SpacedOnce (spokenText ws) := by
  rw [SpacedOnce, words_spokenText h]

theorem SpacedOnce.lowerChars_eq (hs : SpacedOnce s) :
    lowerChars (trimChars s.toList) = [' '].intercalate (lowerWords s) := by
  have htrim := (trimmed_intercalate (unbroken_words s)).trimChars_eq
  rw [← spokenText, hs] at htrim
  rw [htrim, lowerWords_eq, ← lowerChars_intercalate, ← spokenText, hs]

end Text

namespace Decoder

variable {l : Lexicon} {s : Source} {e : Elements} {c : Config} {d : Decoder} {kind : ResultKind}
  {text name : String}

theorem plainChars_of_spaced (hscript : l.script = .spaced) (x : String) :
    plainChars l x = lowerChars (trimChars x.toList) := by
  rw [plainChars, Lexicon.compactChars, hscript]

/-- The words of a name that is found are embedded in the text. -/
theorem embedded_of_mentions (hscript : l.script = .spaced) (h : mentions l text name = true) :
    Embedded (lowerWords name) (lowerWords text) := by
  rw [mentions, occursIn_iff, plainChars_of_spaced hscript, plainChars_of_spaced hscript] at h
  have hwords (x : String) : wordChars (lowerChars (trimChars x.toList)) = lowerWords x := by
    rw [wordChars_lowerChars, wordChars_trimChars, lowerWords]
  have hembedded := (trimmed_trimChars name.toList).lowerChars.embedded h
  rwa [hwords, hwords] at hembedded

/-- With single spaces between the words nothing else counts. -/
theorem mentions_iff_embedded (hscript : l.script = .spaced) (hname : SpacedOnce name)
    (htext : SpacedOnce text) :
    mentions l text name = true ↔ Embedded (lowerWords name) (lowerWords text) := by
  refine ⟨embedded_of_mentions hscript, fun h => ?_⟩
  rw [mentions, occursIn_iff, plainChars_of_spaced hscript, plainChars_of_spaced hscript,
    hname.lowerChars_eq, htext.lowerChars_eq]
  exact h.intercalate [' ']

theorem eq_some_of_getD {o : Option String} {w : String} (hw : w ≠ "") (h : o.getD "" = w) :
    o = some w := by
  cases o with
  | none => exact absurd h.symm hw
  | some v => exact congrArg some h

theorem namedWaypointOf?_of_decode {grammarName w : String}
    (hname : Category.ofGrammarName grammarName = .vectorToNamedWaypoint) (hw : w ≠ "")
    (h : (d.decode kind grammarName text).waypoint = w) : d.namedWaypointOf? text = some w := by
  unfold decode at h
  split_ifs at h
  · exact absurd h.symm hw
  · rw [hname] at h
    exact eq_some_of_getD hw h

theorem runwayOf?_of_decode {grammarName name : String} (hne : name ≠ "")
    (h : (d.decode kind grammarName text).runway = name) : d.runwayOf? text = some name := by
  unfold decode at h
  split_ifs at h
  · exact absurd h.symm hne
  · exact eq_some_of_getD hne h

/-- A waypoint is decoded to the first of the list that is mentioned. -/
theorem Made.waypoint_eq (hmade : d.Made l s e c)
    (hdecode : ¬ (kind = .rejected ∨ isBlankText text = true)) {grammarName : String}
    (hname : Category.ofGrammarName grammarName = .vectorToNamedWaypoint) :
    (d.decode kind grammarName text).waypoint =
      (s.waypoints.find? fun w => mentions l text w).getD "" := by
  rw [decode, if_neg hdecode, hname, ← hmade.waypoints_eq, ← hmade.lexicon_eq]
  rfl

/-- The words stand one after another in a text. The first may be the end of a longer word there and
the last the beginning of one, but if no longer word has them in it, they are whole words. -/
structure StandIn (text : String) (us : List (List Char)) : Prop where
  embedded : Embedded us (lowerWords text)
  whole : (∀ u ∈ us.head?, ∀ w ∈ lowerWords text, u <:+: w → w = u) →
    (∀ u ∈ us.getLast?, ∀ w ∈ lowerWords text, u <:+: w → w = u) → us <:+: lowerWords text

theorem standIn_of_mentions (hscript : l.script = .spaced) (h : mentions l text name = true) :
    StandIn text (lowerWords name) :=
  ⟨embedded_of_mentions hscript h, (embedded_of_mentions hscript h).whole⟩

/-- A listed runway or a waypoint that is decoded in English stands in the text with all its words,
regardless of case. -/
theorem standIn_of_decode (hbuild : Elements.build .english s c = .ok e)
    (hmake : make .english s e c = .ok d) (kind : ResultKind) (grammarName text : String) :
    (s.runways ≠ [] → ∀ r : Runway, (d.decode kind grammarName text).runway = r.name →
      r ∈ s.runways ∧ StandIn text (lowerWords (Lexicon.english.runwaySpoken r))) ∧
    (Category.ofGrammarName grammarName = .vectorToNamedWaypoint → ∀ w, w ≠ "" →
      (d.decode kind grammarName text).waypoint = w →
        w ∈ s.waypoints ∧ StandIn text (lowerWords w)) := by
  have hmade := made_of_make hmake
  constructor
  · intro hne r hr
    have hl := Lexicon.spells_english
    have hlisted := hmade.listed hl (Elements.built_of_build hbuild).mode hne
    have hrunway := runwayOf?_of_decode (Runway.name_ne_empty r) hr
    rw [hlisted.runwayOf?_eq] at hrunway
    obtain ⟨x, hfound, hname⟩ := Option.map_eq_some_iff.1 hrunway
    have hx := List.mem_of_find?_eq_some hfound
    have hmentions : mentions .english text x.spoken = true :=
      List.find?_some (p := fun x : RunwaySpelling => mentions .english text x.spoken) hfound
    obtain rfl : x.runway = r := Runway.name_injective hname
    refine ⟨hlisted.runway_mem x hx, ?_⟩
    rw [← hlisted.spoken_eq x hx]
    exact standIn_of_mentions rfl hmentions
  · intro hname w hne hw
    have hwaypoint := namedWaypointOf?_of_decode hname hne hw
    rw [namedWaypointOf?, hmade.waypoints_eq, hmade.lexicon_eq] at hwaypoint
    have hmentions : mentions .english text w = true :=
      List.find?_some (p := fun w : String => mentions .english text w) hwaypoint
    exact ⟨List.mem_of_find?_eq_some hwaypoint, standIn_of_mentions rfl hmentions⟩

def nineRoss : Source :=
  { delta with
    waypoints := ["Ross"]
    waypoints_nodup := List.nodup_singleton _
    runways := [⟨Fin.last 9, none, none⟩]
    runways_nodup := List.nodup_singleton _ }

theorem exists_made_nineRoss : ∃ e d, Elements.build .english nineRoss .standard = .ok e ∧
    make .english nineRoss e .standard = .ok d ∧ d.Listed .english nineRoss := by
  have hl := Lexicon.spells_english
  have hne : nineRoss.runways ≠ [] := List.cons_ne_nil _ _
  have hbuild : Elements.build .english nineRoss .standard = .ok _ :=
    bind_eq_ok_iff.2 ⟨_, hl.modeOf_eq hne, rfl⟩
  obtain ⟨d, hd⟩ := exists_make_english (s := nineRoss) (by decide +kernel) (by decide +kernel) _
  exact ⟨_, d, hbuild, hd,
    (made_of_make hd).listed hl (Elements.built_of_build hbuild).mode hne⟩

theorem standIn_of_decode_nineRoss : ∃ e d,
    Elements.build .english nineRoss .standard = .ok e ∧
      make .english nineRoss e .standard = .ok d ∧
      (d.decode .recognized "ALD0" "Delta one two three cleared to land Runway nine").runway = "9" ∧
      lowerWords "Runway nine" <:+:
        lowerWords "Delta one two three cleared to land Runway nine" ∧
      (d.decode .recognized "AVD0" "Delta one two three direct Ross").waypoint = "Ross" ∧
      lowerWords "Ross" <:+: lowerWords "Delta one two three direct Ross" := by
  obtain ⟨e, d, he, hd, hlisted⟩ := exists_made_nineRoss
  have hname : Runway.name ⟨Fin.last 9, none, none⟩ = "9" := by decide +kernel
  have hspoken : Lexicon.english.runwaySpoken ⟨Fin.last 9, none, none⟩ = "Runway nine" := by
    decide +kernel
  have hrunway : (d.decode .recognized "ALD0"
      "Delta one two three cleared to land Runway nine").runway =
        Runway.name ⟨Fin.last 9, none, none⟩ := by
    refine hlisted.runway_of_contains Lexicon.spells_english (by decide) (by simp [nineRoss])
      (occursIn_iff.1 (by decide +kernel)) (fun r hr hdiffer => ?_) "ALD0"
    exact absurd (by rw [List.mem_singleton.1 hr]) hdiffer
  have hwaypoint :
      (d.decode .recognized "AVD0" "Delta one two three direct Ross").waypoint = "Ross" := by
    rw [(made_of_make hd).waypoint_eq (by decide +kernel) (by decide)]
    decide +kernel
  obtain ⟨-, hrunwayStands⟩ :=
    (standIn_of_decode he hd .recognized "ALD0"
      "Delta one two three cleared to land Runway nine").1 (by simp [nineRoss]) _ hrunway
  obtain ⟨-, hwaypointStands⟩ :=
    (standIn_of_decode he hd .recognized "AVD0" "Delta one two three direct Ross").2 (by decide)
      "Ross" (by decide) hwaypoint
  rw [hspoken] at hrunwayStands
  exact ⟨e, d, he, hd, hrunway.trans hname,
    hrunwayStands.whole (by decide +kernel) (by decide +kernel), hwaypoint,
    hwaypointStands.whole (by decide +kernel) (by decide +kernel)⟩

/-- What is decoded need not be said: the runway is in the word nineteen, the waypoint in the word
across. -/
theorem decode_within_words : ∃ e d,
    Elements.build .english nineRoss .standard = .ok e ∧
      make .english nineRoss e .standard = .ok d ∧
      (d.decode .recognized "ALD0" "Delta one two three cleared to land Runway nineteen").runway =
        "9" ∧
      (∀ r : Runway, r.name = "9" → ¬ lowerWords (Lexicon.english.runwaySpoken r) <:+:
        lowerWords "Delta one two three cleared to land Runway nineteen") ∧
      (d.decode .recognized "AVD0" "Delta one two three proceed across the bay").waypoint =
        "Ross" ∧
      ¬ lowerWords "Ross" <:+: lowerWords "Delta one two three proceed across the bay" := by
  obtain ⟨e, d, he, hd, hlisted⟩ := exists_made_nineRoss
  have hname : Runway.name ⟨Fin.last 9, none, none⟩ = "9" := by decide +kernel
  refine ⟨e, d, he, hd, ?_, fun r hr => ?_, ?_, by decide +kernel⟩
  · rw [← hname]
    refine hlisted.runway_of_contains Lexicon.spells_english (by decide) (by simp [nineRoss])
      (occursIn_iff.1 (by decide +kernel)) (fun r hr hdiffer => ?_) "ALD0"
    exact absurd (by rw [List.mem_singleton.1 hr]) hdiffer
  · obtain rfl := Runway.name_injective (hr.trans hname.symm)
    decide +kernel
  · rw [(made_of_make hd).waypoint_eq (by decide +kernel) (by decide)]
    decide +kernel

end Decoder

end Phraseology
