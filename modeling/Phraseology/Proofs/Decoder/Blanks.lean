import Phraseology.Proofs.Decoder.Found
import Phraseology.Proofs.NumberPhrase.Blanks

/-! In an ideographic script blanks make no difference to what is decoded, except that the keyword
of a runway that is not listed has to be in one piece. -/
namespace Phraseology

open Text

/-- Wherever the text has the keyword of a runway and a digit behind it, blanks apart, the keyword
is in one piece. -/
def Lexicon.KeywordWhole (l : Lexicon) (x : String) : Prop :=
  ∀ d ∈ l.digits, ∀ v ∈ x.toList.tails,
    l.runwayKeyword.toList ++ d.word.toList <+: v.filter (!isBlank ·) →
      l.runwayKeyword.toList <+: v.dropWhile isBlank

instance (l : Lexicon) (x : String) : Decidable (l.KeywordWhole x) :=
  inferInstanceAs (Decidable (∀ d ∈ l.digits, ∀ v ∈ x.toList.tails, _ → _))

namespace Decoder

variable {l : Lexicon} {s : Source} {e : Elements} {c : Config} {d : Decoder} {x y : String}

theorem isBlankText_iff (hscript : l.script = .ideographic) :
    isBlankText x = true ↔ l.kept x = [] := by
  rw [Lexicon.kept_eq_filter hscript, isBlankText, List.filter_eq_nil_iff, List.all_eq_true]
  simp

theorem isBlankText_eq (hscript : l.script = .ideographic) (h : l.kept x = l.kept y) :
    isBlankText x = isBlankText y := by
  rw [Bool.eq_iff_iff, isBlankText_iff hscript, isBlankText_iff hscript, h]

theorem mentions_eq (h : l.kept x = l.kept y) (name : String) :
    mentions l x name = mentions l y name := by
  rw [mentions, mentions, plainChars_eq l x, plainChars_eq l y, h]

theorem Made.aircraftOf?_eq (hmade : d.Made l s e c) (hscript : l.script = .ideographic)
    (h : l.kept x = l.kept y) : d.aircraftOf? x = d.aircraftOf? y := by
  simp only [aircraftOf?, hmade.lexicon_eq, hscript, plainChars_eq, h]

theorem Made.waypointOf?_eq (hmade : d.Made l s e c) (hscript : l.script = .ideographic)
    (h : l.kept x = l.kept y) (cat : Category) : d.waypointOf? cat x = d.waypointOf? cat y := by
  have hnamed : d.namedWaypointOf? x = d.namedWaypointOf? y := by
    simp only [namedWaypointOf?, hmade.lexicon_eq, mentions_eq h]
  have hspelled : d.spelledWaypointOf? x = d.spelledWaypointOf? y := by
    simp only [spelledWaypointOf?, hmade.lexicon_eq, hscript, plainChars_eq, h]
  unfold waypointOf?
  split
  · exact hnamed
  · exact hspelled
  · rfl

theorem exists_glyph (hl : l.Glyphs) :
    ∀ d ∈ l.digits, ∃ g, d.word.toList = [g] ∧ Ideograph g := by
  intro d hd
  obtain ⟨hlength, hideographic, -⟩ := hl.digits d hd
  obtain ⟨g, hg⟩ := List.length_eq_one_iff.1 hlength
  exact ⟨g, hg, hideographic g (by simp [hg])⟩

theorem Made.glyphic_heading (hmade : d.Made l s e c) (hl : l.Glyphs) : d.heading.Glyphic := by
  rw [hmade.heading_eq]
  exact ⟨hl.script_eq, hl.digits_ne, exists_glyph hl, by simp, by simp, (by decide : 1 ≤ 3), le_rfl⟩

/-- Sides have to be single ideographs, as digits are. -/
theorem Made.glyphic_runway (hmade : d.Made l s e c) (hl : l.Glyphs) (hne : l.directions ≠ [])
    (hsides : ∀ x ∈ l.directions, x.spoken.toList.length = 1) : d.runway.Glyphic := by
  rw [hmade.runway_eq]
  refine ⟨hl.script_eq, hl.digits_ne, exists_glyph hl, ?_, ?_, le_rfl, (by decide : 1 ≤ 2)⟩
  · rintro spellings ⟨⟩
    exact ⟨_, rfl, hl.keyword.2, hl.keyword.1⟩
  · rintro spellings ⟨⟩
    refine ⟨hne, fun x hx => ?_⟩
    obtain ⟨g, hg⟩ := List.length_eq_one_iff.1 (hsides x hx)
    exact ⟨g, hg, (hl.directions x hx g (by simp [hg])).isWordChar⟩

/-- What is found in two texts that are one without blanks says the same. -/
theorem said_find_eq {p : NumberPhrase} (hp : p.Glyphic) (hscript : l.script = .ideographic)
    (h : l.kept x = l.kept y) (hx : p.Whole x.toList) (hy : p.Whole y.toList) :
    (p.find x.toList).map NumberPhrase.Match.said =
      (p.find y.toList).map NumberPhrase.Match.said := by
  rw [← hp.said_find_filter hx, ← hp.said_find_filter hy, ← Lexicon.kept_eq_filter hscript,
    ← Lexicon.kept_eq_filter hscript, h]

theorem headingOf?_said (d : Decoder) (x : String) : d.headingOf? x =
    ((d.heading.find x.toList).map NumberPhrase.Match.said).getLast?.map fun m => m.2.1 := by
  rw [headingOf?, NumberPhrase.last?, List.getLast?_map, Option.map_map]
  rfl

theorem Made.headingOf?_eq (hmade : d.Made l s e c) (hl : l.Glyphs) (h : l.kept x = l.kept y) :
    d.headingOf? x = d.headingOf? y := by
  have hwhole (x : String) : d.heading.Whole x.toList := by
    intro spellings hspellings
    rw [hmade.heading_eq] at hspellings
    cases hspellings
  have hsaid := said_find_eq (hmade.glyphic_heading hl) hl.script_eq h (hwhole x) (hwhole y)
  rw [headingOf?_said, headingOf?_said, hsaid]

theorem runwayOf?_of_nil (h : d.runwaySpellings = []) (x : String) :
    d.runwayOf? x = ((d.runway.find x.toList).map NumberPhrase.Match.said).head?.map fun m =>
      m.2.1 ++ m.2.2.getD "" := by
  rw [runwayOf?, h, NumberPhrase.first?, List.head?_map, Option.map_map]
  cases (d.runway.find x.toList).head? <;> rfl

theorem Made.runwayOf?_eq (hmade : d.Made l s e c) (hl : l.Glyphs) (hne : l.directions ≠ [])
    (hsides : ∀ x ∈ l.directions, x.spoken.toList.length = 1) (h : l.kept x = l.kept y)
    (hkeyword : d.runwaySpellings = [] → l.KeywordWhole x ∧ l.KeywordWhole y) :
    d.runwayOf? x = d.runwayOf? y := by
  by_cases hlisted : d.runwaySpellings = []
  · have hwhole {x : String} (hx : l.KeywordWhole x) : d.runway.Whole x.toList := by
      rw [hmade.runway_eq]
      rintro spellings ⟨⟩ k hk
      obtain rfl := List.mem_singleton.1 hk
      exact hx
    obtain ⟨hx, hy⟩ := hkeyword hlisted
    have hsaid := said_find_eq (hmade.glyphic_runway hl hne hsides) hl.script_eq h (hwhole hx)
      (hwhole hy)
    rw [runwayOf?_of_nil hlisted, runwayOf?_of_nil hlisted, hsaid]
  · rw [runwayOf?, runwayOf?, if_neg (by simpa using hlisted), if_neg (by simpa using hlisted)]
    simp only [hmade.lexicon_eq, mentions_eq h]

theorem Made.glyphic_runway_mandarin (hmade : d.Made .mandarin s e c) : d.runway.Glyphic :=
  hmade.glyphic_runway Lexicon.glyphs_mandarin (by decide) (by decide)

/-- What is looked for in Mandarin to find a runway that is not listed. -/
abbrev mandarinRunway : NumberPhrase :=
  ⟨.ideographic, Lexicon.mandarin.digits, some [⟨"跑道", ""⟩], 1, 2,
    some Lexicon.mandarin.directions⟩

def guohang : Source := ⟨[⟨"国航", "CCA"⟩], [], [], List.nodup_nil, List.nodup_nil⟩

/-- The decoder of that source is small enough in Mandarin. -/
theorem exists_make_guohang (e : Elements) : ∃ d, make .mandarin guohang e .standard = .ok d :=
  exists_make_mandarin (by decide +kernel) (by decide +kernel) e

/-- Two texts that are one without blanks have the same aircraft, heading and waypoint, and the same
runway unless it is looked for by its keyword and the keyword is broken in one of them. -/
theorem fields_eq_of_compact_eq (h : make .mandarin s e c = .ok d)
    (hxy : Lexicon.mandarin.compact x = Lexicon.mandarin.compact y) (kind : ResultKind)
    (grammarName : String) :
    (d.decode kind grammarName x).aircraft = (d.decode kind grammarName y).aircraft ∧
      (d.decode kind grammarName x).heading = (d.decode kind grammarName y).heading ∧
      (d.decode kind grammarName x).waypoint = (d.decode kind grammarName y).waypoint ∧
      ((d.runwaySpellings = [] →
          Lexicon.mandarin.KeywordWhole x ∧ Lexicon.mandarin.KeywordWhole y) →
        (d.decode kind grammarName x).runway = (d.decode kind grammarName y).runway) := by
  have hmade := made_of_make h
  have hl := Lexicon.glyphs_mandarin
  have hkept : Lexicon.mandarin.kept x = Lexicon.mandarin.kept y := String.ofList_injective hxy
  unfold decode
  rw [isBlankText_eq hl.script_eq hkept]
  split_ifs
  · exact ⟨rfl, rfl, rfl, fun _ => rfl⟩
  · refine ⟨?_, ?_, ?_, fun hkeyword => ?_⟩
    · exact congrArg (·.getD "") (hmade.aircraftOf?_eq hl.script_eq hkept)
    · exact congrArg (·.getD "") (hmade.headingOf?_eq hl hkept)
    · exact congrArg (·.getD "") (hmade.waypointOf?_eq hl.script_eq hkept _)
    · exact congrArg (·.getD "")
        (hmade.runwayOf?_eq hl (by decide) (by decide) hkept hkeyword)

/-- Blanks around the words of a takeoff clearance. -/
theorem fields_eq_of_compact_guohang :
    ∃ e d, Elements.build .mandarin guohang .standard = .ok e ∧
      make .mandarin guohang e .standard = .ok d ∧ d.runwaySpellings = [] ∧
      Lexicon.mandarin.compact "国航幺两三跑道两拐左可以起飞" =
        Lexicon.mandarin.compact "国航 幺两 三 跑道 两 拐 左 可以起飞" ∧
      (d.decode .recognized "ATO0" "国航幺两三跑道两拐左可以起飞").aircraft =
        (d.decode .recognized "ATO0" "国航 幺两 三 跑道 两 拐 左 可以起飞").aircraft ∧
      (d.decode .recognized "ATO0" "国航幺两三跑道两拐左可以起飞").runway =
        (d.decode .recognized "ATO0" "国航 幺两 三 跑道 两 拐 左 可以起飞").runway := by
  obtain ⟨e, he, hmode⟩ : ∃ e, Elements.build .mandarin guohang .standard = .ok e ∧
      e.runwayMode = .procedural := ⟨_, rfl, rfl⟩
  obtain ⟨d, hd⟩ := exists_make_guohang e
  have hnone : d.runwaySpellings = [] := by
    rw [(made_of_make hd).runwaySpellings_eq, hmode]
    rfl
  have hcompact : Lexicon.mandarin.compact "国航幺两三跑道两拐左可以起飞" =
      Lexicon.mandarin.compact "国航 幺两 三 跑道 两 拐 左 可以起飞" := by decide +kernel
  obtain ⟨haircraft, -, -, hrunway⟩ := fields_eq_of_compact_eq hd hcompact .recognized "ATO0"
  exact ⟨e, d, he, hd, hnone, hcompact, haircraft,
    hrunway fun _ => ⟨by decide +kernel, by decide +kernel⟩⟩

/-- A blank inside the keyword loses the runway. -/
theorem runway_of_broken_keyword :
    ∃ e d, Elements.build .mandarin guohang .standard = .ok e ∧
      make .mandarin guohang e .standard = .ok d ∧
      Lexicon.mandarin.compact "国航幺两三跑道两拐左可以起飞" =
        Lexicon.mandarin.compact "国航幺两三跑 道两拐左可以起飞" ∧
      (d.decode .recognized "ATO0" "国航幺两三跑道两拐左可以起飞").runway = "27L" ∧
      (d.decode .recognized "ATO0" "国航幺两三跑 道两拐左可以起飞").runway = "" := by
  obtain ⟨e, he, hmode⟩ : ∃ e, Elements.build .mandarin guohang .standard = .ok e ∧
      e.runwayMode = .procedural := ⟨_, rfl, rfl⟩
  obtain ⟨d, hd⟩ := exists_make_guohang e
  have hmade := made_of_make hd
  have hnone : d.runwaySpellings = [] := by
    rw [hmade.runwaySpellings_eq, hmode]
    rfl
  have hphrase : d.runway = mandarinRunway := hmade.runway_eq
  have hp : mandarinRunway.Glyphic := hphrase ▸ hmade.glyphic_runway_mandarin
  have hrunway (x : String) (hx : isBlankText x = false) :
      (d.decode .recognized "ATO0" x).runway =
        ((mandarinRunway.saidFrom (Cursor.place [] x.toList)).head?.map fun m =>
          m.2.1 ++ m.2.2.getD "").getD "" := by
    rw [decode, if_neg (by simp [hx])]
    simp only [runwayOf?_of_nil hnone, hphrase, hp.said_find]
  refine ⟨e, d, he, hd, by decide +kernel, ?_, ?_⟩
  · have hskip := hp.saidFrom_append (u := "国航幺两三".toList) (s := "跑道两拐左可以起飞".toList)
      (by decide +kernel) []
    have hfound : (mandarinRunway.glyphsAt? "跑道两拐左可以起飞".toList).map
        (fun f => (f.match? mandarinRunway 0 0).map NumberPhrase.Match.said) =
          some (some (some "", "27", some "L")) := by
      decide +kernel
    obtain ⟨f, hf, hmatch⟩ := Option.map_eq_some_iff.1 hfound
    obtain ⟨u, t, -, -, -, hsaid⟩ := hp.saidFrom_of_some hf ("国航幺两三".toList.reverse ++ [])
    have htext : "国航幺两三跑道两拐左可以起飞".toList =
        "国航幺两三".toList ++ "跑道两拐左可以起飞".toList := by decide +kernel
    rw [hrunway _ (by decide +kernel), htext, hskip, Cursor.behind, hsaid, hmatch]
    rfl
  · have hskip := hp.saidFrom_append (u := "国航幺两三跑 道两拐左可以起飞".toList) (s := [])
      (by decide +kernel) []
    rw [List.append_nil, hp.saidFrom_nil] at hskip
    rw [hrunway _ (by decide +kernel), hskip]
    rfl

end Decoder

end Phraseology
