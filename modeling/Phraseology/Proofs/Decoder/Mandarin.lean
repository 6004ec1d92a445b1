import Phraseology.Proofs.Decoder.Blanks
import Phraseology.Proofs.Elements
import Phraseology.Proofs.NumberPhrase.GlyphScan

/-! Headings and runways that are not listed are read from a Mandarin text character by
character. -/
namespace Phraseology

open Text

def Text.solid (s : List Char) : List Char := s.filter (!isBlank ·)

namespace Lexicon

def glyphValue? (l : Lexicon) (c : Char) : Option Nat :=
  (l.digits.find? fun d => d.word.toList == [c]).map DigitWord.value

def glyphCode? (l : Lexicon) (c : Char) : Option String :=
  (l.directions.find? fun x => x.spoken.toList == [c]).map Spelling.code

def glyphNumerals (l : Lexicon) (s : List Char) : String :=
  String.ofList (s.filterMap fun c => (l.glyphValue? c).map numeral)

/-- The runs of digits, whatever blanks are between them. -/
def digitRuns (l : Lexicon) (s : List Char) : List (List Char) :=
  (solid s).splitOnP fun c => !(l.glyphValue? c).isSome

/-- What comes behind the first keyword that a digit comes behind, without blanks. -/
def behindKeyword? (l : Lexicon) (s : List Char) : Option (List Char) :=
  s.tails.findSome? fun v => ((l.runwayKeyword.toList.isPrefixOf? v).map solid).filter fun t =>
    t.head?.any fun c => (l.glyphValue? c).isSome

/-- The numerals of one or two digits and the code of the direction behind them, if there is one. -/
def runwayAhead (l : Lexicon) (t : List Char) : String :=
  let digits := (t.takeWhile fun c => (l.glyphValue? c).isSome).take 2
  l.glyphNumerals digits ++ ((t.drop digits.length).head?.bind l.glyphCode?).getD ""

end Lexicon

namespace Text

variable {u w : List Char} {c : Char}

/-- Ideographs are a single character in lowercase only if they are that character. -/
theorem Ideographic.lowerChars_eq_iff (hw : Ideographic w) :
    lowerChars w = lowerChars [c] ↔ w = [c] := by
  refine ⟨fun h => ?_, fun h => by rw [h]⟩
  have hlower : lowerChars [c] = lowerIn [] c [] := List.append_nil _
  rw [hw.lowerChars_eq, hlower] at h
  obtain ⟨g, t, hg⟩ := List.exists_cons_of_ne_nil (lowerIn_ne_nil [] c [])
  have hideograph : Ideograph g := hw g (by rw [h, hg]; simp)
  obtain rfl : c = g := hideograph.eq_of_mem_lowerIn (b := []) (s := []) (by rw [hg]; simp)
  rw [h, hideograph.lowerIn_eq]

end Text

namespace Lexicon.Glyphs

variable {l : Lexicon} {p : NumberPhrase}

theorem digitValue?_eq (hl : l.Glyphs) (hp : p.digits = l.digits) (c : Char) :
    p.digitValue? [c] = l.glyphValue? c := by
  rw [NumberPhrase.digitValue?, glyphValue?, hp]
  congr 1
  refine List.find?_congr fun d hd => ?_
  rw [Bool.eq_iff_iff, beq_iff_eq, beq_iff_eq, (hl.digits d hd).2.1.lowerChars_eq_iff]

theorem isDigitGlyph_eq (hl : l.Glyphs) (hp : p.digits = l.digits) :
    p.isDigitGlyph = fun c => (l.glyphValue? c).isSome := by
  funext c
  rw [Bool.eq_iff_iff, NumberPhrase.isDigitGlyph, NumberPhrase.isDigitWord_eq_true_iff, glyphValue?,
    Option.isSome_map, List.find?_isSome, hp]
  constructor
  · rintro ⟨d, hd, halike⟩
    exact ⟨d, hd, beq_iff_eq.2 ((hl.digits d hd).2.1.eq_of_alike halike).symm⟩
  · rintro ⟨d, hd, hword⟩
    exact ⟨d, hd, by rw [beq_iff_eq.1 hword]; exact .refl [c]⟩

theorem glyphValues_eq (hl : l.Glyphs) (hp : p.digits = l.digits) (s : List Char) :
    p.glyphValues s = l.glyphNumerals s := by
  rw [NumberPhrase.glyphValues, NumberPhrase.values, List.filterMap_map, glyphNumerals]
  simp only [Function.comp_def, hl.digitValue?_eq hp]

theorem codeFor?_eq (hl : l.Glyphs) (c : Char) :
    Spelling.codeFor? l.directions (String.ofList [c]) = l.glyphCode? c := by
  rw [Spelling.codeFor?, glyphCode?]
  refine congrArg (Option.map Spelling.code) (List.find?_congr fun x hx => ?_)
  rw [Bool.eq_iff_iff, beq_iff_eq, beq_iff_eq, lowercase, lowercase, String.ofList_inj,
    String.toList_ofList, (hl.directions x hx).lowerChars_eq_iff]

theorem codeBehind?_eq (hl : l.Glyphs) (hp : p.trailing = some l.directions) (t : List Char) :
    p.codeBehind? t = t.head?.bind l.glyphCode? := by
  cases t with
  | nil => simp [NumberPhrase.codeBehind?, NumberPhrase.takeTrailing, hp, glyphs,
      NumberPhrase.codeOf?]
  | cons c t =>
    cases hc : isWordChar c with
    | true =>
      have htake : (p.takeTrailing (glyphs (c :: t))).1 = some [c] := by
        simp [NumberPhrase.takeTrailing, hp, glyphs_word hc]
      rw [NumberPhrase.codeBehind?, htake, hp]
      exact hl.codeFor?_eq c
    | false =>
      have hnone : l.glyphCode? c = none := by
        rw [glyphCode?, Option.map_eq_none_iff, List.find?_eq_none]
        intro x hx hspoken
        have hideograph := hl.directions x hx c (by rw [beq_iff_eq.1 hspoken]; simp)
        rw [hideograph.isWordChar] at hc
        cases hc
      have htake : (p.takeTrailing (glyphs (c :: t))).1 = none := by
        simp [NumberPhrase.takeTrailing, hp, glyphs_other hc]
      rw [NumberPhrase.codeBehind?, htake, hp, List.head?_cons, Option.bind_some, hnone]
      rfl

end Lexicon.Glyphs

namespace Decoder

variable {l : Lexicon} {s : Source} {e : Elements} {c : Config} {d : Decoder} {x : String}

/-- A heading is the last group of three of the last run that has one. -/
theorem Made.headingOf?_scan (hmade : d.Made l s e c) (hl : l.Glyphs) (x : String) :
    d.headingOf? x = (((l.digitRuns x.toList).filter (3 ≤ ·.length)).getLast?.bind fun run =>
      (threes run).getLast?).map l.glyphNumerals := by
  have hp := hmade.glyphic_heading hl
  have htriple : d.heading.Triple := by
    rw [hmade.heading_eq]
    exact ⟨rfl, rfl, rfl, rfl⟩
  have hdigits : d.heading.digits = l.digits := by rw [hmade.heading_eq]
  have hwhole : d.heading.Whole x.toList := by
    intro spellings hspellings
    rw [htriple.leading_eq] at hspellings
    cases hspellings
  have hsolid : ∀ c ∈ solid x.toList, isBlank c = false := fun c hc => by
    simpa using (List.mem_filter.1 hc).2
  have hsaid : (d.heading.find x.toList).map NumberPhrase.Match.said =
      ((l.digitRuns x.toList).flatMap threes).map d.heading.saidOf := by
    rw [← hp.said_find_filter hwhole, hp.said_find, ← solid, htriple.saidFrom_eq hp hsolid,
      hl.isDigitGlyph_eq hdigits]
    rfl
  rw [headingOf?_said, hsaid, List.getLast?_map, getLast?_flatMap_threes, Option.map_map]
  congr 1
  funext group
  exact hl.glyphValues_eq hdigits group

theorem said_eq_runwayAhead (hl : l.Glyphs) {p : NumberPhrase} (hdigits : p.digits = l.digits)
    (htrailing : p.trailing = some l.directions) (hmax : p.max = 2) (t : List Char) :
    ((p.saidBehind? "" t).map fun m => m.2.1 ++ m.2.2.getD "") =
      ((some (solid t)).filter fun t => t.head?.any fun c => (l.glyphValue? c).isSome).map
        l.runwayAhead := by
  have hahead : p.digitsAhead p.max (solid t) =
      ((solid t).takeWhile fun c => (l.glyphValue? c).isSome).take 2 := by
    rw [NumberPhrase.digitsAhead, hmax, hl.isDigitGlyph_eq hdigits]
  rw [NumberPhrase.saidBehind?, ← solid, hahead]
  cases hsolid : solid t with
  | nil => rfl
  | cons c u =>
    cases hc : (l.glyphValue? c).isSome with
    | false => simp [hc]
    | true =>
      have hne : ((c :: u).takeWhile fun c => (l.glyphValue? c).isSome).take 2 ≠ [] := by
        simp [hc]
      have hfilter : (some (c :: u)).filter (fun t =>
          t.head?.any fun c => (l.glyphValue? c).isSome) = some (c :: u) := by
        simp [hc]
      rw [hfilter]
      simp only [if_neg hne, Option.map_some, hl.glyphValues_eq hdigits,
        hl.codeBehind?_eq htrailing]
      rfl

/-- A runway that is not listed is read behind the first keyword that a digit comes behind. -/
theorem Made.runwayOf?_scan (hmade : d.Made l s e c) (hl : l.Glyphs) (hne : l.directions ≠ [])
    (hsides : ∀ x ∈ l.directions, x.spoken.toList.length = 1) (hnone : d.runwaySpellings = [])
    (x : String) : d.runwayOf? x = (l.behindKeyword? x.toList).map l.runwayAhead := by
  have hp := hmade.glyphic_runway hl hne hsides
  have hled : d.runway.Led l.runwayKeyword.toList "" := by
    rw [hmade.runway_eq]
    refine ⟨⟨_, rfl, rfl⟩, ?_, rfl⟩
    rw [NumberPhrase.codeOf?_some, String.ofList_toList, Spelling.codeFor?]
    simp
  have hdigits : d.runway.digits = l.digits := by rw [hmade.runway_eq]
  have htrailing : d.runway.trailing = some l.directions := by rw [hmade.runway_eq]
  have hmax : d.runway.max = 2 := by rw [hmade.runway_eq]
  rw [runwayOf?_of_nil hnone, hp.said_find, hled.head?_saidFrom hp, List.map_findSome?,
    Lexicon.behindKeyword?, List.map_findSome?]
  congr 1
  funext v
  cases hv : l.runwayKeyword.toList.isPrefixOf? v with
  | none => simp [hv]
  | some t => simpa [hv] using said_eq_runwayAhead hl hdigits htrailing hmax t

theorem glyphNumerals_ne_empty {s run group : List Char} (hrun : run ∈ l.digitRuns s)
    (hgroup : group ∈ threes run) : l.glyphNumerals group ≠ "" := by
  obtain ⟨a, b, c, rfl, ha, -, -⟩ := exists_of_mem_threes hgroup
  have hdigit : (l.glyphValue? a).isSome = true :=
    of_mem_splitOnP (q := fun c => (l.glyphValue? c).isSome) hrun ha
  obtain ⟨n, hn⟩ := Option.isSome_iff_exists.1 hdigit
  simp [Lexicon.glyphNumerals, hn]

/-- In Mandarin a text is decoded by a scan over its characters. The heading is empty if no run of
digits has three of them, and else the last group of three of the last run that has one. If no
runways are listed, the runway is read behind the first keyword that a digit comes behind. Blanks
between characters make no difference to either. -/
theorem scan_of_decode (hbuild : Elements.build .mandarin s c = .ok e)
    (hmake : make .mandarin s e c = .ok d) (kind : ResultKind) (hkind : kind ≠ .rejected)
    (grammarName text : String) (htext : isBlankText text = false) :
    ((d.decode kind grammarName text).heading = "" ↔
        ∀ run ∈ Lexicon.mandarin.digitRuns text.toList, run.length < 3) ∧
      (∀ run ∈ ((Lexicon.mandarin.digitRuns text.toList).filter (3 ≤ ·.length)).getLast?,
        ∃ group ∈ (threes run).getLast?,
          (d.decode kind grammarName text).heading = Lexicon.mandarin.glyphNumerals group) ∧
      (s.runways = [] → (d.decode kind grammarName text).runway =
        ((Lexicon.mandarin.behindKeyword? text.toList).map Lexicon.mandarin.runwayAhead).getD "") := by
  have hmade := made_of_make hmake
  have hl := Lexicon.glyphs_mandarin
  have hdecode : ¬ (kind = .rejected ∨ isBlankText text = true) := by simp [hkind, htext]
  have hheading : (d.decode kind grammarName text).heading = (d.headingOf? text).getD "" := by
    rw [decode, if_neg hdecode]
  have hlast : ∀ run ∈ ((Lexicon.mandarin.digitRuns text.toList).filter (3 ≤ ·.length)).getLast?,
      ∃ group ∈ (threes run).getLast?, (d.decode kind grammarName text).heading =
        Lexicon.mandarin.glyphNumerals group := by
    intro run hrun
    have hlength : 3 ≤ run.length := by
      simpa using (List.mem_filter.1 (List.mem_of_mem_getLast? hrun)).2
    have hne : threes run ≠ [] := fun h => absurd (threes_eq_nil_iff.1 h) (by omega)
    refine ⟨_, List.getLast?_eq_some_getLast hne, ?_⟩
    rw [hheading, hmade.headingOf?_scan hl, Option.mem_def.1 hrun, Option.bind_some,
      List.getLast?_eq_some_getLast hne]
    rfl
  refine ⟨⟨fun hempty run hrun => ?_, fun hfew => ?_⟩, hlast, fun hnone => ?_⟩
  · by_contra hlength
    have hne : (Lexicon.mandarin.digitRuns text.toList).filter (3 ≤ ·.length) ≠ [] :=
      List.ne_nil_of_mem (List.mem_filter.2 ⟨hrun, by simpa using hlength⟩)
    obtain ⟨group, hgroup, heq⟩ := hlast _ (List.getLast?_eq_some_getLast hne)
    have hlast := (List.mem_filter.1 (List.getLast_mem hne)).1
    exact glyphNumerals_ne_empty hlast (List.mem_of_mem_getLast? hgroup) (heq.symm.trans hempty)
  · have hnil : (Lexicon.mandarin.digitRuns text.toList).filter (3 ≤ ·.length) = [] :=
      List.filter_eq_nil_iff.2 fun run hrun => by simpa using hfew run hrun
    rw [hheading, hmade.headingOf?_scan hl, hnil]
    rfl
  · have hmode : e.runwayMode = .procedural := by
      have hmode := (Elements.built_of_build hbuild).mode
      rw [Elements.modeOf, if_pos (by simp [hnone])] at hmode
      exact (Except.ok.inj hmode).symm
    have hspellings : d.runwaySpellings = [] := by
      rw [hmade.runwaySpellings_eq, hmode]
      rfl
    rw [decode, if_neg hdecode]
    exact congrArg (·.getD "") (hmade.runwayOf?_scan hl (by decide) (by decide) hspellings text)

/-- A broken keyword, a keyword without a digit, and more digits than whole groups. -/
theorem scan_of_decode_guohang : ∃ e d, Elements.build .mandarin guohang .standard = .ok e ∧
    make .mandarin guohang e .standard = .ok d ∧
    (d.decode .recognized "AFH0" "国航幺两 三航向洞 九洞四五六七跑 道五跑道口跑道 两 拐 左转").heading =
      "456" ∧
    (d.decode .recognized "AFH0" "国航幺两 三航向洞 九洞四五六七跑 道五跑道口跑道 两 拐 左转").runway =
      "27L" := by
  obtain ⟨e, he⟩ : ∃ e, Elements.build .mandarin guohang .standard = .ok e := ⟨_, rfl⟩
  obtain ⟨d, hd⟩ := exists_make_guohang e
  obtain ⟨-, hheading, hrunway⟩ := scan_of_decode he hd .recognized (by decide) "AFH0"
    "国航幺两 三航向洞 九洞四五六七跑 道五跑道口跑道 两 拐 左转" (by decide +kernel)
  obtain ⟨group, hgroup, hvalues⟩ := hheading "洞九洞四五六七".toList (by decide +kernel)
  obtain rfl : group = "四五六".toList := by
    have hthrees : (threes "洞九洞四五六七".toList).getLast? = some "四五六".toList := by
      decide +kernel
    exact Option.some.inj ((Option.mem_def.1 hgroup).symm.trans hthrees)
  refine ⟨e, d, he, hd, hvalues.trans (by decide +kernel), (hrunway rfl).trans (by decide +kernel)⟩

end Decoder

end Phraseology
