import Phraseology.Proofs.Decoder.RunwayWords
import Phraseology.Proofs.NumberPhrase.WordScan

/-! A runway that is spelled in a text is decoded to its name: if no runways are listed, whatever
words stand around it, and otherwise unless another one that is at least as long is spelled there,
too. -/
namespace Phraseology

open Text

/-- Words that are put together first stand in the text like the others. -/
theorem spokenText_spokenText {before ws after : List String} (hws : ws ≠ []) :
    spokenText (before ++ spokenText ws :: after) = spokenText (before ++ (ws ++ after)) := by
  have hafter : spokenText (spokenText ws :: after) = spokenText (ws ++ after) := by
    by_cases h : after = []
    · rw [h, List.append_nil, spokenText, String.intercalate_singleton]
    · rw [spokenText, spokenText, spokenText, String.intercalate_cons_of_ne_nil h,
        String.intercalate_append_of_ne_nil hws h]
  by_cases h : before = []
  · rw [h, List.nil_append, List.nil_append, hafter]
  · have hne : ws ++ after ≠ [] := by simp [hws]
    calc spokenText (before ++ spokenText ws :: after)
        = " ".intercalate before ++ " " ++ spokenText (spokenText ws :: after) :=
          String.intercalate_append_of_ne_nil h (by simp)
      _ = " ".intercalate before ++ " " ++ spokenText (ws ++ after) := by rw [hafter]
      _ = spokenText (before ++ (ws ++ after)) := (String.intercalate_append_of_ne_nil h hne).symm

namespace Lexicon

/-- The text without the blanks that do not count has the words in it, regardless of case. -/
def Contains (l : Lexicon) (text words : String) : Prop :=
  lowerChars words.toList <:+: Decoder.plainChars l text

theorem Spells.mentions_iff {l : Lexicon} (hl : l.Spells) (text : String) (r : Runway) :
    Decoder.mentions l text (l.runwaySpoken r) = true ↔ l.Contains text (l.runwaySpoken r) := by
  rw [Decoder.mentions, occursIn_iff, Decoder.plainChars_eq l (l.runwaySpoken r),
    hl.kept_runwaySpoken]
  rfl

/-- A text with something in it is not blank. -/
theorem Contains.not_blank {l : Lexicon} {text words : String} (h : l.Contains text words)
    (hne : words.toList ≠ []) : isBlankText text = false := by
  by_contra hblank
  rw [Bool.not_eq_false, isBlankText, List.all_eq_true] at hblank
  have hkept : l.compactChars text.toList = [] := by
    rw [compactChars]
    cases l.script with
    | spaced => exact trimChars_eq_nil_iff.2 (List.all_eq_true.2 hblank)
    | ideographic => exact filter_blank hblank
  rw [Contains, Decoder.plainChars, hkept, lowerChars_eq_nil_iff.2 rfl, List.infix_nil] at h
  exact hne (lowerChars_eq_nil_iff.1 h)

theorem Spells.spoken_ne_nil {l : Lexicon} (hl : l.Spells) (r : Runway) :
    (l.runwaySpoken r).toList ≠ [] := by
  rw [runwaySpoken, join_of_unbroken (hl.unbroken_spoken r), separator]
  cases l.script with
  | spaced =>
    intro hnil
    have hwords := wordChars_intercalate (hl.unbroken_spoken r)
    rw [hnil] at hwords
    cases hwords
  | ideographic =>
    rw [toList_intercalate_empty, List.flatMap_cons]
    exact List.append_ne_nil_of_left_ne_nil hl.keyword.ne_nil _

end Lexicon

namespace Lexicon.Spells

variable {l : Lexicon} {r : Runway}

/-- The digits of a runway are spelled with digit words. -/
theorem exists_digitWords (hl : l.Spells) (r : Runway) :
    ∃ ds : List DigitWord, (∀ d ∈ ds, d ∈ l.digits) ∧ ds.length = r.digits.length ∧
      r.digits.filterMap (fun n => l.canonicalDigit? n.val) = digitWords ds ∧
      spokenDigits ds = r.number := by
  have hvalue : ∀ n : Fin 10, numeral n.val = digitChar n := by decide
  rw [Runway.number]
  induction r.digits with
  | nil => exact ⟨[], by simp, rfl, rfl, rfl⟩
  | cons n ns ih =>
    obtain ⟨d, hd, hword, hn, -⟩ := hl.digit n
    obtain ⟨ds, hds, hlength, hwords, hdigits⟩ := ih
    refine ⟨d :: ds, List.forall_mem_cons.2 ⟨hd, hds⟩, by simp [hlength], ?_, ?_⟩
    · simp only [List.filterMap_cons, hword, hwords]
      rfl
    · rw [spokenDigits, List.map_cons, hn, hvalue, String.ofList_cons, List.map_cons,
        String.ofList_cons, ← hdigits]
      rfl

/-- The side of a runway is spelled with a direction. -/
theorem exists_side (hl : l.Spells) (r : Runway) :
    ∃ side : Option Spelling, (∀ x ∈ side, x ∈ l.directions) ∧
      (r.side.toList.filterMap fun s => l.directionWord? s.letter) =
        side.toList.map Spelling.spoken ∧
      r.name = r.number ++ (side.map Spelling.code).getD "" := by
  rw [Runway.name, Runway.chars, String.ofList_append]
  cases r.side with
  | none => exact ⟨none, by simp, rfl, rfl⟩
  | some s =>
    obtain ⟨x, hx, hspoken, hcode, -⟩ := hl.side s
    exact ⟨some x, by simpa using hx, by simp [hspoken], by simp [hcode, Runway.number]⟩

end Lexicon.Spells

theorem mem_of_run_mem_spacedItems {ws : List String} {r : List Char}
    (hws : ∀ w ∈ ws, LetterWord w) (h : .run r ∈ spacedItems ws) : ∃ w ∈ ws, w.toList = r := by
  obtain ⟨w, hw, hmem⟩ := List.mem_flatMap.1 h
  rw [NumberPhrase.items_plain (hws w hw).plain] at hmem
  rcases List.mem_cons.1 hmem with h | h
  · cases h
  · exact ⟨w, hw, (Item.run.inj (List.mem_singleton.1 h)).symm⟩

/-- Of words of ASCII letters the first is the one that comes next. -/
theorem mem_head?_of_next {ws : List String} {r : List Char} (hws : ∀ w ∈ ws, LetterWord w)
    (h : NumberPhrase.Next (spacedItems ws) r) : ∃ w ∈ ws.head?, w.toList = r := by
  obtain ⟨js, hjs⟩ := h
  rw [NumberPhrase.dropWhile_spacedItems hws] at hjs
  cases ws with
  | nil => cases hjs
  | cons w ws =>
    rw [NumberPhrase.joinedItems_cons (hws w (by simp))] at hjs
    exact ⟨w, rfl, Item.run.inj (List.cons.inj hjs).1⟩

namespace Decoder

variable {l : Lexicon} {s : Source} {e : Elements} {c : Config} {d : Decoder} {kind : ResultKind}
  {before after : List String}

/-- Words other than the keyword are passed over. -/
theorem passes_runwayPhrase
    (h : ∀ w ∈ before, LetterWord w ∧ sameIgnoringAsciiCase w "runway" = false)
    (js : List Item) : runwayPhrase.Passes (spacedItems before) js := by
  refine NumberPhrase.passes_of_skips (fun r hr => ?_) js
  obtain ⟨w, hw, rfl⟩ := mem_of_run_mem_spacedItems (fun w hw => (h w hw).1) hr
  obtain ⟨hletters, hother⟩ := h w hw
  have hkeyword : LetterWord "Runway" := by decide +kernel
  refine NumberPhrase.skips_of_leading rfl fun x hx halike => ?_
  obtain rfl := List.mem_singleton.1 hx
  have hlower := (hkeyword.alike_iff hletters).1 halike
  rw [hkeyword.lowerChars_eq, hletters.lowerChars_eq] at hlower
  rw [sameIgnoringAsciiCase, ← hlower] at hother
  revert hother
  decide +kernel

/-- A word of ASCII letters without a value is no digit word in any case. -/
theorem not_alike_of_digitValue? {w : String} (hw : LetterWord w)
    (h : Lexicon.english.digitValue? w = none) :
    ∀ d ∈ Lexicon.english.digits, ¬ Alike d.word.toList w.toList := by
  have hdigit : ∀ d ∈ Lexicon.english.digits, LetterWord d.word := by decide +kernel
  intro d hd halike
  have hlower := ((hdigit d hd).alike_iff hw).1 halike
  have hnot := List.find?_eq_none.1 (Option.map_eq_none_iff.1 h) d hd
  exact hnot (by rw [lowercase, hlower, lowercase, beq_self_eq_true])

/-- A runway that is spelled among words of ASCII letters is the one that is decoded, unless the
keyword comes before it or the words behind it go on like a runway. -/
theorem Made.runway_of_spoken (hmade : d.Made .english s e c) (hmode : e.runwayMode = .procedural)
    (hkind : kind ≠ .rejected)
    (hbefore : ∀ w ∈ before, LetterWord w ∧ sameIgnoringAsciiCase w "runway" = false)
    (hafter : ∀ w ∈ after, LetterWord w)
    (hnext : ∀ w ∈ after.head?,
      Lexicon.english.digitValue? w = none ∧ Lexicon.english.directionCode? w = none)
    (r : Runway) (grammarName : String) :
    (d.decode kind grammarName
      (spokenText (before ++ Lexicon.english.runwaySpoken r :: after))).runway = r.name := by
  have hl := Lexicon.spells_english
  obtain ⟨ds, hds, hlength, hwords, hdigits⟩ := hl.exists_digitWords r
  obtain ⟨side, hside, hsides, hname⟩ := hl.exists_side r
  have hspoken : Lexicon.english.runwaySpoken r =
      spokenText ("Runway" :: digitWords ds ++ side.toList.map Spelling.spoken) := by
    rw [Lexicon.runwaySpoken, Lexicon.join_of_unbroken (hl.unbroken_spoken r),
      Lexicon.runwayWords, hwords, hsides]
    rfl
  have htext : spokenText (before ++ Lexicon.english.runwaySpoken r :: after) =
      spokenText (before ++ ("Runway" :: digitWords ds ++ wordsBehindDigits side after)) := by
    rw [hspoken, spokenText_spokenText (by simp), List.append_assoc]
  have hend (v : List Char) (hv : NumberPhrase.Next (spacedItems after) v) :
      Lexicon.english.directionCode? (String.ofList v) = none ∧
        ∀ d ∈ Lexicon.english.digits, ¬ Alike d.word.toList v := by
    obtain ⟨w, hw, rfl⟩ := mem_head?_of_next hafter hv
    obtain ⟨hvalue, hcode⟩ := hnext w hw
    refine ⟨by rw [String.ofList_toList, hcode], ?_⟩
    exact not_alike_of_digitValue? (hafter w (List.mem_of_mem_head? hw)) hvalue
  have hcount : ds.length = 1 ∨ ds.length = 2 := by
    rw [hlength, Runway.digits]
    cases r.second <;> simp
  have hstop := stops_side hside fun _ v hv => (hend v hv).2
  have hsaid := first?_runwayPhrase hds (by omega) (by omega)
    (passes_runwayPhrase hbefore _) (.inr hstop)
  rw [codeOf?_side hside fun _ v hv => (hend v hv).1, ← htext] at hsaid
  have hblank : isBlankText (spokenText (before ++ Lexicon.english.runwaySpoken r :: after)) =
      false := by
    rw [htext]
    exact isBlankText_join (w := "Runway") (by simp) plainWord_runway.unbroken
  rw [hmade.runway_of_said hmode (by simp [hkind, hblank]) hsaid, hdigits, hname]

end Decoder

/-- What is found in a list in which nothing comes before a longer one is no shorter than anything
that could be found. -/
theorem Text.length_le_of_find? {α : Type} {f : α → Nat} {q : α → Bool} {xs : List α} {x y : α}
    (hsorted : xs.Pairwise (f · ≥ f ·)) (h : xs.find? q = some y) (hx : x ∈ xs)
    (hq : q x = true) : f x ≤ f y := by
  obtain ⟨-, before, after, rfl, hbefore⟩ := List.find?_eq_some_iff_append.1 h
  rcases List.mem_append.1 hx with hmem | hmem
  · have := hbefore x hmem
    simp [hq] at this
  · rcases List.mem_cons.1 hmem with rfl | hmem
    · exact le_rfl
    · exact (List.pairwise_cons.1 (List.pairwise_append.1 hsorted).2.1).1 x hmem

namespace Lexicon.Spells

variable {l : Lexicon} {s : Source}

/-- Every list of runways can be spelled. -/
theorem modeOf_eq (hl : l.Spells) (hne : s.runways ≠ []) :
    Elements.modeOf l s =
      .ok (.explicit (s.runways.map fun r => ⟨r, l.runwaySpoken r⟩)) := by
  have hspell : Elements.spellRunways l s.runways =
      .ok (s.runways.map fun r => ⟨r, l.runwaySpoken r⟩) := by
    rw [Elements.spellRunways, ← List.filterMap_eq_map]
    exact mapM_eq_ok_filterMap fun r _ => ⟨_, rfl, by rw [hl.spellRunway_eq]; rfl⟩
  rw [Elements.modeOf, if_neg (by simpa using hne), hspell]
  rfl

end Lexicon.Spells

namespace Decoder

variable {l : Lexicon} {s : Source} {e : Elements} {c : Config} {d : Decoder} {kind : ResultKind}
  {text : String} {r : Runway}

/-- What is looked for are the spellings of the listed runways. -/
structure Listed (l : Lexicon) (s : Source) (d : Decoder) : Prop where
  lexicon_eq : d.lexicon = l
  runways_ne : s.runways ≠ []
  longest : d.runwaySpellings.Pairwise (·.spoken.length ≥ ·.spoken.length)
  exists_mem : ∀ r ∈ s.runways, ∃ x ∈ d.runwaySpellings, x.runway = r
  runway_mem : ∀ x ∈ d.runwaySpellings, x.runway ∈ s.runways
  spoken_eq : ∀ x ∈ d.runwaySpellings, x.spoken = l.runwaySpoken x.runway

theorem Made.listed (hmade : d.Made l s e c) (hl : l.Spells)
    (hmode : Elements.modeOf l s = .ok e.runwayMode) (hne : s.runways ≠ []) : d.Listed l s := by
  rw [hl.modeOf_eq hne] at hmode
  have hspellings : d.runwaySpellings = longestFirst (fun x => x.spoken.length)
      (s.runways.map fun r => ⟨r, l.runwaySpoken r⟩) := by
    rw [hmade.runwaySpellings_eq, ← Except.ok.inj hmode, RunwayMode.spellings]
  have hmem (x : RunwaySpelling) (hx : x ∈ d.runwaySpellings) :
      ∃ r ∈ s.runways, ⟨r, l.runwaySpoken r⟩ = x := by
    rw [hspellings, mem_longestFirst] at hx
    exact List.mem_map.1 hx
  constructor
  case lexicon_eq => exact hmade.lexicon_eq
  case runways_ne => exact hne
  case longest =>
    rw [hspellings]
    exact pairwise_longestFirst _ _
  case exists_mem =>
    intro r hr
    refine ⟨⟨r, l.runwaySpoken r⟩, ?_, rfl⟩
    rw [hspellings, mem_longestFirst]
    exact List.mem_map_of_mem hr
  case runway_mem =>
    intro x hx
    obtain ⟨r, hr, rfl⟩ := hmem x hx
    exact hr
  case spoken_eq =>
    intro x hx
    obtain ⟨r, hr, rfl⟩ := hmem x hx
    dsimp only

theorem Listed.runwayOf?_eq (hd : d.Listed l s) (text : String) :
    d.runwayOf? text =
      (d.runwaySpellings.find? fun x => mentions l text x.spoken).map fun x => x.runway.name := by
  obtain ⟨r, rs, hruns⟩ := List.exists_cons_of_ne_nil hd.runways_ne
  obtain ⟨x, hx, -⟩ := hd.exists_mem r (by simp [hruns])
  rw [runwayOf?, if_neg (by simpa using List.ne_nil_of_mem hx), hd.lexicon_eq]

theorem Listed.mentions_iff (hd : d.Listed l s) (hl : l.Spells) {x : RunwaySpelling}
    (hx : x ∈ d.runwaySpellings) (text : String) :
    mentions l text x.spoken = true ↔ l.Contains text (l.runwaySpoken x.runway) := by
  rw [hd.spoken_eq x hx, hl.mentions_iff]

/-- Of the listed runways that are spelled in a text one with the longest spelling is decoded. -/
theorem Listed.runway_of_contains (hd : d.Listed l s) (hl : l.Spells) (hkind : kind ≠ .rejected)
    (hr : r ∈ s.runways) (hcontains : l.Contains text (l.runwaySpoken r))
    (hlongest : ∀ r' ∈ s.runways, l.runwaySpoken r' ≠ l.runwaySpoken r →
      (l.runwaySpoken r).length ≤ (l.runwaySpoken r').length →
        ¬ l.Contains text (l.runwaySpoken r')) (grammarName : String) :
    (d.decode kind grammarName text).runway = r.name := by
  obtain ⟨x, hx, rfl⟩ := hd.exists_mem r hr
  have hmentions := (hd.mentions_iff hl hx text).2 hcontains
  have hsome : (d.runwaySpellings.find? fun x => mentions l text x.spoken).isSome :=
    List.find?_isSome.2 ⟨x, hx, hmentions⟩
  obtain ⟨y, hfound⟩ := Option.isSome_iff_exists.1 hsome
  have hy := List.mem_of_find?_eq_some hfound
  have hymentions := List.find?_some hfound
  have hlength := length_le_of_find? hd.longest hfound hx hmentions
  have hsame : l.runwaySpoken y.runway = l.runwaySpoken x.runway := by
    by_contra hdiffer
    rw [hd.spoken_eq x hx, hd.spoken_eq y hy] at hlength
    have hycontains := (hd.mentions_iff hl hy text).1 hymentions
    exact hlongest _ (hd.runway_mem y hy) hdiffer hlength hycontains
  have hrunway : d.runwayOf? text = some x.runway.name := by
    rw [hd.runwayOf?_eq, hfound, Option.map_some, hl.name_eq_of_spoken_eq hsame]
  rw [decode, if_neg (by simp [hkind, hcontains.not_blank (hl.spoken_ne_nil _)])]
  simp [hrunway]

/-- No runway is decoded where none of the listed ones is spelled. -/
theorem Listed.runway_of_not_contains (hd : d.Listed l s) (hl : l.Spells)
    (hnone : ∀ r ∈ s.runways, ¬ l.Contains text (l.runwaySpoken r)) (grammarName : String) :
    (d.decode kind grammarName text).runway = "" := by
  have hnot : d.runwaySpellings.find? (fun x => mentions l text x.spoken) = none := by
    refine List.find?_eq_none.2 fun x hx hmentions => ?_
    exact hnone _ (hd.runway_mem x hx) ((hd.mentions_iff hl hx text).1 hmentions)
  have hrunway : d.runwayOf? text = none := by rw [hd.runwayOf?_eq, hnot, Option.map_none]
  unfold decode
  split_ifs
  · rfl
  · simp [hrunway]

/-- If no runways are listed, English words in which a runway is spelled are decoded to its name,
unless the keyword comes before it or the words behind it go on like a runway. If runways are
listed, a text in which one is spelled is decoded to its name, in English and in Mandarin, unless
another that is at least as long is spelled there, too; and where none is, none is decoded. -/
theorem runway_of_spellRunway (s : Source) (c : Config) (kind : ResultKind)
    (hkind : kind ≠ .rejected) (grammarName : String) :
    (s.runways = [] → ∃ e, Elements.build .english s c = .ok e ∧
      ∀ d, make .english s e c = .ok d → ∀ r : Runway,
        ∃ spoken, Lexicon.english.spellRunway r = .ok spoken ∧
          ∀ before after : List String,
            (∀ w ∈ before, LetterWord w ∧ sameIgnoringAsciiCase w "runway" = false) →
            (∀ w ∈ after, LetterWord w) →
            (∀ w ∈ after.head?, Lexicon.english.digitValue? w = none ∧
              Lexicon.english.directionCode? w = none) →
            (d.decode kind grammarName (spokenText (before ++ spoken :: after))).runway = r.name) ∧
    (s.runways ≠ [] → ∀ l, l = Lexicon.english ∨ l = Lexicon.mandarin →
      ∃ e, Elements.build l s c = .ok e ∧ ∀ d, make l s e c = .ok d → ∀ text,
        (∀ r ∈ s.runways, ∃ spoken, l.spellRunway r = .ok spoken ∧
          (l.Contains text spoken →
            (∀ r' ∈ s.runways, ∀ spoken', l.spellRunway r' = .ok spoken' → spoken' ≠ spoken →
              spoken.length ≤ spoken'.length → ¬ l.Contains text spoken') →
            (d.decode kind grammarName text).runway = r.name)) ∧
        ((∀ r ∈ s.runways, ∀ spoken, l.spellRunway r = .ok spoken → ¬ l.Contains text spoken) →
          (d.decode kind grammarName text).runway = "")) := by
  constructor
  · intro hnone
    have hmode : Elements.modeOf .english s = .ok .procedural := by
      rw [Elements.modeOf, if_pos (by simp [hnone])]
    refine ⟨_, bind_eq_ok_iff.2 ⟨_, hmode, rfl⟩, fun d hd r => ?_⟩
    refine ⟨_, Lexicon.spells_english.spellRunway_eq r, fun before after hbefore hafter hnext => ?_⟩
    exact (made_of_make hd).runway_of_spoken rfl hkind hbefore hafter hnext r grammarName
  · intro hne l hbuiltin
    have hl : l.Spells := by
      rcases hbuiltin with rfl | rfl
      · exact Lexicon.spells_english
      · exact Lexicon.spells_mandarin
    have hmode := hl.modeOf_eq hne
    refine ⟨_, bind_eq_ok_iff.2 ⟨_, hmode, rfl⟩, fun d hd text => ?_⟩
    have hlisted := (made_of_make hd).listed hl hmode hne
    refine ⟨fun r hr => ⟨_, hl.spellRunway_eq r, fun hcontains hlongest => ?_⟩, fun hnone => ?_⟩
    · refine hlisted.runway_of_contains hl hkind hr hcontains (fun r' hr' => ?_) grammarName
      exact hlongest r' hr' _ (hl.spellRunway_eq r')
    · refine hlisted.runway_of_not_contains hl (fun r hr => ?_) grammarName
      exact hnone r hr _ (hl.spellRunway_eq r)

def parallel : Source :=
  { delta with
    runways := ["27", "27L"].filterMap fun name => Runway.ofChars? name.toList
    runways_nodup := by decide +kernel }

/-- The spelling of a runway with a side has that of the number in it. -/
theorem runway_of_spellRunway_left :
    (∃ e d, Elements.build .english delta .standard = .ok e ∧
      make .english delta e .standard = .ok d ∧
      (d.decode .recognized "ATO0" "taxi to Runway two seven left via alpha").runway = "27L") ∧
    ∃ e d, Elements.build .english parallel .standard = .ok e ∧
      make .english parallel e .standard = .ok d ∧
      (d.decode .recognized "ALD0" "cleared to land Runway two seven left").runway = "27L" := by
  have hleft : Lexicon.english.spellRunway ⟨2, some 7, some .left⟩ =
      .ok "Runway two seven left" := by
    decide +kernel
  have hnumber : Lexicon.english.spellRunway ⟨2, some 7, none⟩ = .ok "Runway two seven" := by
    decide +kernel
  have hrunways : parallel.runways = [⟨2, some 7, none⟩, ⟨2, some 7, some .left⟩] := by
    decide +kernel
  constructor
  · obtain ⟨hspoken, -⟩ :=
      runway_of_spellRunway delta .standard .recognized (by decide) "ATO0"
    obtain ⟨e, he, hall⟩ := hspoken rfl
    obtain ⟨d, hd⟩ := exists_make_delta e
    obtain ⟨spoken, hspell, hdecode⟩ := hall d hd ⟨2, some 7, some .left⟩
    obtain rfl := Except.ok.inj (hleft.symm.trans hspell)
    have hrunway := hdecode ["taxi", "to"] ["via", "alpha"] (by decide +kernel) (by decide +kernel)
      (by decide +kernel)
    exact ⟨e, d, he, hd, hrunway⟩
  · obtain ⟨-, hlisted⟩ :=
      runway_of_spellRunway parallel .standard .recognized (by decide) "ALD0"
    obtain ⟨e, he, hall⟩ := hlisted (by simp [hrunways]) .english (.inl rfl)
    obtain ⟨d, hd⟩ := exists_make_english (s := parallel) (by decide +kernel) (by decide +kernel) e
    obtain ⟨hspelled, -⟩ := hall d hd "cleared to land Runway two seven left"
    obtain ⟨spoken, hspell, hdecode⟩ := hspelled ⟨2, some 7, some .left⟩ (by simp [hrunways])
    obtain rfl := Except.ok.inj (hleft.symm.trans hspell)
    have hcontains : Lexicon.english.Contains "cleared to land Runway two seven left"
        "Runway two seven left" := occursIn_iff.1 (by decide +kernel)
    refine ⟨e, d, he, hd, hdecode hcontains fun r' hr' spoken' hspell' hdiffer hlength => ?_⟩
    -- The other runway is spelled with fewer characters.
    rw [hrunways] at hr'
    rcases List.mem_pair.1 hr' with rfl | rfl
    · obtain rfl := Except.ok.inj (hnumber.symm.trans hspell')
      exact absurd hlength (by decide +kernel)
    · obtain rfl := Except.ok.inj (hleft.symm.trans hspell')
      exact absurd rfl hdiffer

end Decoder

end Phraseology
