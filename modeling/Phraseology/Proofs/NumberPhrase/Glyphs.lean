import Phraseology.Proofs.NumberPhrase.Numbers
import Phraseology.Proofs.NumberPhrase.Present
import Phraseology.Proofs.Text.Search

/-! Numbers in an ideographic script, whose digit words are single characters: they are read
character by character. -/
namespace Phraseology

open Text
open Text.Cursor

def Text.glyphs (s : List Char) : List Item :=
  s.map fun c => if isWordChar c then .run [c] else .other c

namespace Text

variable {s : List Char} {c : Char}

theorem glyphs_word (hc : isWordChar c = true) : glyphs (c :: s) = .run [c] :: glyphs s := by
  simp [glyphs, hc]

theorem glyphs_other (hc : isWordChar c = false) : glyphs (c :: s) = .other c :: glyphs s := by
  simp [glyphs, hc]

@[simp] theorem isBlank_glyph (c : Char) :
    (if isWordChar c then Item.run [c] else .other c).isBlank = isBlank c := by
  split_ifs with hc
  · exact (not_blank_of_isWordChar hc).symm
  · rfl

@[simp] theorem glyphs_dropWhile (s : List Char) :
    glyphs (s.dropWhile isBlank) = (glyphs s).dropWhile Item.isBlank := by
  rw [glyphs, glyphs, List.dropWhile_map]
  simp only [Function.comp_def, isBlank_glyph]

@[simp] theorem glyphs_filter (s : List Char) :
    glyphs (s.filter (!isBlank ·)) = (glyphs s).filter (!·.isBlank) := by
  rw [glyphs, glyphs, List.filter_map]
  simp only [Function.comp_def, isBlank_glyph]

theorem glyphs_injective : Function.Injective glyphs := by
  refine List.map_injective_iff.2 fun c d h => ?_
  have hchars := congrArg Item.chars h
  split_ifs at hchars <;> simpa [Item.chars] using hchars

end Text

namespace NumberPhrase

variable {p : NumberPhrase} {b s t : List Char} {c : Char}

/-- The digit words are single ideographs, a leading word is one of ideographs and the only one, and
the trailing words are single characters. -/
structure Glyphic (p : NumberPhrase) : Prop where
  script_eq : p.script = .ideographic
  digits_ne : p.digits ≠ []
  digits : ∀ d ∈ p.digits, ∃ g, d.word.toList = [g] ∧ Ideograph g
  leading : ∀ spellings ∈ p.leading, ∃ x, spellings = [x] ∧ x.spoken.toList ≠ [] ∧
    Ideographic x.spoken.toList
  trailing : ∀ spellings ∈ p.trailing, spellings ≠ [] ∧
    ∀ x ∈ spellings, ∃ g, x.spoken.toList = [g] ∧ isWordChar g = true
  min_pos : 1 ≤ p.min
  min_le : p.min ≤ p.max

theorem Glyphic.usable (hp : p.Glyphic) : p.Usable where
  min_pos := hp.min_pos
  digits_ne := hp.digits_ne
  digits := by
    intro d hd
    obtain ⟨g, hg, -⟩ := hp.digits d hd
    simp [hg]

theorem Glyphic.solid (hp : p.Glyphic) : p.Solid where
  digits_ne := hp.digits_ne
  not_blank := by
    intro d hd
    obtain ⟨g, hg, hideograph⟩ := hp.digits d hd
    exact ⟨g, by simp [hg], hideograph.not_blank⟩

theorem Glyphic.of_mem_digits (hp : p.Glyphic) {w : List Char} (hw : w ∈ p.words.digits) :
    ∃ g, w = [g] ∧ Ideograph g := by
  obtain ⟨d, hd, rfl⟩ := (mem_words_digits hp.digits_ne).1 hw
  exact hp.digits d hd

theorem Glyphic.exists_digit (hp : p.Glyphic) (h : p.isDigitWord [c] = true) :
    ∃ d ∈ p.digits, d.word.toList = [c] ∧ Ideograph c := by
  obtain ⟨d, hd, hdc⟩ := isDigitWord_eq_true_iff.1 h
  obtain ⟨g, hg, hideograph⟩ := hp.digits d hd
  rw [hg] at hdc
  obtain rfl : c = g := hideograph.eq_of_alike (alike_cons_iff.1 hdc).1
  exact ⟨d, hd, hg, hideograph⟩

theorem Glyphic.ideograph_of_digit (hp : p.Glyphic) (h : p.isDigitWord [c] = true) :
    Ideograph c := by
  obtain ⟨-, -, -, hideograph⟩ := hp.exists_digit h
  exact hideograph

/-- Words of a single character stand where one of them is the next character. -/
theorem anyWord_cons {ws : List (List Char)} (hws : ∀ w ∈ ws, w.length = 1) :
    anyWord ws (place b (c :: t)) =
      List.replicate (ws.countP fun w => decide (Alike w [c])) (behind [c] b t) := by
  induction ws with
  | nil => rfl
  | cons w ws ih =>
    obtain ⟨hw, hws⟩ := List.forall_mem_cons.1 hws
    have hstands {d : Cursor} :
        word? w (place b (c :: t)) = some d ↔ Alike w [c] ∧ d = behind [c] b t := by
      rw [word?_eq_some_iff]
      constructor
      · rintro ⟨u, s, hus, hwu, rfl⟩
        obtain ⟨g, rfl⟩ := List.length_eq_one_iff.1 (hwu.length_eq.symm.trans hw)
        obtain ⟨rfl, rfl⟩ := List.cons.inj hus
        exact ⟨hwu, rfl⟩
      · rintro ⟨hwc, rfl⟩
        exact ⟨[c], t, rfl, hwc, rfl⟩
    by_cases hwc : Alike w [c]
    · rw [anyWord_cons_some (hstands.2 ⟨hwc, rfl⟩), ih hws,
        List.countP_cons_of_pos (by simpa using hwc), List.replicate_succ]
    · have hnone : word? w (place b (c :: t)) = none :=
        Option.eq_none_iff_forall_ne_some.2 fun d hd => hwc (hstands.1 hd).1
      rw [anyWord_cons_none hnone, ih hws, List.countP_cons_of_neg (by simpa using hwc)]

theorem Glyphic.countP_eq_zero_iff (hp : p.Glyphic) :
    (p.words.digits.countP fun w => decide (Alike w [c])) = 0 ↔ p.isDigitWord [c] = false := by
  rw [Bool.eq_false_iff, Ne, isDigitWord_iff hp.digits_ne, List.countP_eq_zero]
  simp

theorem Glyphic.length_digits (hp : p.Glyphic) : ∀ w ∈ p.words.digits, w.length = 1 := by
  intro w hw
  obtain ⟨g, rfl, -⟩ := hp.of_mem_digits hw
  rfl

theorem Glyphic.digit_ne_nil (hp : p.Glyphic) : ∀ w ∈ p.words.digits, w ≠ [] :=
  fun w hw => List.ne_nil_of_length_eq_add_one (hp.length_digits w hw)

theorem Glyphic.digitEnds_of_not_digit (hp : p.Glyphic)
    (h : ∀ c ∈ s.head?, p.isDigitWord [c] = false) :
    digitEnds .ideographic p.words (place b s) = [] := by
  have hany : anyWord p.words.digits (place b s) = [] := by
    cases s with
    | nil => exact anyWord_nil hp.digit_ne_nil
    | cons c t => rw [anyWord_cons hp.length_digits, hp.countP_eq_zero_iff.2 (h c rfl)]; rfl
  rw [digitEnds, wholeWord, hany, List.flatMap_nil]

theorem Glyphic.not_digit_of_not_startsWord (hp : p.Glyphic) (hs : ¬ StartsWord s) :
    ∀ c ∈ s.head?, p.isDigitWord [c] = false := by
  intro c hc
  by_contra hdigit
  have := hp.ideograph_of_digit (Bool.eq_true_of_not_eq_false hdigit)
  exact hs ⟨c, hc, this.isWordChar⟩

theorem Glyphic.digitEnds_of_digit (hp : p.Glyphic) (h : p.isDigitWord [c] = true)
    (b t : List Char) :
    ∃ rest, digitEnds .ideographic p.words (place b (c :: t)) = pastBlanks [c] b t :: rest ∧
      ∀ e ∈ rest, e = pastBlanks [c] b t ∨ digitEnds .ideographic p.words e = [] := by
  have hwhole : wholeWord .ideographic p.words.digits (place b ([c] ++ t)) = List.replicate _ _ :=
    anyWord_cons hp.length_digits
  rcases digitEnds_of_replicate hwhole fun b s hs =>
      hp.digitEnds_of_not_digit (hp.not_digit_of_not_startsWord hs) with ⟨hcount, -⟩ | ⟨-, hends⟩
  · rw [hp.countP_eq_zero_iff.1 hcount] at h
    cases h
  · exact hends

theorem Glyphic.straight_digitEnds (hp : p.Glyphic) :
    Straight (digitEnds .ideographic p.words) := by
  intro d e cs h
  rw [← place_eta d] at h ⊢
  by_cases hdigit : ∀ c ∈ d.after.head?, p.isDigitWord [c] = false
  · rw [hp.digitEnds_of_not_digit hdigit] at h
    cases h
  · obtain ⟨c, hc, hdigit⟩ : ∃ c ∈ d.after.head?, p.isDigitWord [c] = true := by simpa using hdigit
    obtain ⟨t, ht⟩ := List.head?_eq_some_iff.1 hc
    rw [ht] at h ⊢
    obtain ⟨rest, hrest, hdead⟩ := hp.digitEnds_of_digit hdigit d.before t
    rw [hrest] at h
    obtain ⟨rfl, rfl⟩ := List.cons.inj h
    refine ⟨?_, hdead⟩
    exact (offset_lt_of_ne_nil (List.cons_ne_nil c [])).trans_le (offset_le_behind t)

theorem takeDigits_glyphs (h : ∀ c ∈ s.head?, p.isDigitWord [c] = false) (n : Nat) :
    p.takeDigits n (glyphs s) = ([], glyphs s) := by
  refine takeDigits_of_not_digit (fun r hr => ?_) n
  cases s with
  | nil => cases hr
  | cons c s =>
    cases hc : isWordChar c with
    | true =>
      rw [glyphs_word hc] at hr
      obtain rfl : [c] = r := by simpa using hr
      exact h c rfl
    | false =>
      rw [glyphs_other hc] at hr
      cases hr

/-- A digit word that stands at a place is the character there. -/
theorem Glyphic.digitAt_or_noDigitAt (hp : p.Glyphic) (b s : List Char) :
    p.NoDigitAt glyphs b s ∨ ∃ r t, s = r ++ t ∧ p.DigitAt glyphs b r t := by
  by_cases hnone : ∀ c ∈ s.head?, p.isDigitWord [c] = false
  · exact .inl ⟨takeDigits_glyphs hnone,
      by rw [hp.script_eq, hp.digitEnds_of_not_digit hnone]⟩
  · obtain ⟨c, hc, hdigit⟩ : ∃ c ∈ s.head?, p.isDigitWord [c] = true := by simpa using hnone
    obtain ⟨t, rfl⟩ := List.head?_eq_some_iff.1 hc
    obtain ⟨rest, hrest, -⟩ := hp.digitEnds_of_digit hdigit b t
    refine .inr ⟨[c], t, rfl, hdigit, glyphs_word (hp.ideograph_of_digit hdigit).isWordChar,
      fun w hw x y _ hwx => ?_, ?_⟩
    · have := hwx.length_eq
      rw [hp.length_digits w hw, List.length_append, List.length_singleton] at this
      exact List.length_eq_zero_iff.1 (by omega)
    · rw [hp.script_eq, List.singleton_append, hrest, List.head?_cons]

theorem trailingWord_cons {ws : List (List Char)} (hws : ∀ w ∈ ws, w.length = 1)
    (hword : ∀ w ∈ ws, ∀ g ∈ w, isWordChar g = true) (b : List Char) (c : Char) (t : List Char) :
    (trailingWord .ideographic ws (place b (c :: t))).head? =
      if isWordChar c then some (behind [c] b t) else none := by
  have hone : (place b (c :: t)).one isWordChar =
      if isWordChar c then [behind [c] b t] else [] := by
    simp only [one, place_after, push_place]
    rfl
  rw [trailingWord, anyWord_cons hws, hone]
  split_ifs with hc
  · rw [← List.replicate_succ']
    rfl
  · have hcount : ws.countP (fun w => decide (Alike w [c])) = 0 := by
      rw [List.countP_eq_zero]
      intro w hw hwc
      obtain ⟨g, rfl⟩ := List.length_eq_one_iff.1 (hws w hw)
      have hgc := (alike_cons_iff.1 (of_decide_eq_true hwc)).1
      exact hc ((isWordChar_eq_of_alike hgc).symm.trans (hword [g] hw g (by simp)))
    rw [hcount]
    rfl

/-- The trailing word is the next character, if it is a word character. -/
theorem Glyphic.trailingWord_cases (hp : p.Glyphic) {spellings : List Spelling}
    (h : p.trailing = some spellings) (b s : List Char) :
    (∀ r, .run r ∉ (glyphs s).head?) ∧
        (trailingWord .ideographic (spokenWords spellings) (place b s)).head? = none ∨
      ∃ r t, s = r ++ t ∧ glyphs s = .run r :: glyphs t ∧
        (trailingWord .ideographic (spokenWords spellings) (place b s)).head? =
          some (behind r b t) := by
  obtain ⟨hne, hsingle⟩ := hp.trailing spellings h
  have hmem : ∀ w ∈ spokenWords spellings, ∃ g, w = [g] ∧ isWordChar g = true := by
    intro w hw
    obtain ⟨x, hx, rfl⟩ := (mem_spokenWords hne).1 hw
    exact hsingle x hx
  have hlength : ∀ w ∈ spokenWords spellings, w.length = 1 := by
    intro w hw
    obtain ⟨g, rfl, -⟩ := hmem w hw
    rfl
  have hword : ∀ w ∈ spokenWords spellings, ∀ g ∈ w, isWordChar g = true := by
    intro w hw g hg
    obtain ⟨x, rfl, hx⟩ := hmem w hw
    rwa [List.mem_singleton.1 hg]
  cases s with
  | nil =>
    have hnil : anyWord (spokenWords spellings) (place b []) = [] :=
      anyWord_nil fun w hw => List.ne_nil_of_length_eq_add_one (hlength w hw)
    refine .inl ⟨by simp [glyphs], ?_⟩
    rw [trailingWord, hnil]
    rfl
  | cons c t =>
    rw [trailingWord_cons hlength hword]
    cases hc : isWordChar c with
    | true => exact .inr ⟨[c], t, rfl, glyphs_word hc, rfl⟩
    | false => exact .inl ⟨by simp [glyphs_other hc], rfl⟩

/-- In an ideographic script the items of a text are its characters. -/
theorem Glyphic.cutting (hp : p.Glyphic) : p.Cutting glyphs fun _ _ => True where
  solid := hp.solid
  straight := by
    rw [hp.script_eq]
    exact hp.straight_digitEnds
  min_pos := hp.min_pos
  min_le := hp.min_le
  dropWhile_eq := glyphs_dropWhile
  digits := by
    intro b s _
    rcases hp.digitAt_or_noDigitAt b s with hno | ⟨r, t, hrt, hr⟩
    · exact .inl hno
    · exact .inr ⟨r, t, hrt, hr, trivial⟩
  trailing := by
    intro spellings hspellings b s _
    rw [hp.script_eq]
    rcases hp.trailingWord_cases hspellings b s with hnot | ⟨r, t, hrt, hcut, hword⟩
    · exact .inl hnot
    · exact .inr ⟨r, t, hrt, hcut, trivial, hword⟩

def glyphsAt? (p : NumberPhrase) (s : List Char) : Option Found :=
  match p.leading with
  | none => p.foundBehind? none (glyphs s)
  | some spellings => spellings.findSome? fun x => do
    let t ← x.spoken.toList.isPrefixOf? s
    p.foundBehind? (some x.spoken.toList) (glyphs (t.dropWhile isBlank))

theorem glyphsAt?_of_none (h : p.leading = none) (s : List Char) :
    p.glyphsAt? s = p.foundBehind? none (glyphs s) := by
  simp only [glyphsAt?, h]

theorem glyphsAt?_of_single {x : Spelling} (h : p.leading = some [x]) (s : List Char) :
    p.glyphsAt? s = (x.spoken.toList.isPrefixOf? s).bind fun t =>
      p.foundBehind? (some x.spoken.toList) (glyphs (t.dropWhile isBlank)) := by
  simp only [glyphsAt?, h, List.findSome?_singleton]
  rfl

/-- What begins at a place is the number that the characters from there begin with. -/
theorem Glyphic.hitAt?_glyphs (hp : p.Glyphic) (b s : List Char) :
    p.glyphsAt? s = none ∧ p.hitAt? p.words (place b s) = none ∨
      ∃ f h u t, p.glyphsAt? s = some f ∧ p.hitAt? p.words (place b s) = some h ∧ s = u ++ t ∧
        h.Is p glyphs (fun _ _ => True) f b u t := by
  rw [hitAt?_eq]
  cases hleading : p.leading with
  | none =>
    rw [glyphsAt?_of_none hleading, leadingEnds_of_none hleading, List.findSome?_singleton]
    exact hp.cutting.hitBehind?_cut none trivial
  | some spellings =>
    obtain ⟨x, rfl, hne, hideographic⟩ := hp.leading spellings hleading
    have hspoken : spokenWords [x] = [x.spoken.toList] := rfl
    rw [glyphsAt?_of_single hleading, leadingEnds_of_some hleading, hp.script_eq, hspoken,
      wholeWord]
    generalize x.spoken.toList = w at hne hideographic ⊢
    by_cases hw : w <+: s
    · obtain ⟨t, rfl⟩ := hw
      have hany : anyWord [w] (place b (w ++ t)) = List.replicate 1 (behind w b t) :=
        anyWord_cons_some (word?_place (.refl w))
      have hdead (b s : List Char) (hs : ¬ StartsWord s) :
          p.hitBehind? (some w) (place b s) = none :=
        hp.cutting.hitBehind?_eq_none (some w) trivial
          (takeDigits_glyphs (hp.not_digit_of_not_startsWord hs))
      rw [hany, findSome?_leadingEnds one_ne_zero hdead, isPrefixOf?_append, Option.bind_some]
      exact hp.cutting.hitBehind?_pastBlanks (some w) hne trivial
    · have hany : anyWord [w] (place b s) = [] := by
        refine anyWord_cons_none (Option.eq_none_iff_forall_ne_some.2 fun d hd => ?_)
        obtain ⟨u, t, rfl, hwu, -⟩ := word?_eq_some_iff.1 hd
        rw [hideographic.eq_of_alike hwu] at hw
        exact hw (List.prefix_append w t)
      exact .inl ⟨by rw [isPrefixOf?_eq_none hw]; rfl, by rw [hany]; rfl⟩

end NumberPhrase

end Phraseology
