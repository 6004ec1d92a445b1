import Phraseology.Proofs.Decoder.English
import Phraseology.Proofs.Decoder.Found
import Phraseology.Proofs.NumberPhrase.Find
import Phraseology.Proofs.NumberPhrase.Present
import Phraseology.Proofs.Phrase.Reach

/-! How many digits a match has: its run is of as many digit words as are asked for, and none of
their digits is lost where the words can be told apart and the text has their case. -/
namespace Phraseology

open Text
open Text.Cursor
open Pattern (Steps)

namespace Text.Cursor

variable {step : Cursor → List Cursor} {c d : Cursor} {cs : List Cursor} {n min max : Nat}

/-- Each step takes up characters. -/
def Strides (step : Cursor → List Cursor) : Prop := ∀ c, ∀ d ∈ step c, c.Ahead d

/-- The places that steps lead to are not those that they start from: of these one is the first. -/
theorem Strides.offsets_ne (hs : Strides step) (hne : distinct (cs.flatMap step) ≠ []) :
    offsets (distinct (cs.flatMap step)) ≠ offsets cs := by
  intro heq
  have hnone : ∀ n, n ∉ offsets cs := by
    intro n
    induction n using Nat.strong_induction_on with
    | _ n ih =>
      intro hn
      rw [← heq] at hn
      obtain ⟨e, he, rfl⟩ := List.mem_map.1 hn
      obtain ⟨c, hc, hce⟩ := List.mem_flatMap.1 (mem_of_mem_distinctFrom he)
      exact ih c.offset (hs c e hce).offset_lt (List.mem_map_of_mem hc)
  rw [List.eq_nil_iff_forall_not_mem.2 hnone] at heq
  exact hne (List.map_eq_nil_iff.1 heq)

theorem Strides.exactly (hs : Strides step) (hd : d ∈ Cursor.exactly step n cs) :
    ∃ c ∈ cs, Steps (fun c d => d ∈ step c) n c d := by
  induction n generalizing cs with
  | zero => exact ⟨d, hd, .zero d⟩
  | succ n ih =>
    simp only [Cursor.exactly] at hd
    split_ifs at hd with hrest
    · rw [Bool.or_eq_true, List.isEmpty_iff, beq_iff_eq] at hrest
      rcases hrest with hnil | heq
      · rw [hnil] at hd
        cases hd
      · exact absurd heq (hs.offsets_ne (List.ne_nil_of_mem hd))
    · obtain ⟨e, he, hed⟩ := ih hd
      obtain ⟨c, hc, hce⟩ := List.mem_flatMap.1 (mem_of_mem_distinctFrom he)
      exact ⟨c, hc, .succ hce hed⟩

theorem steps_atMost (step : Cursor → List Cursor) (n : Nat) (c : Cursor) :
    ∃ k ≤ n, Steps (fun c d => d ∈ step c) k c (atMost step n c) := by
  induction n generalizing c with
  | zero => exact ⟨0, le_rfl, .zero c⟩
  | succ n ih =>
    simp only [atMost]
    split
    · exact ⟨0, Nat.zero_le _, .zero c⟩
    · rename_i d hd
      split_ifs
      · exact ⟨0, Nat.zero_le _, .zero c⟩
      · obtain ⟨k, hk, hsteps⟩ := ih d
        exact ⟨k + 1, by omega, .succ (List.mem_of_mem_head? hd) hsteps⟩

/-- What a repetition leads to is so many steps away. -/
theorem Strides.between? (hs : Strides step) (hle : min ≤ max)
    (h : Cursor.between? step min max c = some d) :
    ∃ n, min ≤ n ∧ n ≤ max ∧ Steps (fun c d => d ∈ step c) n c d := by
  obtain ⟨e, he, rfl⟩ := Option.map_eq_some_iff.1 h
  obtain ⟨c', hc', hce⟩ := hs.exactly (List.mem_of_mem_head? he)
  rw [List.mem_singleton.1 hc'] at hce
  obtain ⟨k, hk, hed⟩ := steps_atMost step (max - min) e
  exact ⟨min + k, by omega, by omega, hce.add hed⟩

end Text.Cursor

/-- The digit words of a run can be told apart: none begins with a blank, and if one begins with
another, the script is spaced and there is no boundary where the shorter one ends. -/
structure Separable (s : Script) (digits : List DigitWord) : Prop where
  not_blank : ∀ d ∈ digits, ∀ c ∈ d.word.toList.head?, isBlank c = false
  inside : ∀ d ∈ digits, ∀ d' ∈ digits, ∀ u x, d'.word.toList = u ++ x → x ≠ [] →
    Alike d.word.toList u → s = .spaced ∧ (behind u [] x).atBoundary = false

/-- There is no boundary inside a plain word. -/
theorem separable_of_plain {digits : List DigitWord} (h : ∀ d ∈ digits, PlainWord d.word.toList) :
    Separable .spaced digits where
  not_blank := fun d hd c hc => not_blank_of_isWordChar ((h d hd).all c (List.mem_of_mem_head? hc))
  inside := by
    intro d hd d' hd' u x hux hx hdu
    have hall : ∀ c ∈ u ++ x, isWordChar c = true := hux ▸ (h d' hd').all
    have hu : PlainWord u := (h d hd).of_alike hdu
    obtain ⟨c, x, rfl⟩ := List.exists_cons_of_ne_nil hx
    refine ⟨rfl, ?_⟩
    rw [atBoundary_eq]
    simpa [hall c (by simp)] using hu.startsWord_reverse []

/-- Of single ideographs none begins with another. -/
theorem Lexicon.Glyphs.separable {l : Lexicon} (hl : l.Glyphs) (s : Script) :
    Separable s l.digits where
  not_blank := by
    intro d hd c hc
    exact ((hl.digits d hd).2.1 c (List.mem_of_mem_head? hc)).not_blank
  inside := by
    intro d hd d' hd' u x hux hx hdu
    have hlength := (hl.digits d' hd').1
    have hpos := List.length_pos_of_ne_nil hx
    rw [hux, List.length_append, ← hdu.length_eq, (hl.digits d hd).1] at hlength
    omega

namespace NumberPhrase

variable {p : NumberPhrase} {l : Lexicon} {leading trailing : Option (List Spelling)}
  {c d e : Cursor} {u v w x y b t : List Char} {vs : List (List Char)} {n : Nat}

theorem Usable.strides (hp : p.Usable) : Strides (digitEnds p.script p.words) := by
  intro c e he
  obtain ⟨w, hw, u, t, hc, hwu, hue⟩ := exists_of_mem_digitEnds he
  have hu : u ≠ [] := mt hwu.eq_nil_iff.2 (hp.digit_ne_nil w hw)
  exact Ahead.trans_onward ⟨u, t, hu, hc, rfl⟩ hue

/-- The words one after another, with any blanks behind each. -/
inductive Strung : List (List Char) → List Char → Prop where
  | nil : Strung [] []
  | cons {v bl u : List Char} {vs : List (List Char)} (blank : ∀ c ∈ bl, isBlank c = true)
      (rest : Strung vs u) : Strung (v :: vs) (v ++ (bl ++ u))

theorem Strung.infix_of_mem (h : Strung vs u) (hv : v ∈ vs) : v <:+: u := by
  induction h with
  | nil => cases hv
  | @cons v' bl u vs blank rest ih =>
    rcases List.mem_cons.1 hv with rfl | hv
    · exact (List.prefix_append v (bl ++ u)).isInfix
    · exact (ih hv).trans ⟨v' ++ bl, [], by simp⟩

/-- From one place past digit words, up to case, with any blanks behind each, to another; in a
spaced script each ends at a boundary. -/
inductive Past (p : NumberPhrase) : List (List Char) → Cursor → Cursor → Prop where
  | nil (c : Cursor) : Past p [] c c
  | cons {v bl b t : List Char} {vs : List (List Char)} {e : Cursor}
      (digit : p.isDigitWord v = true) (blank : ∀ c ∈ bl, isBlank c = true)
      (ends : p.script = .spaced → (behind v b (bl ++ t)).atBoundary = true)
      (rest : Past p vs (behind bl (v.reverse ++ b) t) e) :
      Past p (v :: vs) (place b (v ++ (bl ++ t))) e

theorem atBoundary_of_mem_wholeWord {ws : List (List Char)} (h : d ∈ wholeWord .spaced ws c) :
    d.atBoundary = true := by
  simp only [wholeWord] at h
  split_ifs at h
  · exact (List.mem_filter.1 h).2
  · cases h

theorem past_of_steps (hp : p.digits ≠ [])
    (h : Steps (fun c d => d ∈ digitEnds p.script p.words c) n c e) :
    ∃ vs, vs.length = n ∧ p.Past vs c e := by
  induction h with
  | zero c => exact ⟨[], rfl, .nil c⟩
  | @succ n c d e first rest ih =>
    obtain ⟨vs, hlength, hpast⟩ := ih
    obtain ⟨f, hf, hd⟩ := List.mem_flatMap.1 first
    obtain ⟨w, hw, v, s, hc, hwv, rfl⟩ := onward_of_mem_anyWord (mem_anyWord_of_mem_wholeWord hf)
    obtain ⟨bl, t, hs, hbl, rfl⟩ := exists_of_mem_run hd
    rw [place_after] at hs
    subst hs
    refine ⟨v :: vs, by rw [List.length_cons, hlength], ?_⟩
    rw [← place_eta c, hc]
    refine .cons ((isDigitWord_iff hp).2 ⟨w, hw, hwv⟩) hbl (fun hscript => ?_) hpast
    rw [hscript] at hf
    exact atBoundary_of_mem_wholeWord hf

theorem any_head?_of_alike (h : Alike u v) :
    u.head?.any isWordChar = v.head?.any isWordChar := by
  cases u with
  | nil => rw [h.eq_nil_iff.1 rfl]
  | cons c u =>
    cases v with
    | nil => exact absurd h.length_eq (by simp)
    | cons d v => exact isWordChar_eq_of_alike (alike_cons_iff.1 h).1

/-- Whether there is a boundary inside a word does not depend on its case. -/
theorem atBoundary_of_alike (hu : Alike u v) (hx : Alike x y) (hv : v ≠ []) (hy : y ≠ []) :
    (behind v b (y ++ t)).atBoundary = (behind u [] x).atBoundary := by
  have hreverse : Alike u.reverse v.reverse := by
    rw [Alike, List.map_reverse, List.map_reverse, hu]
  rw [atBoundary_place, atBoundary_place, List.append_nil, any_head?_of_alike hreverse,
    any_head?_of_alike hx, List.head?_append_of_ne_nil _ (by simpa using hv),
    List.head?_append_of_ne_nil _ hy]

theorem Usable.solid (hp : p.Usable) (hsep : Separable p.script p.digits) : p.Solid where
  digits_ne := hp.digits_ne
  not_blank := by
    intro d hd
    obtain ⟨c, w, hw⟩ := List.exists_cons_of_ne_nil (hp.digits d hd)
    exact ⟨c, by simp [hw], hsep.not_blank d hd c (by simp [hw])⟩

/-- What has been passed is the text of the words; it is cut into the same words where they can be
told apart. -/
theorem Usable.exists_of_past (hp : p.Usable) (h : p.Past vs c e) :
    ∃ u t, c.after = u ++ t ∧ e = behind u c.before t ∧ Strung vs u ∧
      (∀ v ∈ vs, p.isDigitWord v = true) ∧
      (Separable p.script p.digits → Cut p.words.digits vs u) := by
  induction h with
  | nil c => exact ⟨[], c.after, rfl, (place_eta c).symm, .nil, by simp, fun _ => .nil⟩
  | @cons v bl b s vs e digit blank ends rest ih =>
    obtain ⟨u, t, hs, rfl, hstrung, hdigits, hcut⟩ := ih
    rw [place_after] at hs
    subst hs
    refine ⟨v ++ (bl ++ u), t, by simp, ?_, .cons blank hstrung,
      List.forall_mem_cons.2 ⟨digit, hdigits⟩, fun hsep => ?_⟩
    · rw [place_before, place_before, behind_append, behind_append]
    have hword := (isDigitWord_iff hp.digits_ne).1 digit
    refine .cons hword (fun w' hw' x y hxy hlonger => ?_) blank (hcut hsep)
    -- Inside the longer word there would be a boundary where this one ends.
    by_contra hx
    obtain ⟨w, hw, hwv⟩ := hword
    obtain ⟨d, hd, rfl⟩ := (mem_words_digits hp.digits_ne).1 hw
    obtain ⟨d', hd', rfl⟩ := (mem_words_digits hp.digits_ne).1 hw'
    obtain ⟨u', x', hux, hvu, hxx⟩ := hlonger.symm.exists_of_append
    have hx' : x' ≠ [] := mt hxx.eq_nil_iff.2 hx
    have hv : v ≠ [] := mt hwv.eq_nil_iff.2 (hp.digits d hd)
    obtain ⟨hscript, hinside⟩ := hsep.inside d hd d' hd' u' x' hux hx' (hwv.trans hvu)
    have hboundary := ends hscript
    rw [← List.append_assoc, hxy, List.append_assoc,
      atBoundary_of_alike hvu.symm hxx.symm hv hx, hinside] at hboundary
    cases hboundary

theorem exists_of_mem_find (hp : p.Usable) {text : List Char} {m : Match} (hm : m ∈ p.find text) :
    ∃ c h, On text c ∧ p.hitAt? p.words c = some h ∧ h.match? p p.words c = some m := by
  unfold find at hm
  split_ifs at hm
  · cases hm
  · obtain ⟨⟨c, h⟩, hr, hmatch⟩ := List.mem_filterMap.1 hm
    rw [hp.advancing.hits_eq] at hr
    exact ⟨c, h, (hp.advancing.onward_of_mem_hitsAt hr).on rfl, hp.advancing.mem_hitsAt hr, hmatch⟩

theorem Hit.digits_of_match? {h : Hit} {ws : Words} {m : Match} (hm : h.match? p ws c = some m) :
    m.digits = String.ofList (p.numerals ws h.run) := by
  unfold Hit.match? at hm
  split at hm
  · rw [← Option.some.inj hm]
  · obtain ⟨code, -, rfl⟩ := Option.map_eq_some_iff.1 hm
    rfl

/-- A match starts where its hit was found. -/
theorem Hit.start_of_match? {h : Hit} {ws : Words} {m : Match} (hm : h.match? p ws c = some m) :
    m.start = c.offset := by
  unfold Hit.match? at hm
  split at hm
  · rw [← Option.some.inj hm]
  · obtain ⟨code, -, rfl⟩ := Option.map_eq_some_iff.1 hm
    rfl

/-- The run of a hit is of as many digit words as are asked for. -/
theorem Usable.exists_words (hp : p.Usable) (hle : p.min ≤ p.max) {h : Hit}
    (hh : p.hitAt? p.words c = some h) :
    ∃ vs, p.min ≤ vs.length ∧ vs.length ≤ p.max ∧ Strung vs h.run ∧
      (∀ v ∈ vs, p.isDigitWord v = true) ∧
      (Separable p.script p.digits → Cut p.words.digits vs h.run) := by
  obtain ⟨⟨l, d⟩, -, hh⟩ := List.exists_of_findSome?_eq_some hh
  obtain ⟨e, he, hh⟩ := Option.bind_eq_some_iff.1 hh
  obtain ⟨⟨trailing, f⟩, -, hh⟩ := Option.bind_eq_some_iff.1 hh
  obtain rfl := Option.some.inj hh
  obtain ⟨n, hmin, hmax, hsteps⟩ := hp.strides.between? hle he
  obtain ⟨vs, rfl, hpast⟩ := past_of_steps hp.digits_ne hsteps
  obtain ⟨u, t, hd, rfl, hstrung, hdigits, hcut⟩ := hp.exists_of_past hpast
  have hrun : d.upTo (behind u d.before t) = u := upTo_of_after hd
  exact ⟨vs, hmin, hmax, by rw [hrun]; exact hstrung, hdigits, by rw [hrun]; exact hcut⟩

theorem isDigit_numeral {value : Nat} (h : value ≤ 9) : (numeral value).isDigit = true := by
  have hall : ∀ n < 10, (numeral n).isDigit = true := by decide
  exact hall value (by omega)

theorem isDigit_of_mem_numerals (hp : ∀ d ∈ p.digits, d.value ≤ 9) {ws : Words} {g : Char}
    (hg : g ∈ p.numerals ws u) : g.isDigit = true := by
  obtain ⟨r, -, hr⟩ := List.mem_filterMap.1 hg
  obtain ⟨value, hvalue, rfl⟩ := Option.map_eq_some_iff.1 hr
  obtain ⟨d, hd, rfl⟩ := Option.map_eq_some_iff.1 hvalue
  exact isDigit_numeral (hp d (List.mem_of_find?_eq_some hd))

/-- Where the text has the case of the digit words, each of its own has a value. -/
theorem exists_digitValue? {text : List Char}
    (hfaithful : Faithful (p.digits.map DigitWord.word) text) (hv : v <:+: text)
    (hdigit : p.isDigitWord v = true) : ∃ value, p.digitValue? v = some value := by
  obtain ⟨d, hd, hdv⟩ := isDigitWord_eq_true_iff.1 hdigit
  have hlower := hfaithful d.word (List.mem_map_of_mem hd) v hv hdv
  refine Option.ne_none_iff_exists'.1 fun hnone => ?_
  have := List.find?_eq_none.1 (Option.map_eq_none_iff.1 hnone) d hd
  simp [hlower] at this

theorem length_values (h : ∀ v ∈ vs, ∃ value, p.digitValue? v = some value) :
    (p.values vs).length = vs.length := by
  induction vs with
  | nil => rfl
  | cons v vs ih =>
    obtain ⟨⟨value, hvalue⟩, hvs⟩ := List.forall_mem_cons.1 h
    have hcons : p.values (v :: vs) = numeral value :: p.values vs := by
      simp only [values, List.filterMap_cons, hvalue, Option.map_some]
    rw [hcons, List.length_cons, List.length_cons, ih hvs]

section Found

variable {text : List Char} {m : Match}

/-- The digits of a match are read off a run of as many digit words as are asked for. -/
theorem Usable.exists_run (hp : p.Usable) (hle : p.min ≤ p.max) (hm : m ∈ p.find text) :
    ∃ vs u, u <:+: text ∧ Strung vs u ∧ (∀ v ∈ vs, p.isDigitWord v = true) ∧
      p.min ≤ vs.length ∧ vs.length ≤ p.max ∧ m.digits.toList = p.numerals p.words u ∧
      (Separable p.script p.digits → m.digits.toList = p.values vs) := by
  obtain ⟨c, h, hc, hh, hmatch⟩ := exists_of_mem_find hp hm
  obtain ⟨vs, hlow, hhigh, hstrung, hvs, hcut⟩ := hp.exists_words hle hh
  have hrun : h.run <:+: text := (hp.sound hh).infix_run.trans (infix_of_on hc)
  have hnumerals : m.digits.toList = p.numerals p.words h.run := by
    rw [h.digits_of_match? hmatch, String.toList_ofList]
  exact ⟨vs, h.run, hrun, hstrung, hvs, hlow, hhigh, hnumerals, fun hsep =>
    hnumerals.trans ((hp.solid hsep).numerals_of_cut (hcut hsep))⟩

/-- No digit is lost where the words can be told apart and the text has their case. -/
theorem Usable.length_digits (hp : p.Usable) (hle : p.min ≤ p.max)
    (hsep : Separable p.script p.digits) (hfaithful : Faithful (p.digits.map DigitWord.word) text)
    (hm : m ∈ p.find text) :
    p.min ≤ m.digits.toList.length ∧ m.digits.toList.length ≤ p.max := by
  obtain ⟨vs, u, hu, hstrung, hvs, hlow, hhigh, -, hvalues⟩ := hp.exists_run hle hm
  have hvalue : ∀ v ∈ vs, ∃ value, p.digitValue? v = some value := fun v hv =>
    exists_digitValue? hfaithful ((hstrung.infix_of_mem hv).trans hu) (hvs v hv)
  rw [hvalues hsep, length_values hvalue]
  exact ⟨hlow, hhigh⟩

theorem Usable.isDigit_of_mem (hp : p.Usable) (hle : p.min ≤ p.max)
    (hsmall : ∀ d ∈ p.digits, d.value ≤ 9) (hm : m ∈ p.find text) :
    ∀ g ∈ m.digits.toList, g.isDigit = true := by
  obtain ⟨_, _, -, -, -, -, -, hnumerals, -⟩ := hp.exists_run hle hm
  rw [hnumerals]
  exact fun g => isDigit_of_mem_numerals hsmall

end Found

end NumberPhrase

/-- The digit words of a lexicon without flaw are not blank, and their values are digits. -/
theorem Lexicon.digits_of_validate {l : Lexicon} (h : l.validate = .ok ()) :
    l.digits ≠ [] ∧ ∀ d ∈ l.digits, d.value ≤ 9 ∧ d.word.toList ≠ [] := by
  have hl := validate_eq_ok_iff.1 h
  refine ⟨?_, fun d hd => ⟨hl.value_le d hd, ?_⟩⟩
  · intro hnil
    have := hl.digit 0 (by decide)
    simp [canonicalDigit?, hnil] at this
  · intro hnil
    have := hl.not_blank d.word (word_mem_vocabulary hd)
    simp [isBlankText, hnil] at this

namespace NumberPhrase

variable {l : Lexicon} {leading trailing : Option (List Spelling)} {min max : Nat}
  {p : NumberPhrase} {text : String} {m : Match}

/-- The digits of a match are ASCII digits, read off a run of as many digit words as are asked for.
Where the digit words of the lexicon can be told apart, they are the numerals of these words, so
that there are not too many; and where the text has the case of the digit words, not too few. -/
theorem digits_of_mem_find (hl : l.validate = .ok ()) (hmin : 1 ≤ min) (hle : min ≤ max)
    (hp : make l leading min max trailing = .ok p) (hm : m ∈ p.find text.toList) :
    (∀ g ∈ m.digits.toList, g.isDigit = true) ∧
    (∃ vs u, u <:+: text.toList ∧ Strung vs u ∧ (∀ v ∈ vs, p.isDigitWord v = true) ∧
      min ≤ vs.length ∧ vs.length ≤ max ∧ m.digits.toList = p.numerals p.words u ∧
      (Separable l.script l.digits → m.digits.toList = p.values vs)) ∧
    (Separable l.script l.digits → m.digits.toList.length ≤ max ∧
      (Faithful (l.digits.map DigitWord.word) text.toList → min ≤ m.digits.toList.length)) := by
  obtain rfl := eq_of_make hp
  obtain ⟨hne, hdigits⟩ := l.digits_of_validate hl
  set p : NumberPhrase := ⟨l.script, l.digits, leading, min, max, trailing⟩
  have husable : p.Usable := ⟨hmin, hne, fun d hd => (hdigits d hd).2⟩
  obtain ⟨vs, u, hu, hstrung, hvs, hlow, hhigh, hnumerals, hvalues⟩ := husable.exists_run hle hm
  refine ⟨husable.isDigit_of_mem hle (fun d hd => (hdigits d hd).1) hm,
    ⟨vs, u, hu, hstrung, hvs, hlow, hhigh, hnumerals, hvalues⟩, fun hsep => ⟨?_, ?_⟩⟩
  · rw [hvalues hsep]
    exact (List.length_filterMap_le _ vs).trans hhigh
  · exact fun hfaithful => (husable.length_digits hle hsep hfaithful hm).1

/-- Three digits in English. -/
theorem digits_of_mem_find_english :
    ∃ p m, make .english none 3 3 none = .ok p ∧ m ∈ p.find "one two three".toList ∧
      m.digits = "123" ∧ (∀ g ∈ m.digits.toList, g.isDigit = true) ∧
      m.digits.toList.length ≤ 3 ∧ 3 ≤ m.digits.toList.length := by
  have hfound : (Decoder.headingPhrase .english).foundAt? (items "one two three".toList) =
      some ⟨none, ["one".toList, "two".toList, "three".toList], none, []⟩ := by
    rfl
  have hm : ⟨none, "123", none, 0, 13⟩ ∈
      (Decoder.headingPhrase .english).find "one two three".toList := by
    rw [find_eq_scan Decoder.plain_headingPhrase, scan_of_some 0 hfound]
    refine List.mem_append_left _ ?_
    decide +kernel
  have hfaithful : Faithful (Lexicon.english.digits.map DigitWord.word) "one two three".toList :=
    faithful_of_ascii (by decide +kernel) (by decide +kernel)
  obtain ⟨hdigit, -, hcount⟩ := digits_of_mem_find rfl (by decide) le_rfl
    Decoder.make_heading_english hm
  obtain ⟨hhigh, hlow⟩ := hcount (separable_of_plain plainWord_of_english)
  exact ⟨_, _, Decoder.make_heading_english, hm, rfl, hdigit, hhigh, hlow hfaithful⟩

/-- A long s is met by the words for six, but stays a long s in lowercase, so that no digit is left
of three. -/
theorem no_digits_of_mem_find :
    ∃ p m, make .english none 3 3 none = .ok p ∧ m ∈ p.find "ſix ſix ſix".toList ∧
      m.digits = "" := by
  have hfound : (Decoder.headingPhrase .english).foundAt? (items "ſix ſix ſix".toList) =
      some ⟨none, ["ſix".toList, "ſix".toList, "ſix".toList], none, []⟩ := by
    rfl
  refine ⟨_, ⟨none, "", none, 0, 14⟩, Decoder.make_heading_english, ?_, rfl⟩
  rw [find_eq_scan Decoder.plain_headingPhrase, scan_of_some 0 hfound]
  refine List.mem_append_left _ ?_
  decide +kernel

end NumberPhrase

end Phraseology
