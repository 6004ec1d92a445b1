import Phraseology.Proofs.Decoder.Glyphs
import Phraseology.Proofs.NumberPhrase.Front

/-! Digits are read off compact text word by word, and where the digit words of an ideographic
lexicon leave no choice, a number phrase finds the same ones. -/
namespace Phraseology

open Text
open Text.Cursor

namespace Text

variable {b s t u : List Char}

theorem length_le_lowerAfter (b s : List Char) : s.length ≤ (lowerAfter b s).length := by
  induction s generalizing b with
  | nil => exact Nat.zero_le _
  | cons c s ih =>
    have hpos := List.length_pos_of_ne_nil (lowerIn_ne_nil b c s)
    have hrest := ih (c :: b)
    rw [lowerAfter_cons, List.length_append, List.length_cons]
    omega

/-- A text is its own lowercase only if each of its characters is. -/
theorem lowerAfter_eq_self_iff : lowerAfter b s = s ↔ ∀ c ∈ s, lowerChar c = [c] ∧ c ≠ 'Σ' := by
  constructor
  · intro h
    induction s generalizing b with
    | nil => simp
    | cons c s ih =>
      obtain ⟨d, r, hr⟩ := List.exists_cons_of_ne_nil (lowerIn_ne_nil b c s)
      rw [lowerAfter_cons, hr, List.cons_append] at h
      obtain ⟨rfl, hrest⟩ := List.cons.inj h
      -- A character has no lowercase of two if the rest is as long as before.
      have hlength := congrArg List.length hrest
      have hle := length_le_lowerAfter (d :: b) s
      rw [List.length_append] at hlength
      obtain rfl : r = [] := List.length_eq_zero_iff.1 (by omega)
      refine List.forall_mem_cons.2 ⟨?_, ih hrest⟩
      unfold lowerIn at hr
      split_ifs at hr with hsigma hfinal
      · rw [beq_iff_eq.1 hsigma] at hr
        exact absurd (List.cons.inj hr).1 (by decide)
      · rw [beq_iff_eq.1 hsigma] at hr
        exact absurd (List.cons.inj hr).1 (by decide)
      · exact ⟨hr, by simpa using hsigma⟩
  · intro h
    rw [lowerAfter_of_not_mem fun hsigma => (h _ hsigma).2 rfl,
      List.flatMap_congr fun c hc => (h c hc).1]
    simp

/-- Every part of a text in lowercase is in lowercase. -/
theorem lowerChars_eq_of_isInfix (hs : lowerChars s = s) (h : u <:+: s) : lowerChars u = u :=
  lowerAfter_eq_self_iff.2 fun c hc => lowerAfter_eq_self_iff.1 hs c (h.subset hc)

theorem map_fold_eq_of_isInfix (hs : s.map fold = s) (h : u <:+: s) : u.map fold = u := by
  obtain ⟨x, y, rfl⟩ := h
  rw [List.map_append, List.map_append] at hs
  have hfront := (List.append_inj hs (by simp)).1
  exact (List.append_inj hfront (by simp)).2

end Text

namespace Decoder

variable {digits : List DigitWord} {s t : List Char} {n m value : Nat}

section Small

variable (hdigits : ∀ d ∈ digits, d.value ≤ 9 ∧ d.word.toList ≠ [])

include hdigits

/-- Each digit takes up a word of the table, so at least one character, and room for one. -/
theorem exists_of_leadingDigit? (h : leadingDigit? digits s = some (value, t)) :
    (∃ d ∈ digits, d.value = value ∧ lowerChars d.word.toList ++ t = s) ∧ t.length < s.length ∧
      ∀ n, leadingNumerals digits (n + 1) s = numeral value :: leadingNumerals digits n t := by
  obtain ⟨before, d, after, hsplit, rfl, rfl, -⟩ := leadingDigit?_eq_some_iff.1 h
  have hd : d ∈ digits := by simp [hsplit]
  obtain ⟨hsmall, hne⟩ := hdigits d hd
  have hpos := List.length_pos_of_ne_nil (mt lowerChars_eq_nil_iff.1 hne)
  exact ⟨⟨d, hd, rfl, rfl⟩, by rw [List.length_append]; omega, fun n =>
    leadingNumerals_succ n hsmall h⟩

/-- The numerals are those of digit words that the text begins with: as many as there is room for,
or all until none comes next. -/
theorem exists_read (n : Nat) (s : List Char) :
    ∃ (ds : List DigitWord) (t : List Char), (∀ d ∈ ds, d ∈ digits) ∧
      s = (ds.flatMap fun d => lowerChars d.word.toList) ++ t ∧
      leadingNumerals digits n s = ds.map (fun d => numeral d.value) ∧
      ds.length + t.length ≤ s.length ∧ ds.length ≤ n ∧
      (ds.length = n ∨ leadingDigit? digits t = none) := by
  induction n generalizing s with
  | zero => exact ⟨[], s, by simp, rfl, by rw [leadingNumerals]; rfl, by simp, le_rfl, .inl rfl⟩
  | succ n ih =>
    cases hread : leadingDigit? digits s with
    | none => exact ⟨[], s, by simp, rfl, leadingNumerals_of_none _ hread, by simp, by simp,
        .inr hread⟩
    | some read =>
      obtain ⟨⟨d, hd, hvalue, hs⟩, hlt, hcons⟩ := exists_of_leadingDigit? hdigits hread
      obtain ⟨ds, t, hds, hrest, hnumerals, hlength, hle, hstop⟩ := ih read.2
      refine ⟨d :: ds, t, List.forall_mem_cons.2 ⟨hd, hds⟩, ?_, ?_, ?_, by simpa using hle,
        hstop.imp_left (by simp)⟩
      · rw [List.flatMap_cons, List.append_assoc, ← hrest, hs]
      · rw [hcons, hnumerals, List.map_cons, hvalue]
      · rw [List.length_cons]
        omega

/-- More room than the text has characters changes nothing. -/
theorem leadingNumerals_eq_of_length_le (hn : s.length ≤ n) (hm : s.length ≤ m) :
    leadingNumerals digits n s = leadingNumerals digits m s := by
  induction hk : s.length using Nat.strong_induction_on generalizing s n m with
  | _ k ih =>
    subst hk
    cases hread : leadingDigit? digits s with
    | none => rw [leadingNumerals_of_none _ hread, leadingNumerals_of_none _ hread]
    | some read =>
      obtain ⟨value, t⟩ := read
      obtain ⟨-, hlt, hcons⟩ := exists_of_leadingDigit? hdigits hread
      obtain ⟨n, rfl⟩ := Nat.exists_eq_succ_of_ne_zero (n := n) (by omega)
      obtain ⟨m, rfl⟩ := Nat.exists_eq_succ_of_ne_zero (n := m) (by omega)
      have hrest : leadingNumerals digits n t = leadingNumerals digits m t :=
        ih t.length hlt (by omega) (by omega) rfl
      rw [hcons, hcons, hrest]

end Small

end Decoder

/-- No digit word of the text can be taken for another: it is written in the text as it is heard,
and no word is listed before a longer one that begins with it. -/
structure Lexicon.Distinct (l : Lexicon) (s : List Char) : Prop where
  same_case : ∀ d ∈ l.digits,
    d.word.toList.map fold <:+: s ∨ lowerChars d.word.toList <:+: s →
      d.word.toList.map fold = lowerChars d.word.toList
  longest_first : l.digits.Pairwise fun d e => lowerChars e.word.toList <:+: s →
    lowerChars d.word.toList <+: lowerChars e.word.toList →
      lowerChars d.word.toList = lowerChars e.word.toList

namespace Lexicon

variable {l : Lexicon} {s t : List Char} {max n : Nat}

theorem Distinct.part (h : l.Distinct s) (hts : t <:+: s) : l.Distinct t where
  same_case := fun d hd hw =>
    h.same_case d hd (hw.imp (fun hw => hw.trans hts) fun hw => hw.trans hts)
  longest_first := h.longest_first.imp fun hde he => hde (he.trans hts)

/-- Single ideographs leave no choice in any text. -/
theorem Glyphs.distinct (hl : l.Glyphs) (s : List Char) : l.Distinct s where
  same_case := by
    intro d hd _
    obtain ⟨-, hword, -⟩ := hl.digits d hd
    rw [hword.lowerChars_eq, hword.map_fold_eq]
  longest_first := by
    refine List.pairwise_of_forall_mem_list fun d hd e he _ hde => ?_
    obtain ⟨hd, hword, -⟩ := hl.digits d hd
    obtain ⟨he, hword', -⟩ := hl.digits e he
    rw [hword.lowerChars_eq, hword'.lowerChars_eq] at hde ⊢
    exact hde.eq_of_length (hd.trans he.symm)

end Lexicon

namespace Decoder

variable {l : Lexicon} {s t : List Char} {value : Nat}

open NumberPhrase (ofLexicon)

/-- Where no digit word is read, none is heard either. -/
theorem anyWord_of_leadingDigit?_none (max : Nat) (hl : l.validate = .ok ()) (h : l.Distinct s)
    (hfold : s.map fold = s) (hread : leadingDigit? l.digits s = none) (b : List Char) :
    anyWord (ofLexicon l max).words.digits (place b s) = [] := by
  rw [List.eq_nil_iff_forall_not_mem]
  intro e he
  obtain ⟨w, hw, u, t, rfl, hwu, -⟩ := mem_anyWord.1 he
  obtain ⟨d, hd, rfl⟩ := (NumberPhrase.mem_words_digits (l.digits_of_validate hl).1).1 hw
  have hu : d.word.toList.map fold = u :=
    Eq.trans hwu (map_fold_eq_of_isInfix hfold (List.prefix_append u t).isInfix)
  have hcase := h.same_case d hd (.inl (hu ▸ (List.prefix_append u t).isInfix))
  exact leadingDigit?_eq_none_iff.1 hread d hd ⟨t, by rw [← hcase, hu]⟩

/-- A longer word that is heard would be read instead of the one that is. -/
theorem eq_nil_of_longer {d e : DigitWord} {before after : List DigitWord} {x y : List Char}
    (h : l.Distinct (lowerChars d.word.toList ++ (x ++ y)))
    (hfold : (lowerChars d.word.toList ++ (x ++ y)).map fold =
      lowerChars d.word.toList ++ (x ++ y))
    (hsplit : l.digits = before ++ d :: after)
    (hbefore : ∀ e ∈ before, ¬ lowerChars e.word.toList <+: lowerChars d.word.toList ++ (x ++ y))
    (he : e ∈ l.digits) (halike : Alike e.word.toList (lowerChars d.word.toList ++ x)) :
    x = [] := by
  have hprefix : lowerChars d.word.toList ++ x <+: lowerChars d.word.toList ++ (x ++ y) :=
    ⟨y, List.append_assoc ..⟩
  have hfolded : e.word.toList.map fold = lowerChars d.word.toList ++ x :=
    Eq.trans halike (map_fold_eq_of_isInfix hfold hprefix.isInfix)
  have hlowered : lowerChars e.word.toList = lowerChars d.word.toList ++ x :=
    (h.same_case e he (.inl (hfolded ▸ hprefix.isInfix))).symm.trans hfolded
  have hde : lowerChars d.word.toList = lowerChars e.word.toList := by
    rw [hsplit, List.mem_append, List.mem_cons] at he
    rcases he with he | rfl | he
    · exact absurd (hlowered ▸ hprefix) (hbefore e he)
    · rfl
    · have hsorted := h.longest_first
      rw [hsplit] at hsorted
      have hde := (List.pairwise_cons.1 (List.pairwise_append.1 hsorted).2.1).1 e he
      exact hde (hlowered ▸ hprefix.isInfix) (hlowered ▸ List.prefix_append _ x)
  simpa using hde.trans hlowered

/-- The digit word that is read is the one that is heard, and has its value. -/
theorem heard_of_leadingDigit? (max : Nat) (hl : l.validate = .ok ()) (h : l.Distinct s)
    (hlower : lowerChars s = s) (hfold : s.map fold = s)
    (hread : leadingDigit? l.digits s = some (value, t)) :
    ∃ v, s = v ++ t ∧ (∃ w ∈ (ofLexicon l max).words.digits, Alike w v) ∧
      (∀ w ∈ (ofLexicon l max).words.digits, ∀ x y, t = x ++ y → Alike w (v ++ x) → x = []) ∧
      (ofLexicon l max).digitValue? v = some value := by
  have hwords {w : List Char} : w ∈ (ofLexicon l max).words.digits ↔
      ∃ d ∈ l.digits, d.word.toList = w :=
    NumberPhrase.mem_words_digits (l.digits_of_validate hl).1
  obtain ⟨before, d, after, hsplit, rfl, rfl, hbefore⟩ := leadingDigit?_eq_some_iff.1 hread
  have hd : d ∈ l.digits := by simp [hsplit]
  have hv : lowerChars d.word.toList <:+: lowerChars d.word.toList ++ t :=
    (List.prefix_append _ t).isInfix
  refine ⟨lowerChars d.word.toList, rfl, ⟨_, hwords.2 ⟨d, hd, rfl⟩, ?_⟩, ?_, ?_⟩
  · exact (h.same_case d hd (.inr hv)).trans (map_fold_eq_of_isInfix hfold hv).symm
  · rintro w hw x y rfl hwx
    obtain ⟨e, he, rfl⟩ := hwords.1 hw
    exact eq_nil_of_longer h hfold hsplit hbefore he hwx
  · have hfind : l.digits.find? (fun e => lowerChars e.word.toList ==
        lowerChars (lowerChars d.word.toList)) = some d := by
      rw [lowerChars_eq_of_isInfix hlower hv, List.find?_eq_some_iff_append]
      refine ⟨beq_self_eq_true _, before, after, hsplit, fun e he => ?_⟩
      rw [Bool.not_eq_true', beq_eq_false_iff_ne]
      exact fun heq => hbefore e he (heq ▸ List.prefix_append _ t)
    exact congrArg (Option.map DigitWord.value) hfind

/-- What is read off the front are the numerals of the words that are heard there. -/
theorem exists_fronts (max : Nat) (hl : l.validate = .ok ()) (h : l.Distinct s)
    (hlower : lowerChars s = s) (hfold : s.map fold = s) (n : Nat) :
    ∃ vs t, Fronts (ofLexicon l max).words.digits vs s t ∧ vs.length ≤ n ∧
      (vs.length = n ∨ ∀ b, anyWord (ofLexicon l max).words.digits (place b t) = []) ∧
      leadingNumerals l.digits n s = (ofLexicon l max).values vs ∧
      ∀ v ∈ vs, ∃ value, (ofLexicon l max).digitValue? v = some value := by
  induction n generalizing s with
  | zero => exact ⟨[], s, .nil s, le_rfl, .inl rfl, by rw [leadingNumerals]; rfl, by simp⟩
  | succ n ih =>
    cases hread : leadingDigit? l.digits s with
    | none =>
      exact ⟨[], s, .nil s, by simp, .inr (anyWord_of_leadingDigit?_none max hl h hfold hread),
        leadingNumerals_of_none _ hread, by simp⟩
    | some read =>
      obtain ⟨value, t⟩ := read
      obtain ⟨-, -, hcons⟩ := exists_of_leadingDigit? (l.digits_of_validate hl).2 hread
      obtain ⟨v, rfl, hword, hlongest, hvalue⟩ :=
        heard_of_leadingDigit? max hl h hlower hfold hread
      have ht : t <:+: v ++ t := (List.suffix_append v t).isInfix
      obtain ⟨vs, r, hfronts, hle, hstop, hnumerals, hvalues⟩ := ih (h.part ht)
        (lowerChars_eq_of_isInfix hlower ht) (map_fold_eq_of_isInfix hfold ht)
      refine ⟨v :: vs, r, .cons hword hlongest hfronts, by simpa using hle,
        hstop.imp_left (by simp), ?_, List.forall_mem_cons.2 ⟨⟨value, hvalue⟩, hvalues⟩⟩
      rw [hcons, hnumerals, NumberPhrase.values, NumberPhrase.values, List.filterMap_cons, hvalue]
      rfl

/-- Compact text in lowercase is read by the decoder as it is heard by a number phrase. Where the
digit words in it leave no choice, the digits that it begins with are those of the match at its
start, and there are none if and only if there is no such match. Whatever the words are, each digit
takes up one of them, so room for more digits than the text has characters changes nothing. -/
theorem leadingNumerals_eq_digits {l : Lexicon} (hscript : l.script = .ideographic)
    (hl : l.validate = .ok ()) (max : Nat) (hmax : 1 ≤ max) {s : List Char}
    (hblank : ∀ c ∈ s, isBlank c = false) (hlower : lowerChars s = s) (hfold : s.map fold = s) :
    (l.Distinct s →
      (∀ m ∈ (ofLexicon l max).find s, m.start = 0 →
        m.digits = String.ofList (leadingNumerals l.digits max s)) ∧
      (leadingNumerals l.digits max s = [] ↔ ∀ m ∈ (ofLexicon l max).find s, m.start ≠ 0)) ∧
    (∃ (ds : List DigitWord) (t : List Char), (∀ d ∈ ds, d ∈ l.digits) ∧
      s = (ds.flatMap fun d => lowerChars d.word.toList) ++ t ∧
      leadingNumerals l.digits max s = ds.map (fun d => numeral d.value) ∧
      ds.length + t.length ≤ s.length ∧ ds.length ≤ max ∧
      (ds.length = max ∨ leadingDigit? l.digits t = none)) ∧
    ∀ room ≥ s.length, leadingNumerals l.digits room s = leadingNumerals l.digits s.length s := by
  have hdigits := (l.digits_of_validate hl).2
  refine ⟨fun h => ?agree, exists_read hdigits max s, fun room hroom =>
    leadingNumerals_eq_of_length_le hdigits hroom le_rfl⟩
  case agree =>
    obtain ⟨vs, t, hfronts, hle, hstop, hnumerals, hvalues⟩ :=
      exists_fronts max hl h hlower hfold max
    have hmatch (m : NumberPhrase.Match) := NumberPhrase.mem_find_and_start_iff_of_fronts (m := m)
      hl hscript hmax hblank hfronts hle hstop
    have hempty : leadingNumerals l.digits max s = [] ↔ vs = [] := by
      rw [hnumerals, ← List.length_eq_zero_iff, NumberPhrase.length_values hvalues,
        List.length_eq_zero_iff]
    refine ⟨fun m hm hstart => ?_, ?_⟩
    · rw [((hmatch m).1 ⟨hm, hstart⟩).2, hnumerals]
    · rw [hempty]
      constructor
      · intro hvs m hm hstart
        exact ((hmatch m).1 ⟨hm, hstart⟩).1 hvs
      · intro hnone
        by_contra hvs
        obtain ⟨hm, hstart⟩ := (hmatch _).2 ⟨hvs, rfl⟩
        exact hnone _ hm hstart

/-- The digits at the front of a Mandarin text. -/
theorem leadingNumerals_eq_digits_mandarin :
    leadingNumerals Lexicon.mandarin.digits 3 "幺两三".toList = ['1', '2', '3'] ∧
      ∃ m ∈ (ofLexicon .mandarin 3).find "幺两三".toList, m.start = 0 ∧ m.digits = "123" := by
  have hread : leadingNumerals Lexicon.mandarin.digits 3 "幺两三".toList = ['1', '2', '3'] := by
    decide +kernel
  have htext : Ideographic "幺两三".toList := ideographic_of_all (by decide +kernel)
  obtain ⟨hagree, -⟩ := leadingNumerals_eq_digits (l := .mandarin) rfl rfl 3 (by decide)
    (fun c hc => (htext c hc).not_blank) htext.lowerChars_eq htext.map_fold_eq
  obtain ⟨hdigits, hempty⟩ := hagree (Lexicon.glyphs_mandarin.distinct _)
  rw [hread] at hdigits hempty
  obtain ⟨m, hm, hstart⟩ : ∃ m ∈ (ofLexicon .mandarin 3).find "幺两三".toList, m.start = 0 := by
    by_contra hnone
    push Not at hnone
    exact absurd (hempty.2 hnone) (by simp)
  exact ⟨hread, m, hm, hstart, hdigits m hm hstart⟩

/-- With nine listed before niner, the decoder takes the one for the other and stops in the middle
of it, where a number phrase goes on. -/
theorem leadingNumerals_ne_digits :
    ∃ l : Lexicon, l.script = .ideographic ∧ l.validate = .ok () ∧
      (∀ c ∈ "ninerone".toList, isBlank c = false) ∧
      lowerChars "ninerone".toList = "ninerone".toList ∧
      "ninerone".toList.map fold = "ninerone".toList ∧
      leadingNumerals l.digits 2 "ninerone".toList = ['9'] ∧
      ∃ m ∈ (ofLexicon l 2).find "ninerone".toList, m.start = 0 ∧ m.digits = "91" := by
  set l : Lexicon := { Lexicon.english with script := .ideographic } with hl
  have hvalid : l.validate = .ok () := by decide +kernel
  have hblank : ∀ c ∈ "ninerone".toList, isBlank c = false := by
    simpa using (by decide : "ninerone".toList.all (!isBlank ·) = true)
  have hlength : ∀ w ∈ (ofLexicon l 2).words.digits, w.length ≤ 5 := by decide +kernel
  have hfronts : Fronts (ofLexicon l 2).words.digits ["niner".toList, "one".toList]
      "ninerone".toList [] := by
    refine .cons (v := "niner".toList) (s := "one".toList)
      ⟨"niner".toList, by decide +kernel, rfl⟩ ?_
      (.cons (v := "one".toList) ⟨"one".toList, by decide +kernel, rfl⟩ ?_ (.nil []))
    · intro w hw x y _ hwx
      have hle := hlength w hw
      rw [hwx.length_eq, List.length_append] at hle
      exact List.length_eq_zero_iff.1 (by simpa using hle)
    · intro w _ x y hxy _
      exact (List.append_eq_nil_iff.1 hxy.symm).1
  refine ⟨l, rfl, hvalid, hblank, by decide +kernel, by decide +kernel, by decide +kernel, ?_⟩
  obtain ⟨hm, hstart⟩ := (NumberPhrase.mem_find_and_start_iff_of_fronts hvalid rfl (by decide)
    hblank hfronts le_rfl (.inl rfl)).2 ⟨by simp, rfl⟩
  exact ⟨_, hm, hstart, by decide +kernel⟩

end Decoder

end Phraseology
