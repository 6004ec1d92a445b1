import Phraseology.Proofs.Text.Search

/-! A text within another, told by their words: the first may be the end of a longer word and the
last the beginning of one. -/
namespace Phraseology.Text

variable {b bl s t u v w : List Char} {us ts vs : List (List Char)} {c : Char}

theorem exists_of_mem_lowerAfter {d : Char} (hd : d ∈ lowerAfter b u) :
    ∃ c ∈ u, isBlank d = isBlank c := by
  induction u generalizing b with
  | nil => cases hd
  | cons c u ih =>
    rw [lowerAfter_cons] at hd
    rcases List.mem_append.1 hd with hd | hd
    · exact ⟨c, by simp, isBlank_of_mem_lowerIn hd⟩
    · obtain ⟨c', hc', hd⟩ := ih hd
      exact ⟨c', List.mem_cons_of_mem c hc', hd⟩

theorem Unbroken.lowerChars (hu : Unbroken u) : Unbroken (lowerChars u) where
  ne_nil := fun h => hu.ne_nil (lowerChars_eq_nil_iff.1 h)
  not_blank := by
    intro d hd
    obtain ⟨c, hc, hd⟩ := exists_of_mem_lowerAfter hd
    rw [hd, hu.not_blank c hc]

theorem head?_lowerAfter_blank (h : ∀ c ∈ t.head?, isBlank c = true) (b : List Char) :
    ∀ c ∈ (lowerAfter b t).head?, isBlank c = true := by
  cases t with
  | nil => simp [lowerAfter]
  | cons d t =>
    intro c hc
    have hhead := head?_lowerAfter b d t
    rw [Option.mem_def.1 hc, h d rfl] at hhead
    exact Option.some.inj hhead

theorem lowerAfter_blank (hc : isBlank c = true) (b s : List Char) :
    lowerAfter b (c :: s) = c :: lowerAfter (c :: b) s := by
  have hsigma : (c == 'Σ') = false := by
    refine beq_false_of_ne ?_
    rintro rfl
    exact absurd hc (by decide)
  rw [lowerAfter_cons, lowerIn, hsigma, if_neg (by decide), lowerChar_of_blank hc,
    List.singleton_append]

private theorem wordChars_lowerAfter
    (h : startsCased b = false ∨ ∀ c ∈ s.head?, isBlank c = true) :
    wordChars (lowerAfter b s) = (wordChars s).map lowerChars := by
  induction s using word_induction generalizing b with
  | nil => rfl
  | blank c s hc ih =>
    have hcb : startsCased (c :: b) = false := startsCased_of_blank (by simpa using hc)
    rw [lowerAfter_blank hc, wordChars_blank hc, wordChars_blank hc, ih (.inl hcb)]
  | word u t hu ht ih =>
    have hb : startsCased b = false := by
      refine h.resolve_right fun hblank => ?_
      obtain ⟨c, u, rfl⟩ := List.exists_cons_of_ne_nil hu.ne_nil
      have hc := hblank c rfl
      rw [hu.not_blank c (by simp)] at hc
      cases hc
    rw [lowerAfter_word ht hb, wordChars_unbroken hu ht,
      wordChars_unbroken hu.lowerChars (head?_lowerAfter_blank ht _), ih (.inr ht), List.map_cons]

/-- Each word has a lowercase of its own. -/
@[simp] theorem wordChars_lowerChars (s : List Char) :
    wordChars (lowerChars s) = (wordChars s).map lowerChars := wordChars_lowerAfter (.inl rfl)

def lowerWords (s : String) : List (List Char) := (wordChars s.toList).map lowerChars

theorem lowerWords_eq (s : String) : lowerWords s = (words s).map (lowerChars ·.toList) := by
  rw [lowerWords, ← map_toList_words, List.map_map]
  rfl

theorem wordChars_blanks_append (h : ∀ c ∈ bl, isBlank c = true) (s : List Char) :
    wordChars (bl ++ s) = wordChars s := by
  induction bl with
  | nil => rfl
  | cons c bl ih =>
    obtain ⟨hc, hbl⟩ := List.forall_mem_cons.1 h
    rw [List.cons_append, wordChars_blank hc, ih hbl]

theorem wordChars_append_blanks (h : ∀ c ∈ bl, isBlank c = true) (s : List Char) :
    wordChars (s ++ bl) = wordChars s := by
  induction s using word_induction with
  | nil => simpa using wordChars_blanks_append h []
  | blank c s hc ih => rw [List.cons_append, wordChars_blank hc, wordChars_blank hc, ih]
  | word u t hu ht ih =>
    have ht' : ∀ c ∈ (t ++ bl).head?, isBlank c = true := by
      cases t with
      | nil => exact fun c hc => h c (List.mem_of_mem_head? hc)
      | cons d t => exact ht
    rw [List.append_assoc, wordChars_unbroken hu ht', wordChars_unbroken hu ht, ih]

@[simp] theorem wordChars_trimChars (s : List Char) : wordChars (trimChars s) = wordChars s := by
  obtain ⟨bl, bl', hs, hbl, hbl'⟩ := exists_trimChars s
  rw [hs, wordChars_blanks_append hbl, wordChars_append_blanks hbl', ← hs]

theorem Trimmed.lowerChars (ht : Trimmed t) : Trimmed (lowerChars t) where
  head := by
    intro c hc
    cases t with
    | nil => cases hc
    | cons d t =>
      have hhead := head?_lowerAfter [] d t
      rw [Option.mem_def, Text.lowerChars] at hc
      rw [hc, ht.head d rfl] at hhead
      exact Option.some.inj hhead
  last := by
    intro c hc
    rcases List.eq_nil_or_concat' t with rfl | ⟨t, d, rfl⟩
    · cases hc
    · have hlast := getLast?_lowerAfter [] t d
      rw [Option.mem_def, Text.lowerChars] at hc
      rw [hc, ht.last d (by simp)] at hlast
      exact Option.some.inj hlast

/-- The words one after another among others, except that the first may be the end of a longer word
and the last the beginning of one. -/
def Embedded (us ts : List (List Char)) : Prop :=
  ∃ x y before after, ts = before ++ ((us.modifyLast (· ++ y)).modifyHead (x ++ ·) ++ after)

theorem exists_modifyLast (f : List Char → List Char) (hus : us ≠ []) :
    ∃ w ws, us.modifyLast f = w :: ws := by
  rw [← List.dropLast_append_getLast hus, List.modifyLast_concat]
  exact List.exists_cons_of_ne_nil (by simp)

/-- Whole words are embedded. -/
theorem embedded_of_infix (h : us <:+: ts) : Embedded us ts := by
  obtain ⟨before, after, rfl⟩ := h
  have hlast : us.modifyLast (· ++ []) = us := by
    rcases List.eq_nil_or_concat' us with rfl | ⟨vs, v, rfl⟩
    · rfl
    · rw [List.modifyLast_concat, List.append_nil]
  have hhead : us.modifyHead ([] ++ ·) = us := congrFun List.modifyHead_id us
  exact ⟨[], [], before, after, by rw [hlast, hhead, List.append_assoc]⟩

/-- A text goes on up to the next blank. -/
theorem exists_not_blank (s : List Char) :
    ∃ v t, s = v ++ t ∧ (∀ c ∈ v, isBlank c = false) ∧ ∀ c ∈ t.head?, isBlank c = true := by
  refine ⟨_, _, (List.takeWhile_append_dropWhile (p := (!isBlank ·)) (l := s)).symm,
    fun c hc => by simpa using List.mem_takeWhile_imp hc, fun c hc => ?_⟩
  have hhead := List.head?_dropWhile_not (!isBlank ·) s
  rw [Option.mem_def.1 hc] at hhead
  simpa using hhead

theorem Unbroken.append (hu : Unbroken u) (hv : ∀ c ∈ v, isBlank c = false) :
    Unbroken (u ++ v) where
  ne_nil := List.append_ne_nil_of_left_ne_nil hu.ne_nil v
  not_blank := List.forall_mem_append.2 ⟨hu.not_blank, hv⟩

/-- A text that does not begin with a blank begins with a word. -/
theorem exists_unbroken (hs : s ≠ []) (hhead : ∀ c ∈ s.head?, isBlank c = false) :
    ∃ v t, s = v ++ t ∧ Unbroken v ∧ ∀ c ∈ t.head?, isBlank c = true := by
  obtain ⟨v, t, rfl, hv, ht⟩ := exists_not_blank s
  refine ⟨v, t, rfl, ⟨?_, hv⟩, ht⟩
  rintro rfl
  obtain ⟨c, t, rfl⟩ := List.exists_cons_of_ne_nil hs
  have hc := hhead c rfl
  rw [ht c rfl] at hc
  cases hc

/-- Behind a text that does not end in a blank the last word may go on. -/
theorem exists_wordChars_append (ht : t ≠ []) (hlast : ∀ c ∈ t.getLast?, isBlank c = false)
    (s : List Char) : wordChars t ≠ [] ∧
      ∃ y after, wordChars (t ++ s) = (wordChars t).modifyLast (· ++ y) ++ after := by
  induction t using word_induction with
  | nil => exact absurd rfl ht
  | blank c t hc ih =>
    have hne : t ≠ [] := by
      rintro rfl
      rw [hlast c rfl] at hc
      cases hc
    rw [← List.singleton_append, List.getLast?_append_of_ne_nil _ hne] at hlast
    rw [List.cons_append, wordChars_blank hc, wordChars_blank hc]
    exact ih hne hlast
  | word u t hu hhead ih =>
    refine ⟨by rw [wordChars_unbroken hu hhead]; simp, ?_⟩
    by_cases hne : t = []
    · subst hne
      obtain ⟨y, r, rfl, hy, hr⟩ := exists_not_blank s
      refine ⟨y, wordChars r, ?_⟩
      rw [List.append_nil, hu.wordChars_eq, ← List.append_assoc,
        wordChars_unbroken (hu.append hy) hr]
      rfl
    · rw [List.getLast?_append_of_ne_nil _ hne] at hlast
      obtain ⟨hwords, y, after, heq⟩ := ih hne hlast
      refine ⟨y, after, ?_⟩
      have hhead' : ∀ c ∈ (t ++ s).head?, isBlank c = true := by
        rwa [List.head?_append_of_ne_nil _ hne]
      rw [List.append_assoc, wordChars_unbroken hu hhead', heq, wordChars_unbroken hu hhead,
        ← List.singleton_append, ← List.singleton_append (l := wordChars t),
        List.modifyLast_append_of_right_ne_nil _ _ _ hwords, List.append_assoc]

/-- Before a text that does not begin with a blank the first word may have begun. -/
theorem exists_append_wordChars (ht : t ≠ []) (hhead : ∀ c ∈ t.head?, isBlank c = false)
    (s : List Char) :
    ∃ before x, wordChars (s ++ t) = before ++ (wordChars t).modifyHead (x ++ ·) := by
  induction s using word_induction with
  | nil =>
    refine ⟨[], [], ?_⟩
    rw [List.nil_append, List.nil_append]
    exact (congrFun List.modifyHead_id (wordChars t)).symm
  | blank c s hc ih =>
    rw [List.cons_append, wordChars_blank hc]
    exact ih
  | word u s hu hs ih =>
    by_cases hne : s = []
    · subst hne
      obtain ⟨v, r, rfl, hv, hr⟩ := exists_unbroken ht hhead
      refine ⟨[], u, ?_⟩
      rw [List.append_nil, ← List.append_assoc,
        wordChars_unbroken (hu.append hv.not_blank) hr, wordChars_unbroken hv hr]
      rfl
    · obtain ⟨before, x, heq⟩ := ih
      have hs' : ∀ c ∈ (s ++ t).head?, isBlank c = true := by
        rwa [List.head?_append_of_ne_nil _ hne]
      refine ⟨u :: before, x, ?_⟩
      rw [List.append_assoc, wordChars_unbroken hu hs', heq, List.cons_append]

/-- The words of a part of a text stand among its words. -/
theorem Trimmed.embedded (ht : Trimmed t) (h : t <:+: s) :
    Embedded (wordChars t) (wordChars s) := by
  obtain ⟨s₁, s₂, rfl⟩ := h
  by_cases hne : t = []
  · subst hne
    exact ⟨[], [], [], _, rfl⟩
  · have hhead : ∀ c ∈ (t ++ s₂).head?, isBlank c = false := by
      rw [List.head?_append_of_ne_nil _ hne]
      exact ht.head
    obtain ⟨hwords, y, after, hbehind⟩ := exists_wordChars_append hne ht.last s₂
    obtain ⟨before, x, hbefore⟩ :=
      exists_append_wordChars (List.append_ne_nil_of_left_ne_nil hne s₂) hhead s₁
    refine ⟨x, y, before, after, ?_⟩
    obtain ⟨w, ws, hlast⟩ := exists_modifyLast (· ++ y) hwords
    rw [List.append_assoc, hbefore, hbehind, hlast]
    rfl

/-- If no longer word has the first or the last of the words in it, these are whole words. -/
theorem Embedded.whole (h : Embedded us ts)
    (hfirst : ∀ u ∈ us.head?, ∀ w ∈ ts, u <:+: w → w = u)
    (hlast : ∀ u ∈ us.getLast?, ∀ w ∈ ts, u <:+: w → w = u) : us <:+: ts := by
  obtain ⟨x, y, before, after, rfl⟩ := h
  have hwhole : (us.modifyLast (· ++ y)).modifyHead (x ++ ·) = us := by
    rcases List.eq_nil_or_concat' us with rfl | ⟨vs, v, rfl⟩
    · rfl
    · rw [List.modifyLast_concat] at hfirst hlast ⊢
      have hv : v ∈ (vs ++ [v]).getLast? := by simp
      cases vs with
      | nil =>
        have hmem := hlast v hv (x ++ (v ++ y)) (by simp) ⟨x, y, by simp⟩
        exact congrArg (fun w => [w]) hmem
      | cons u vs =>
        have hu := hfirst u rfl (x ++ u) (by simp) ⟨x, [], by simp⟩
        have hv := hlast v hv (v ++ y) (by simp) ⟨[], y, by simp⟩
        rw [hv, List.cons_append, List.modifyHead_cons, hu]
  rw [hwhole]
  exact ⟨before, after, by simp⟩

theorem intercalate_append (s : List Char) (hus : us ≠ []) (hts : ts ≠ []) :
    s.intercalate (us ++ ts) = s.intercalate us ++ (s ++ s.intercalate ts) := by
  induction us with
  | nil => exact absurd rfl hus
  | cons u us ih =>
    by_cases hnil : us = []
    · rw [hnil, List.singleton_append, List.intercalate_cons_of_ne_nil hts,
        List.intercalate_singleton, List.append_assoc]
    · rw [List.cons_append,
        List.intercalate_cons_of_ne_nil (List.append_ne_nil_of_left_ne_nil hnil ts), ih hnil,
        List.intercalate_cons_of_ne_nil hnil]
      simp only [List.append_assoc]

theorem infix_intercalate (s : List Char) (h : us <:+: ts) :
    s.intercalate us <:+: s.intercalate ts := by
  by_cases hus : us = []
  · rw [hus, List.intercalate_nil]
    exact List.nil_infix
  obtain ⟨before, after, rfl⟩ := h
  have hbehind : s.intercalate (before ++ us) <:+: s.intercalate (before ++ us ++ after) := by
    by_cases hafter : after = []
    · rw [hafter, List.append_nil]
    · rw [intercalate_append s (List.append_ne_nil_of_right_ne_nil before hus) hafter]
      exact (List.prefix_append _ _).isInfix
  refine .trans ?_ hbehind
  by_cases hbefore : before = []
  · rw [hbefore, List.nil_append]
  · rw [intercalate_append s hbefore hus, ← List.append_assoc]
    exact (List.suffix_append _ _).isInfix

/-- Words that are longer at their ends have the others in them. -/
theorem intercalate_modify (s x y : List Char) (hus : us ≠ []) :
    s.intercalate ((us.modifyLast (· ++ y)).modifyHead (x ++ ·)) =
      x ++ (s.intercalate us ++ y) := by
  have hlast : s.intercalate (us.modifyLast (· ++ y)) = s.intercalate us ++ y := by
    rcases List.eq_nil_or_concat' us with rfl | ⟨vs, v, rfl⟩
    · exact absurd rfl hus
    · rw [List.modifyLast_concat]
      by_cases hvs : vs = []
      · rw [hvs, List.nil_append, List.nil_append, List.intercalate_singleton,
          List.intercalate_singleton]
      · rw [intercalate_append s hvs (by simp), intercalate_append s hvs (by simp),
          List.intercalate_singleton, List.intercalate_singleton]
        simp only [List.append_assoc]
  obtain ⟨w, ws, hwords⟩ := exists_modifyLast (· ++ y) hus
  rw [← hlast, hwords, List.modifyHead_cons]
  by_cases hws : ws = []
  · rw [hws, List.intercalate_singleton, List.intercalate_singleton]
  · rw [List.intercalate_cons_of_ne_nil hws, List.intercalate_cons_of_ne_nil hws]
    simp only [List.append_assoc]

theorem Embedded.intercalate (h : Embedded us ts) (s : List Char) :
    s.intercalate us <:+: s.intercalate ts := by
  by_cases hus : us = []
  · rw [hus, List.intercalate_nil]
    exact List.nil_infix
  obtain ⟨x, y, before, after, rfl⟩ := h
  calc s.intercalate us
      <:+: s.intercalate ((us.modifyLast (· ++ y)).modifyHead (x ++ ·)) := by
        rw [intercalate_modify s x y hus]
        exact ⟨x, y, by simp⟩
    _ <:+: _ := infix_intercalate s ⟨before, after, by simp⟩

/-- Words with single spaces between them have a lowercase word by word. -/
theorem lowerChars_intercalate {ws : List String} :
    lowerChars (" ".intercalate ws).toList =
      [' '].intercalate (ws.map (lowerChars ·.toList)) := by
  suffices h : ∀ b, startsCased b = false → lowerAfter b (" ".intercalate ws).toList =
      [' '].intercalate (ws.map (lowerChars ·.toList)) from h [] rfl
  induction ws with
  | nil => exact fun b hb => rfl
  | cons w ws ih =>
    intro b hb
    cases ws with
    | nil =>
      have hlower := lowerAfter_word (t := []) (by simp) hb w.toList
      simpa [lowerAfter] using hlower
    | cons v ws =>
      have hspace : (" " : String).toList = [' '] := rfl
      have hblank : ∀ c ∈ ([' '] ++ (" ".intercalate (v :: ws)).toList).head?,
          isBlank c = true := by
        rintro c ⟨⟩
        decide
      have hb' : startsCased (' ' :: (w.toList.reverse ++ b)) = false :=
        startsCased_of_blank (by rintro c ⟨⟩; decide)
      rw [String.intercalate_cons_cons, String.toList_append, String.toList_append, hspace,
        List.append_assoc, lowerAfter_word hblank hb, List.singleton_append,
        lowerAfter_blank (by decide), ih _ hb', List.map_cons, List.map_cons, List.map_cons,
        List.intercalate_cons_cons]
      simp

end Phraseology.Text
