import Phraseology.Proofs.Text.Words

/-! Words with blanks behind them, and what is left of the blanks where they do not count. -/
namespace Phraseology.Text

/-- The words one after another, up to case, each with any number of blanks behind it. -/
inductive Laid : List (List Char) → List Char → Prop where
  | nil : Laid [] []
  | cons {w v bl u : List Char} {ws : List (List Char)} (alike : Alike w v)
      (blank : ∀ c ∈ bl, isBlank c = true) (rest : Laid ws u) : Laid (w :: ws) (v ++ (bl ++ u))

variable {us ws : List (List Char)} {u v w s t bl : List Char}

theorem Laid.append (hu : Laid us u) (hv : Laid ws v) : Laid (us ++ ws) (u ++ v) := by
  induction hu with
  | nil => exact hv
  | cons alike blank rest ih =>
    rw [List.append_assoc, List.append_assoc]
    exact .cons alike blank ih

theorem Laid.of_append (h : Laid (us ++ ws) s) : ∃ u v, s = u ++ v ∧ Laid us u ∧ Laid ws v := by
  induction us generalizing s with
  | nil => exact ⟨[], s, rfl, .nil, h⟩
  | cons w us ih =>
    cases h with
    | @cons _ v bl u _ alike blank rest =>
      obtain ⟨y, z, rfl, hy, hz⟩ := ih rest
      exact ⟨v ++ (bl ++ y), z, by simp, .cons alike blank hy, hz⟩

/-- Behind the last word there may be more blanks. -/
theorem Laid.append_blanks (h : Laid ws u) (hws : ws ≠ []) (hbl : ∀ c ∈ bl, isBlank c = true) :
    Laid ws (u ++ bl) := by
  induction h with
  | nil => exact absurd rfl hws
  | @cons w v bl' u ws alike blank rest ih =>
    rw [List.append_assoc, List.append_assoc]
    by_cases hnil : ws = []
    · subst hnil
      cases rest
      have hall := List.forall_mem_append.2 ⟨blank, hbl⟩
      simpa using Laid.cons alike hall .nil
    · exact .cons alike blank (ih hnil)

/-- The words one after another, up to case, with any number of blanks before, between and behind
them. -/
def Spread (ws : List (List Char)) (s : List Char) : Prop :=
  ∃ bl u, s = bl ++ u ∧ (∀ c ∈ bl, isBlank c = true) ∧ Laid ws u

theorem Laid.spread (h : Laid ws u) : Spread ws u := ⟨[], u, rfl, by simp, h⟩

theorem Spread.blanks_append (h : Spread ws s) (hbl : ∀ c ∈ bl, isBlank c = true) :
    Spread ws (bl ++ s) := by
  obtain ⟨bl', u, rfl, hbl', hu⟩ := h
  exact ⟨bl ++ bl', u, by simp, List.forall_mem_append.2 ⟨hbl, hbl'⟩, hu⟩

theorem Spread.append (hs : Spread us s) (ht : Spread ws t) : Spread (us ++ ws) (s ++ t) := by
  obtain ⟨bl, u, rfl, hbl, hu⟩ := hs
  by_cases hnil : us = []
  · subst hnil
    cases hu
    rw [List.append_nil]
    exact ht.blanks_append hbl
  · obtain ⟨bl', v, rfl, hbl', hv⟩ := ht
    refine ⟨bl, u ++ bl' ++ v, by simp, hbl, ?_⟩
    exact (hu.append_blanks hnil hbl').append hv

theorem Spread.append_blanks (h : Spread ws s) (hbl : ∀ c ∈ bl, isBlank c = true) :
    Spread ws (s ++ bl) := by
  have hblanks : Spread [] bl := ⟨bl, [], by simp, hbl, .nil⟩
  simpa using h.append hblanks

/-- The words are laid out from the start of the text, each with all blanks that follow it. -/
def isLaid : List (List Char) → List Char → Bool
  | [], s => s.isEmpty
  | w :: ws, s =>
    decide (Alike w (s.take w.length)) && isLaid ws ((s.drop w.length).dropWhile isBlank)

theorem laid_of_isLaid (h : isLaid ws s = true) : Laid ws s := by
  induction ws generalizing s with
  | nil =>
    rw [List.isEmpty_iff.1 h]
    exact .nil
  | cons w ws ih =>
    obtain ⟨halike, hrest⟩ := Bool.and_eq_true_iff.1 h
    have hs : s = s.take w.length ++ ((s.drop w.length).takeWhile isBlank ++
        (s.drop w.length).dropWhile isBlank) := by
      rw [List.takeWhile_append_dropWhile, List.take_append_drop]
    rw [hs]
    exact .cons (of_decide_eq_true halike) (fun c hc => List.mem_takeWhile_imp hc) (ih hrest)

theorem Alike.append {u' v' : List Char} (h : Alike u v) (h' : Alike u' v') :
    Alike (u ++ u') (v ++ v') := by
  rw [Alike, List.map_append, List.map_append, h, h']

theorem Alike.exists_of_append {x : List Char} (h : Alike (u ++ w) x) :
    ∃ u' w', x = u' ++ w' ∧ Alike u u' ∧ Alike w w' := by
  rw [Alike, List.map_append] at h
  obtain ⟨u', w', rfl, hu, hw⟩ := List.map_eq_append_iff.1 h.symm
  exact ⟨u', w', rfl, hu.symm, hw.symm⟩

theorem Alike.all_isBlank {b : Bool} (h : Alike u v) (hu : ∀ c ∈ u, isBlank c = b) :
    ∀ c ∈ v, isBlank c = b := by
  induction u generalizing v with
  | nil =>
    obtain rfl := h.eq_nil_iff.1 rfl
    simp
  | cons c u ih =>
    cases v with
    | nil => simp
    | cons d v =>
      obtain ⟨hcd, huv⟩ := alike_cons_iff.1 h
      obtain ⟨hc, hu⟩ := List.forall_mem_cons.1 hu
      exact List.forall_mem_cons.2 ⟨(isBlank_eq_of_alike hcd).symm.trans hc, ih huv hu⟩

theorem Unbroken.of_alike (h : Unbroken u) (huv : Alike u v) : Unbroken v where
  ne_nil := mt huv.eq_nil_iff.2 h.ne_nil
  not_blank := huv.all_isBlank h.not_blank

theorem Laid.of_alike (h : Laid ws s) (hst : Alike s t) : Laid ws t := by
  induction h generalizing t with
  | nil =>
    rw [hst.eq_nil_iff.1 rfl]
    exact .nil
  | cons alike blank rest ih =>
    obtain ⟨v', y, rfl, hv, hy⟩ := hst.exists_of_append
    obtain ⟨bl', u', rfl, hbl, hu⟩ := hy.exists_of_append
    exact .cons (alike.trans hv) (hbl.all_isBlank blank) (ih hu)

theorem Spread.of_alike (h : Spread ws s) (hst : Alike s t) : Spread ws t := by
  obtain ⟨bl, u, rfl, hbl, hu⟩ := h
  obtain ⟨bl', u', rfl, hbl', hu'⟩ := hst.exists_of_append
  exact ⟨bl', u', rfl, hbl'.all_isBlank hbl, hu.of_alike hu'⟩

theorem spread_wordChars (s : List Char) : Spread (wordChars s) s := by
  induction s using word_induction with
  | nil => exact Laid.nil.spread
  | blank c s hc ih =>
    rw [wordChars_blank hc]
    exact ih.blanks_append (List.forall_mem_singleton.2 hc)
  | word u t hu ht ih =>
    rw [wordChars_unbroken hu ht]
    obtain ⟨bl, v, rfl, hbl, hv⟩ := ih
    exact (Laid.cons (.refl u) hbl hv).spread

theorem filter_not_blank (h : ∀ c ∈ u, isBlank c = false) : u.filter (!isBlank ·) = u :=
  List.filter_eq_self.2 fun c hc => by simp [h c hc]

theorem filter_blank (h : ∀ c ∈ bl, isBlank c = true) : bl.filter (!isBlank ·) = [] :=
  List.filter_eq_nil_iff.2 fun c hc => by simp [h c hc]

/-- Without the blanks the words are left. -/
theorem Laid.filter (h : Laid ws u) (hws : ∀ w ∈ ws, Unbroken w) :
    Alike ws.flatten (u.filter (!isBlank ·)) := by
  induction h with
  | nil => exact .refl []
  | @cons w v bl u ws alike blank rest ih =>
    obtain ⟨hw, hws⟩ := List.forall_mem_cons.1 hws
    have hv := alike.all_isBlank hw.not_blank
    rw [List.flatten_cons, List.filter_append, List.filter_append, filter_not_blank hv,
      filter_blank blank, List.nil_append]
    exact alike.append (ih hws)

theorem dropWhile_blanks (hbl : ∀ c ∈ bl, isBlank c = true)
    (ht : ∀ c ∈ t.head?, isBlank c = false) :
    (bl ++ t).dropWhile isBlank = t := by
  rw [List.dropWhile_append_of_pos hbl]
  cases t with
  | nil => rfl
  | cons c t => rw [List.dropWhile_cons_of_neg (by simp [ht c rfl])]

/-- Between blanks a trimmed text is what is left of the whole. -/
theorem Trimmed.trimChars_append {bl' : List Char} (ht : Trimmed t)
    (hbl : ∀ c ∈ bl, isBlank c = true) (hbl' : ∀ c ∈ bl', isBlank c = true) :
    trimChars (bl ++ (t ++ bl')) = t := by
  have hreverse : ∀ c ∈ bl'.reverse, isBlank c = true := fun c hc => hbl' c (by simpa using hc)
  cases t with
  | nil =>
    have hall : (bl ++ bl').dropWhile isBlank = [] :=
      List.dropWhile_eq_nil_iff.2 (List.forall_mem_append.2 ⟨hbl, hbl'⟩)
    rw [trimChars, List.nil_append, hall]
    rfl
  | cons c t =>
    have hhead : ∀ d ∈ (c :: t ++ bl').head?, isBlank d = false := ht.head
    have hlast : ∀ d ∈ (c :: t).reverse.head?, isBlank d = false := by
      rw [List.head?_reverse]
      exact ht.last
    rw [trimChars, dropWhile_blanks hbl hhead, List.reverse_append,
      dropWhile_blanks hreverse hlast, List.reverse_reverse]

theorem Laid.exists_trimmed (h : Laid ws u) (hws : ∀ w ∈ ws, Unbroken w) :
    ∃ t bl, u = t ++ bl ∧ (∀ c ∈ bl, isBlank c = true) ∧ Laid ws t ∧ Trimmed t ∧
      (t = [] → ws = []) := by
  induction h with
  | nil => exact ⟨[], [], rfl, by simp, .nil, ⟨by simp, by simp⟩, fun _ => rfl⟩
  | @cons w v bl u ws alike blank rest ih =>
    obtain ⟨hw, hws⟩ := List.forall_mem_cons.1 hws
    obtain ⟨t, bl', rfl, hbl', ht, htrimmed, hnil⟩ := ih hws
    have hv := hw.of_alike alike
    by_cases htnil : t = []
    · obtain rfl := hnil htnil
      subst htnil
      refine ⟨v, bl ++ bl', by simp, List.forall_mem_append.2 ⟨blank, hbl'⟩, ?_, hv.trimmed,
        fun h => absurd h hv.ne_nil⟩
      simpa using Laid.cons alike (List.forall_mem_nil _) .nil
    · refine ⟨v ++ (bl ++ t), bl', by simp, hbl', .cons alike blank ht, ⟨?_, ?_⟩, ?_⟩
      · rw [List.head?_append_of_ne_nil _ hv.ne_nil]
        exact hv.trimmed.head
      · rw [List.getLast?_append_of_ne_nil _ (by simp [htnil]),
          List.getLast?_append_of_ne_nil _ htnil]
        exact htrimmed.last
      · intro h
        exact absurd (List.append_eq_nil_iff.1 h).1 hv.ne_nil

/-- Words with blanks before and behind them stay when the ends are trimmed. -/
theorem Spread.trimChars (h : Spread ws s) (hws : ∀ w ∈ ws, Unbroken w) :
    Laid ws (trimChars s) := by
  obtain ⟨bl, u, rfl, hbl, hu⟩ := h
  obtain ⟨t, bl', rfl, hbl', ht, htrimmed, -⟩ := hu.exists_trimmed hws
  rwa [htrimmed.trimChars_append hbl hbl']

end Phraseology.Text
