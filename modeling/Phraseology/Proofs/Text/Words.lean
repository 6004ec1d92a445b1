import Phraseology.Proofs.Text.Item

/-! The words of a text, which blanks come between. -/
namespace Phraseology.Text

/-- At least one character, and no blank. -/
structure Unbroken (u : List Char) : Prop where
  ne_nil : u ≠ []
  not_blank : ∀ c ∈ u, isBlank c = false

variable {u s t w r : List Char} {c : Char}

theorem PlainWord.unbroken (h : PlainWord u) : Unbroken u :=
  ⟨h.ne_nil, fun c hc => not_blank_of_isWordChar (h.all c hc)⟩

theorem not_isWordChar_of_blank (h : isBlank c = true) : isWordChar c = false := by
  by_contra hc
  rw [not_blank_of_isWordChar (Bool.eq_true_of_not_eq_false hc)] at h
  cases h

theorem wordChars_cons (c : Char) (s : List Char) :
    wordChars (c :: s) =
      if isBlank c then wordChars s
      else match s, wordChars s with
        | d :: _, w :: ws => if isBlank d then [c] :: w :: ws else (c :: w) :: ws
        | _, ws => [c] :: ws := rfl

@[simp] theorem wordChars_blank (hc : isBlank c = true) : wordChars (c :: s) = wordChars s := by
  rw [wordChars_cons, if_pos hc]

theorem wordChars_unbroken (hu : Unbroken u) (ht : ∀ c ∈ t.head?, isBlank c = true) :
    wordChars (u ++ t) = u :: wordChars t := by
  obtain ⟨c, u, rfl⟩ := List.exists_cons_of_ne_nil hu.ne_nil
  have hc := hu.not_blank c (by simp)
  have hrest : ∀ x ∈ u, isBlank x = false := fun x hx =>
    hu.not_blank x (List.mem_cons_of_mem c hx)
  clear hu
  induction u generalizing c with
  | nil =>
    cases t with
    | nil => simp [wordChars, hc]
    | cons d t =>
      have hd : isBlank d = true := ht d rfl
      rw [List.cons_append, List.nil_append, wordChars_cons, if_neg (by simp [hc])]
      cases h : wordChars (d :: t) with
      | nil => rfl
      | cons w ws => simp only [hd, if_true]
  | cons d u ih =>
    have hd := hrest d (by simp)
    have hnext := ih d hd fun x hx => hrest x (List.mem_cons_of_mem d hx)
    rw [List.cons_append] at hnext
    rw [List.cons_append, List.cons_append, wordChars_cons, if_neg (by simp [hc]), hnext]
    simp only [hd, Bool.false_eq_true, if_false]

/-- What holds of a text if it holds of the part behind its first word or blank holds of every
text. -/
@[elab_as_elim]
theorem word_induction {motive : List Char → Prop} (nil : motive [])
    (blank : ∀ c s, isBlank c = true → motive s → motive (c :: s))
    (word : ∀ u t, Unbroken u → (∀ c ∈ t.head?, isBlank c = true) → motive t → motive (u ++ t))
    (s : List Char) : motive s := by
  induction hn : s.length using Nat.strong_induction_on generalizing s with
  | _ n ih =>
    subst hn
    cases s with
    | nil => exact nil
    | cons c s =>
      by_cases hc : isBlank c = true
      · exact blank c s hc (ih _ (by simp) s rfl)
      · have hsplit : (c :: s).takeWhile (!isBlank ·) ++ (c :: s).dropWhile (!isBlank ·) = c :: s :=
          List.takeWhile_append_dropWhile
        have hne : (c :: s).takeWhile (!isBlank ·) ≠ [] := by
          rw [List.takeWhile_cons_of_pos (by simpa using hc)]
          simp
        rw [← hsplit]
        refine word _ _ ⟨hne, fun x hx => by simpa using List.mem_takeWhile_imp hx⟩ ?_ ?_
        · intro x hx
          have := List.head?_dropWhile_not (!isBlank ·) (c :: s)
          rw [Option.mem_def.1 hx] at this
          simpa using this
        · have := List.length_pos_of_ne_nil hne
          have := congrArg List.length hsplit
          rw [List.length_append] at this
          exact ih _ (by omega) _ rfl

theorem unbroken_of_mem_wordChars (h : w ∈ wordChars s) : Unbroken w := by
  induction s using word_induction with
  | nil => cases h
  | blank c s hc ih =>
    rw [wordChars_blank hc] at h
    exact ih h
  | word u t hu ht ih =>
    rw [wordChars_unbroken hu ht] at h
    rcases List.mem_cons.1 h with rfl | h
    · exact hu
    · exact ih h

/-- Whatever a word contains is contained in the text. -/
theorem mem_items_of_mem_wordChars (hw : w ∈ wordChars s) (h : .run r ∈ items w) :
    .run r ∈ items s := by
  induction s using word_induction with
  | nil => cases hw
  | blank c s hc ih =>
    rw [wordChars_blank hc] at hw
    rw [items_other (not_isWordChar_of_blank hc)]
    exact List.mem_cons_of_mem _ (ih hw)
  | word u t hu ht ih =>
    rw [wordChars_unbroken hu ht] at hw
    cases t with
    | nil =>
      rw [List.append_nil]
      rcases List.mem_cons.1 hw with rfl | hw
      · exact h
      · cases hw
    | cons c t =>
      have hc : isWordChar c = false := not_isWordChar_of_blank (ht c rfl)
      rw [items_append_other hc, ← items_other hc, List.mem_append]
      rcases List.mem_cons.1 hw with rfl | hw
      · exact .inl h
      · exact .inr (ih hw)

@[simp] theorem map_toList_words (s : String) : (words s).map String.toList = wordChars s.toList := by
  rw [words, List.map_map]
  exact (List.map_congr_left fun u _ => String.toList_ofList).trans (List.map_id _)

theorem Unbroken.wordChars_eq (h : Unbroken u) : wordChars u = [u] := by
  have := wordChars_unbroken h (t := []) (by simp)
  rwa [List.append_nil] at this

theorem words_of_unbroken {w : String} (h : Unbroken w.toList) : words w = [w] := by
  rw [words, h.wordChars_eq, List.map_singleton, String.ofList_toList]

theorem Unbroken.trimmed (h : Unbroken u) : Trimmed u where
  head := fun c hc => h.not_blank c (List.mem_of_mem_head? hc)
  last := fun c hc => h.not_blank c (List.mem_of_mem_getLast? hc)

/-- Whatever is in words with a separator is in the separator or in one of them. -/
theorem exists_of_mem_intercalate {separator : String} {ws : List String}
    (h : c ∈ (separator.intercalate ws).toList) :
    c ∈ separator.toList ∨ ∃ w ∈ ws, c ∈ w.toList := by
  induction ws with
  | nil => simp at h
  | cons w ws ih =>
    cases ws with
    | nil => exact .inr ⟨w, by simp, by simpa using h⟩
    | cons v ws =>
      rw [String.intercalate_cons_cons, String.toList_append, String.toList_append,
        List.append_assoc, List.mem_append, List.mem_append] at h
      rcases h with h | h | h
      · exact .inr ⟨w, by simp, h⟩
      · exact .inl h
      · exact (ih h).imp_right fun ⟨v, hv, hc⟩ => ⟨v, List.mem_cons_of_mem w hv, hc⟩

def spacedItems (ws : List String) : List Item :=
  ws.flatMap fun w => .other ' ' :: items w.toList

@[simp] theorem spacedItems_append (us ws : List String) :
    spacedItems (us ++ ws) = spacedItems us ++ spacedItems ws := List.flatMap_append

theorem spacedItems_cons (w : String) (ws : List String) :
    spacedItems (w :: ws) = .other ' ' :: (items w.toList ++ spacedItems ws) := rfl

theorem items_join {ws : List String} (h : ws ≠ []) :
    .other ' ' :: items (" ".intercalate ws).toList = spacedItems ws := by
  obtain ⟨w, ws, rfl⟩ := List.exists_cons_of_ne_nil h
  clear h
  induction ws generalizing w with
  | nil => simp [spacedItems]
  | cons v ws ih =>
    have hspace : (" " : String).toList = [' '] := rfl
    rw [String.intercalate_cons_cons, String.toList_append, String.toList_append, hspace,
      List.append_assoc, List.singleton_append, items_append_other (by decide), ih]
    rfl

/-- A text with a word in it is not blank. -/
theorem isBlankText_join {ws : List String} {w : String} (hw : w ∈ ws) (h : Unbroken w.toList) :
    isBlankText (" ".intercalate ws) = false := by
  obtain ⟨c, u, hcu⟩ := List.exists_cons_of_ne_nil h.ne_nil
  have hitems : c ∈ (spacedItems ws).flatMap Item.chars := by
    refine List.mem_flatMap.2 ?_
    have hc : c ∈ (items w.toList).flatMap Item.chars := by simp [hcu]
    obtain ⟨i, hi, hci⟩ := List.mem_flatMap.1 hc
    exact ⟨i, List.mem_flatMap.2 ⟨w, hw, List.mem_cons_of_mem _ hi⟩, hci⟩
  have hblank := h.not_blank c (by simp [hcu])
  rw [← items_join (List.ne_nil_of_mem hw), List.flatMap_cons, flatMap_chars_items] at hitems
  rw [isBlankText, List.all_eq_false]
  rcases List.mem_cons.1 hitems with rfl | hmem
  · exact absurd hblank (by decide)
  · exact ⟨c, hmem, by simp [hblank]⟩

variable {ws vs : List String}

theorem wordChars_intercalate (h : ∀ w ∈ ws, Unbroken w.toList) :
    wordChars (" ".intercalate ws).toList = ws.map String.toList := by
  induction ws with
  | nil => rfl
  | cons w ws ih =>
    obtain ⟨hw, hws⟩ := List.forall_mem_cons.1 h
    cases ws with
    | nil => simpa using hw.wordChars_eq
    | cons v ws =>
      have hspace : (" " : String).toList = [' '] := rfl
      rw [String.intercalate_cons_cons, String.toList_append, String.toList_append, hspace,
        List.append_assoc, List.singleton_append,
        wordChars_unbroken hw (by rintro c ⟨⟩; decide), wordChars_blank (by decide), ih hws]
      rfl

/-- Words with single spaces between them can be told from the text. -/
theorem eq_of_intercalate_space (hws : ∀ w ∈ ws, Unbroken w.toList)
    (hvs : ∀ v ∈ vs, Unbroken v.toList) (h : " ".intercalate ws = " ".intercalate vs) :
    ws = vs := by
  have hwords := wordChars_intercalate hws
  rw [h, wordChars_intercalate hvs] at hwords
  exact (Function.Injective.list_map @String.toList_injective hwords).symm

theorem trimmed_intercalate (h : ∀ w ∈ ws, Unbroken w.toList) :
    Trimmed (" ".intercalate ws).toList := by
  induction ws with
  | nil => exact ⟨by simp, by simp⟩
  | cons w ws ih =>
    obtain ⟨hw, hws⟩ := List.forall_mem_cons.1 h
    cases ws with
    | nil => simpa using hw.trimmed
    | cons v ws =>
      have hne : (" ".intercalate (v :: ws)).toList ≠ [] := by
        intro hnil
        have hwords := wordChars_intercalate hws
        rw [hnil] at hwords
        cases hwords
      rw [String.intercalate_cons_cons, String.toList_append, String.toList_append,
        List.append_assoc]
      constructor
      · rw [List.head?_append_of_ne_nil _ hw.ne_nil]
        exact hw.trimmed.head
      · rw [List.getLast?_append_of_ne_nil _ (by simp), List.getLast?_append_of_ne_nil _ hne]
        exact (ih hws).last

@[simp] theorem toList_intercalate_empty (ws : List String) :
    ("".intercalate ws).toList = ws.flatMap String.toList := by
  induction ws with
  | nil => rfl
  | cons w ws ih =>
    cases ws with
    | nil => simp
    | cons v ws =>
      rw [String.intercalate_cons_cons, String.append_empty, String.toList_append, ih]
      rfl

/-- Words of a single character can be told from the text. -/
theorem eq_of_flatMap_toList (hws : ∀ w ∈ ws, w.toList.length = 1)
    (hvs : ∀ v ∈ vs, v.toList.length = 1)
    (h : ws.flatMap String.toList = vs.flatMap String.toList) : ws = vs := by
  induction ws generalizing vs with
  | nil =>
    cases vs with
    | nil => rfl
    | cons v vs =>
      have hv := hvs v (by simp)
      rw [List.flatMap_nil, List.flatMap_cons] at h
      rw [(List.append_eq_nil_iff.1 h.symm).1] at hv
      cases hv
  | cons w ws ih =>
    obtain ⟨hw, hws⟩ := List.forall_mem_cons.1 hws
    cases vs with
    | nil =>
      rw [List.flatMap_nil, List.flatMap_cons] at h
      rw [(List.append_eq_nil_iff.1 h).1] at hw
      cases hw
    | cons v vs =>
      obtain ⟨hv, hvs⟩ := List.forall_mem_cons.1 hvs
      rw [List.flatMap_cons, List.flatMap_cons] at h
      obtain ⟨hwv, hrest⟩ := List.append_inj h (hw.trans hv.symm)
      rw [String.toList_injective hwv, ih hws hvs hrest]

end Phraseology.Text
