import Phraseology.Proofs.Text.Place

/-! Texts cut into words: the runs of word characters, and every other character on its own. -/
namespace Phraseology.Text

/-- A word as long as it is, or a character that belongs to none. -/
inductive Item where
  | run (r : List Char)
  | other (c : Char)
  deriving DecidableEq, Repr

namespace Item

def chars : Item → List Char
  | .run r => r
  | .other c => [c]

def isBlank : Item → Bool
  | .run _ => false
  | .other c => Text.isBlank c

def size (is : List Item) : Nat := byteCount (is.flatMap chars)

@[simp, grind =] theorem size_nil : size [] = 0 := rfl

@[simp, grind =] theorem size_run (r : List Char) (is : List Item) :
    size (.run r :: is) = byteCount r + size is := byteCount_append r _

@[simp, grind =] theorem size_other (c : Char) (is : List Item) :
    size (.other c :: is) = c.utf8Size + size is := rfl

end Item

def items : List Char → List Item
  | [] => []
  | c :: s =>
    if isWordChar c then
      match items s with
      | .run r :: is => .run (c :: r) :: is
      | is => .run [c] :: is
    else .other c :: items s

def StartsWord (s : List Char) : Prop := ∃ c ∈ s.head?, isWordChar c = true

instance (s : List Char) : Decidable (StartsWord s) :=
  inferInstanceAs (Decidable (∃ c ∈ s.head?, _))

variable {s t u r : List Char} {c : Char}

@[simp] theorem not_startsWord_nil : ¬ StartsWord [] := by simp [StartsWord]

@[simp] theorem startsWord_cons_iff : StartsWord (c :: s) ↔ isWordChar c = true := by
  simp [StartsWord]

theorem PlainWord.startsWord (hr : PlainWord r) (t : List Char) : StartsWord (r ++ t) := by
  obtain ⟨c, r, rfl⟩ := List.exists_cons_of_ne_nil hr.ne_nil
  exact startsWord_cons_iff.2 (hr.all c (by simp))

theorem PlainWord.startsWord_reverse (hr : PlainWord r) (t : List Char) :
    StartsWord (r.reverse ++ t) :=
  PlainWord.startsWord ⟨by simpa using hr.ne_nil, fun c hc => hr.all c (by simpa using hc)⟩ t

theorem not_startsWord_of_blank (h : isBlank c = true) : ¬ StartsWord (c :: s) := by
  rw [startsWord_cons_iff]
  intro hc
  rw [not_blank_of_isWordChar hc] at h
  cases h

theorem any_head?_isWordChar (s : List Char) :
    s.head?.any isWordChar = decide (StartsWord s) := by
  cases s <;> simp

theorem Cursor.atBoundary_eq (b s : List Char) :
    (Cursor.place b s).atBoundary = (decide (StartsWord b) != decide (StartsWord s)) := by
  rw [Cursor.atBoundary_place, any_head?_isWordChar, any_head?_isWordChar]

theorem PlainWord.atBoundary_place {b : List Char} (hr : PlainWord r) (hb : ¬ StartsWord b)
    (t : List Char) : (Cursor.place b (r ++ t)).atBoundary = true := by
  simp [Cursor.atBoundary_eq, hb, hr.startsWord t]

theorem PlainWord.atBoundary_behind (hr : PlainWord r) (b t : List Char) :
    (Cursor.behind r b t).atBoundary = !decide (StartsWord t) := by
  simp [Cursor.atBoundary_eq, hr.startsWord_reverse b]

@[simp] theorem items_other (hc : isWordChar c = false) : items (c :: s) = .other c :: items s := by
  simp [items, hc]

theorem items_run (hr : PlainWord r) (ht : ¬ StartsWord t) :
    items (r ++ t) = .run r :: items t := by
  obtain ⟨c, r, rfl⟩ := List.exists_cons_of_ne_nil hr.ne_nil
  have hc : isWordChar c = true := hr.all c (by simp)
  have hrest : ∀ x ∈ r, isWordChar x = true := fun x hx => hr.all x (List.mem_cons_of_mem c hx)
  clear hr
  induction r generalizing c with
  | nil =>
    cases t with
    | nil => simp [items, hc]
    | cons d t =>
      rw [startsWord_cons_iff] at ht
      rw [List.singleton_append, items, if_pos hc, items_other (by simpa using ht)]
  | cons d r ih =>
    have hd := ih d (hrest d (by simp)) fun x hx => hrest x (List.mem_cons_of_mem d hx)
    rw [List.cons_append, items, if_pos hc, hd]

/-- A text that begins with a word is that word and the rest. -/
theorem exists_run (h : StartsWord s) :
    ∃ r t, s = r ++ t ∧ PlainWord r ∧ ¬ StartsWord t := by
  refine ⟨s.takeWhile isWordChar, s.dropWhile isWordChar, List.takeWhile_append_dropWhile.symm,
    ⟨?_, fun c hc => (List.mem_takeWhile_imp hc)⟩, ?_⟩
  · obtain ⟨c, hc, hword⟩ := h
    obtain ⟨s, rfl⟩ := List.head?_eq_some_iff.1 hc
    rw [List.takeWhile_cons_of_pos hword]
    simp
  · rintro ⟨c, hc, hword⟩
    have := List.head?_dropWhile_not isWordChar s
    rw [Option.mem_def.1 hc] at this
    simp [hword] at this

/-- What holds of a text if it holds of the part behind its first item holds of every text. -/
@[elab_as_elim]
theorem item_induction {motive : List Char → Prop} (nil : motive [])
    (run : ∀ r t, PlainWord r → ¬ StartsWord t → motive t → motive (r ++ t))
    (other : ∀ c s, isWordChar c = false → motive s → motive (c :: s)) (s : List Char) :
    motive s := by
  induction hn : s.length using Nat.strong_induction_on generalizing s with
  | _ n ih =>
    subst hn
    by_cases hs : StartsWord s
    · obtain ⟨r, t, rfl, hr, ht⟩ := exists_run hs
      refine run r t hr ht (ih _ ?_ t rfl)
      have := List.length_pos_of_ne_nil hr.ne_nil
      rw [List.length_append]
      omega
    · cases s with
      | nil => exact nil
      | cons c s => exact other c s (by simpa using hs) (ih _ (by simp) s rfl)

theorem items_append_other (hc : isWordChar c = false) :
    items (u ++ c :: s) = items u ++ .other c :: items s := by
  induction u using item_induction with
  | nil => rw [List.nil_append, items_other hc]; rfl
  | run r t hr ht ih =>
    have htail : ¬ StartsWord (t ++ c :: s) := by
      cases t with
      | nil => simp [hc]
      | cons d t => simpa using ht
    rw [List.append_assoc, items_run hr htail, items_run hr ht, ih, List.cons_append]
  | other d u hd ih =>
    rw [List.cons_append, items_other hd, items_other hd, ih, List.cons_append]

@[simp] theorem flatMap_chars_items (s : List Char) : (items s).flatMap Item.chars = s := by
  induction s using item_induction with
  | nil => rfl
  | run r t hr ht ih => rw [items_run hr ht, List.flatMap_cons, ih]; rfl
  | other c s hc ih => rw [items_other hc, List.flatMap_cons, ih]; rfl

@[simp, grind =] theorem size_items (s : List Char) : Item.size (items s) = byteCount s := by
  rw [Item.size, flatMap_chars_items]

/-- Of the items of a text, those behind its first blanks are the items of what comes after them. -/
theorem items_dropWhile_blank (s : List Char) :
    items (s.dropWhile isBlank) = (items s).dropWhile Item.isBlank := by
  induction s using item_induction with
  | nil => rfl
  | run r t hr ht _ =>
    obtain ⟨c, r, rfl⟩ := List.exists_cons_of_ne_nil hr.ne_nil
    have hc : isBlank c = false := not_blank_of_isWordChar (hr.all c (by simp))
    rw [items_run hr ht, List.dropWhile_cons_of_neg (by simp [Item.isBlank]), List.cons_append,
      List.dropWhile_cons_of_neg (by simp [hc]), ← List.cons_append, items_run hr ht]
  | other c s hc ih =>
    rw [items_other hc, List.dropWhile_cons, List.dropWhile_cons]
    change items (if isBlank c then _ else _) = if isBlank c then _ else _
    split_ifs
    · exact ih
    · exact items_other hc

end Phraseology.Text
