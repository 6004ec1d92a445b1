import Phraseology.Proofs.NumberPhrase.Numbers

/-! Digits with no word asked for around them are taken in groups from the left, so a group begins
behind those digits that make whole groups on their own. -/
namespace Phraseology

open Text

def Text.Item.isDigitWord (digits : List DigitWord) : Item → Bool
  | .run r => digits.any fun d => decide (Alike d.word.toList r)
  | .other _ => false

/-- How many digit words items begin with, blanks apart. -/
def digitsFirst (digits : List DigitWord) (is : List Item) : Nat :=
  ((is.filter (!·.isBlank)).takeWhile (Item.isDigitWord digits)).length

/-- How many digit words items end with, blanks apart. -/
def digitsLast (digits : List DigitWord) (is : List Item) : Nat := digitsFirst digits is.reverse

/-- Items that are digit words and blanks only. -/
def Digital (digits : List DigitWord) (is : List Item) : Prop :=
  ∀ i ∈ is, i.isBlank = false → i.isDigitWord digits = true

variable {digits : List DigitWord} {is js : List Item} {i : Item}

theorem not_blank_of_isDigitWord (h : i.isDigitWord digits = true) : i.isBlank = false := by
  cases i with
  | run r => rfl
  | other c => cases h

@[simp] theorem digitsFirst_cons_blank (h : i.isBlank = true) :
    digitsFirst digits (i :: is) = digitsFirst digits is := by
  rw [digitsFirst, List.filter_cons_of_neg (by simp [h]), digitsFirst]

@[simp] theorem digitsFirst_cons_digit (h : i.isDigitWord digits = true) :
    digitsFirst digits (i :: is) = digitsFirst digits is + 1 := by
  rw [digitsFirst, List.filter_cons_of_pos (by simp [not_blank_of_isDigitWord h]),
    List.takeWhile_cons_of_pos h, List.length_cons, digitsFirst]

@[simp] theorem digitsFirst_cons_other (hblank : i.isBlank = false) (h : i.isDigitWord digits = false) :
    digitsFirst digits (i :: is) = 0 := by
  rw [digitsFirst, List.filter_cons_of_pos (by simp [hblank]),
    List.takeWhile_cons_of_neg (by simp [h]), List.length_nil]

@[simp] theorem digitsFirst_dropWhile (is : List Item) :
    digitsFirst digits (is.dropWhile Item.isBlank) = digitsFirst digits is := by
  induction is with
  | nil => rfl
  | cons i is ih =>
    rw [List.dropWhile_cons]
    split_ifs with hblank
    · rw [ih, digitsFirst_cons_blank hblank]
    · rfl

theorem Digital.cons_iff : Digital digits (i :: is) ↔
    (i.isBlank = false → i.isDigitWord digits = true) ∧ Digital digits is := List.forall_mem_cons

theorem Digital.reverse (h : Digital digits is) : Digital digits is.reverse :=
  fun i hi => h i (List.mem_reverse.1 hi)

theorem Digital.digitsFirst_append (h : Digital digits is) (js : List Item) :
    digitsFirst digits (is ++ js) = digitsFirst digits is + digitsFirst digits js := by
  induction is with
  | nil => simp [digitsFirst]
  | cons i is ih =>
    obtain ⟨hi, his⟩ := Digital.cons_iff.1 h
    rw [List.cons_append]
    cases hblank : i.isBlank with
    | true => rw [digitsFirst_cons_blank hblank, digitsFirst_cons_blank hblank, ih his]
    | false =>
      rw [digitsFirst_cons_digit (hi hblank), digitsFirst_cons_digit (hi hblank), ih his]
      omega

/-- Behind anything else the digits that items begin with are over. -/
theorem digitsFirst_append_of_not (h : ¬ Digital digits is) (js : List Item) :
    digitsFirst digits (is ++ js) = digitsFirst digits is := by
  induction is with
  | nil => exact absurd (fun i hi => absurd hi List.not_mem_nil) h
  | cons i is ih =>
    rw [List.cons_append]
    cases hblank : i.isBlank with
    | true =>
      have his : ¬ Digital digits is := fun his => h (Digital.cons_iff.2 ⟨by simp [hblank], his⟩)
      rw [digitsFirst_cons_blank hblank, digitsFirst_cons_blank hblank, ih his]
    | false =>
      cases hdigit : i.isDigitWord digits with
      | true =>
        have his : ¬ Digital digits is := fun his => h (Digital.cons_iff.2 ⟨fun _ => hdigit, his⟩)
        rw [digitsFirst_cons_digit hdigit, digitsFirst_cons_digit hdigit, ih his]
      | false => rw [digitsFirst_cons_other hblank hdigit, digitsFirst_cons_other hblank hdigit]

theorem Digital.digitsLast_append (h : Digital digits js) (is : List Item) :
    digitsLast digits (is ++ js) = digitsLast digits js + digitsLast digits is := by
  rw [digitsLast, List.reverse_append, h.reverse.digitsFirst_append, digitsLast, digitsLast]

theorem digitsLast_append_of_not (h : ¬ Digital digits js) (is : List Item) :
    digitsLast digits (is ++ js) = digitsLast digits js := by
  have hreverse : ¬ Digital digits js.reverse := fun hjs => h (by simpa using hjs.reverse)
  rw [digitsLast, List.reverse_append, digitsFirst_append_of_not hreverse, digitsLast]

/-- Among blanks alone the digits are as many from either end. -/
theorem Digital.digitsLast_eq (h : Digital digits is) :
    digitsLast digits is = digitsFirst digits is := by
  induction is with
  | nil => rfl
  | cons i is ih =>
    obtain ⟨hi, his⟩ := Digital.cons_iff.1 h
    have hlast : digitsLast digits ([i] ++ is) = _ := his.digitsLast_append [i]
    rw [List.singleton_append] at hlast
    rw [hlast, ih his]
    cases hblank : i.isBlank with
    | true =>
      rw [digitsFirst_cons_blank hblank, digitsLast, List.reverse_singleton,
        digitsFirst_cons_blank hblank]
      rfl
    | false =>
      rw [digitsFirst_cons_digit (hi hblank), digitsLast, List.reverse_singleton,
        digitsFirst_cons_digit (hi hblank)]
      rfl

/-- What is no digit does not add to the digits at the end. -/
theorem digitsLast_cons_of_not (h : i.isDigitWord digits = false) (is : List Item) :
    digitsLast digits (i :: is) = digitsLast digits is := by
  have hnone : digitsLast digits [i] = 0 := by
    rw [digitsLast, List.reverse_singleton]
    cases hblank : i.isBlank with
    | true => rw [digitsFirst_cons_blank hblank]; rfl
    | false => exact digitsFirst_cons_other hblank h
  rw [← List.singleton_append]
  by_cases his : Digital digits is
  · rw [his.digitsLast_append, hnone, Nat.add_zero]
  · exact digitsLast_append_of_not his [i]

/-- Where there are no digits at all none comes first. -/
theorem digitsFirst_eq_zero (h : ∀ i ∈ is, i.isDigitWord digits = false) :
    digitsFirst digits is = 0 := by
  induction is with
  | nil => rfl
  | cons i is ih =>
    obtain ⟨hi, his⟩ := List.forall_mem_cons.1 h
    cases hblank : i.isBlank with
    | true => rw [digitsFirst_cons_blank hblank, ih his]
    | false => exact digitsFirst_cons_other hblank hi

theorem digitsLast_eq_zero (h : ∀ i ∈ is, i.isDigitWord digits = false) :
    digitsLast digits is = 0 :=
  digitsFirst_eq_zero fun i hi => h i (List.mem_reverse.1 hi)

/-- A word that is no digit is not blank. -/
theorem not_digital_spacedItems {w : String} {ws : List String} (hw : w ∈ ws)
    (hunbroken : Unbroken w.toList) (h : ∀ i ∈ spacedItems ws, i.isDigitWord digits = false) :
    ¬ Digital digits (spacedItems ws) := by
  intro hdigital
  obtain ⟨i, is, hitems, hblank⟩ := NumberPhrase.exists_items_cons hunbroken
  have hi : i ∈ spacedItems ws :=
    List.mem_flatMap.2 ⟨w, hw, List.mem_cons_of_mem _ (by rw [hitems]; exact List.mem_cons_self)⟩
  have hdigit := hdigital i hi hblank
  rw [h i hi] at hdigit
  cases hdigit

/-- The first of the digits that items begin with. -/
theorem exists_digit_of_digitsFirst (h : 0 < digitsFirst digits is) :
    ∃ bs r js, is = bs ++ .run r :: js ∧ (∀ b ∈ bs, b.isBlank = true) ∧
      (Item.run r).isDigitWord digits = true := by
  induction is with
  | nil => exact absurd h (by simp [digitsFirst])
  | cons i is ih =>
    cases hblank : i.isBlank with
    | true =>
      rw [digitsFirst_cons_blank hblank] at h
      obtain ⟨bs, r, js, rfl, hbs, hr⟩ := ih h
      exact ⟨i :: bs, r, js, rfl, List.forall_mem_cons.2 ⟨hblank, hbs⟩, hr⟩
    | false =>
      cases hdigit : i.isDigitWord digits with
      | false =>
        rw [digitsFirst_cons_other hblank hdigit] at h
        exact absurd h (lt_irrefl 0)
      | true =>
        cases i with
        | run r => exact ⟨[], r, is, rfl, by simp, hdigit⟩
        | other c => cases hdigit

namespace NumberPhrase

variable {p : NumberPhrase}

theorem dropWhile_append_run {bs : List Item} (hbs : ∀ b ∈ bs, b.isBlank = true) (r : List Char)
    (js : List Item) : (bs ++ .run r :: js).dropWhile Item.isBlank = .run r :: js := by
  rw [List.dropWhile_append_of_pos hbs, List.dropWhile_cons_of_neg (by simp [Item.isBlank])]

/-- As many digits as are asked for are taken, or as there are. -/
theorem length_fst_takeDigits (n : Nat) (is : List Item) :
    (p.takeDigits n (is.dropWhile Item.isBlank)).1.length =
      Nat.min n (digitsFirst p.digits is) := by
  induction n generalizing is with
  | zero => simp [takeDigits]
  | succ n ih =>
    rw [← digitsFirst_dropWhile is]
    cases his : is.dropWhile Item.isBlank with
    | nil => simp [takeDigits, digitsFirst]
    | cons i js =>
      cases i with
      | other c =>
        have hblank : (Item.other c).isBlank = false := by
          have := List.head?_dropWhile_not Item.isBlank is
          rw [his] at this
          simpa using this
        rw [digitsFirst_cons_other hblank rfl]
        simp [takeDigits]
      | run r =>
        simp only [takeDigits]
        split_ifs with hdigit
        · rw [digitsFirst_cons_digit (i := .run r) hdigit, List.length_cons, ih]
          exact (Nat.add_min_add_right n _ 1).symm
        · have hnot : (Item.run r).isDigitWord p.digits = false := Bool.eq_false_iff.2 hdigit
          rw [digitsFirst_cons_other rfl hnot]
          simp

/-- So many digits are taken from the front of items, whatever comes behind those. -/
theorem exists_takeDigits {n : Nat} (h : n ≤ digitsFirst p.digits is) (js : List Item) :
    ∃ us vs ds, is = us ++ vs ∧ Digital p.digits us ∧ digitsFirst p.digits us = n ∧
      ds.length = n ∧ p.takeDigits n ((is ++ js).dropWhile Item.isBlank) =
        (ds, (vs ++ js).dropWhile Item.isBlank) := by
  induction n generalizing is with
  | zero =>
    exact ⟨[], is, [], rfl, fun i hi => absurd hi List.not_mem_nil, rfl, rfl, by simp [takeDigits]⟩
  | succ n ih =>
    obtain ⟨bs, r, is, rfl, hbs, hr⟩ := exists_digit_of_digitsFirst (Nat.zero_lt_of_lt h)
    have hblanks : Digital p.digits bs := fun i hi hnot => by simp [hbs i hi] at hnot
    have hfirst (vs : List Item) : digitsFirst p.digits (bs ++ .run r :: vs) =
        digitsFirst p.digits vs + 1 := by
      rw [← digitsFirst_dropWhile, dropWhile_append_run hbs, digitsFirst_cons_digit hr]
    rw [hfirst] at h
    obtain ⟨us, vs, ds, rfl, hus, hcount, hlength, htake⟩ := ih (Nat.le_of_succ_le_succ h)
    refine ⟨bs ++ .run r :: us, vs, r :: ds, by simp, ?_, by rw [hfirst, hcount],
      by rw [List.length_cons, hlength], ?_⟩
    · exact List.forall_mem_append.2 ⟨hblanks, Digital.cons_iff.2 ⟨fun _ => hr, hus⟩⟩
    · have hdigit : p.isDigitWord r = true := hr
      rw [List.append_assoc, List.cons_append, dropWhile_append_run hbs, takeDigits,
        if_pos hdigit, htake]

theorem DigitWords.digital_and_digitsFirst {ds : List String} (h : p.DigitWords ds) :
    Digital p.digits (spacedItems ds) ∧ digitsFirst p.digits (spacedItems ds) = ds.length := by
  induction ds with
  | nil => exact ⟨fun i hi => absurd hi List.not_mem_nil, rfl⟩
  | cons d ds ih =>
    obtain ⟨hdigital, hfirst⟩ := ih h.tail
    have hd : (Item.run d.toList).isDigitWord p.digits = true := h.digit d List.mem_cons_self
    rw [spacedItems_cons, items_plain (h.plain d List.mem_cons_self), List.singleton_append]
    refine ⟨Digital.cons_iff.2 ⟨fun hblank => ?_, Digital.cons_iff.2 ⟨fun _ => hd, hdigital⟩⟩, ?_⟩
    · exact absurd hblank (by decide)
    · rw [digitsFirst_cons_blank (by decide), digitsFirst_cons_digit hd, hfirst, List.length_cons]

/-- Where a number begins there are as many digits as it needs. -/
theorem le_digitsFirst_of_foundAt? (hleading : p.leading = none) {f : Found}
    (h : p.foundAt? is = some f) : p.min ≤ digitsFirst p.digits is := by
  have hdrop : is.dropWhile Item.isBlank = is := by
    match is, h with
    | [], _ => rfl
    | .run r :: is, _ => exact List.dropWhile_cons_of_neg (by simp [Item.isBlank])
    | .other c :: is, h =>
      rw [foundAt?_other] at h
      cases h
  have hlength := length_fst_takeDigits (p := p) p.max is
  rw [hdrop] at hlength
  rw [foundAt?_of_none hleading, foundBehind?] at h
  split_ifs at h with hfew
  calc p.min ≤ (p.takeDigits p.max is).1.length := Nat.le_of_not_lt (not_or.1 hfew).2
    _ = Nat.min p.max (digitsFirst p.digits is) := hlength
    _ ≤ digitsFirst p.digits is := Nat.min_le_right _ _

/-- Items that begin with as many digits as a number can have begin with a number. -/
theorem exists_numbers_group (hleading : p.leading = none) (htrailing : p.trailing = none)
    (hpos : 1 ≤ p.max) (hle : p.min ≤ p.max) (h : p.max ≤ digitsFirst p.digits is)
    (js : List Item) :
    ∃ us vs m, is = us ++ vs ∧ Digital p.digits us ∧ digitsFirst p.digits us = p.max ∧
      p.numbers (is ++ js) = m :: p.numbers (vs ++ js) := by
  obtain ⟨us, vs, ds, his, hus, hcount, hlength, htake⟩ := exists_takeDigits h js
  have hne : ds ≠ [] := by
    rw [← List.length_pos_iff]
    omega
  exact ⟨us, vs, _, his, hus, hcount,
    numbers_of_takeDigits hleading htrailing htake hne (hle.trans_eq hlength.symm)⟩

/-- Where the digits at the end make whole groups and none comes first, the first item is not one of
those digits, and no number begins with it. -/
theorem digitsLast_cons_and_foundAt? (hleading : p.leading = none) (hminmax : p.min = p.max)
    {i : Item} (hdvd : p.max ∣ digitsLast p.digits (i :: is))
    (hfull : ¬ p.max ≤ digitsFirst p.digits (i :: is)) (js : List Item) :
    digitsLast p.digits (i :: is) = digitsLast p.digits is ∧
      p.foundAt? (i :: (is ++ js)) = none := by
  cases i with
  | other c => exact ⟨digitsLast_cons_of_not rfl is, foundAt?_other c _⟩
  | run r =>
    cases hdigit : (Item.run r).isDigitWord p.digits with
    | false =>
      refine ⟨digitsLast_cons_of_not hdigit is, skips_of_digits hleading (fun d hd hdr => ?_) _⟩
      exact List.any_eq_false.1 hdigit d hd (decide_eq_true hdr)
    | true =>
      have hcons : digitsFirst p.digits (.run r :: is) = digitsFirst p.digits is + 1 :=
        digitsFirst_cons_digit hdigit
      have his : ¬ Digital p.digits is := by
        intro his
        have hall : Digital p.digits (.run r :: is) := Digital.cons_iff.2 ⟨fun _ => hdigit, his⟩
        rw [hall.digitsLast_eq, hcons] at hdvd
        have := Nat.le_of_dvd (Nat.succ_pos _) hdvd
        omega
      have hall : ¬ Digital p.digits (.run r :: is) := fun h => his (Digital.cons_iff.1 h).2
      refine ⟨digitsLast_append_of_not his [.run r], ?_⟩
      by_contra hfound
      obtain ⟨f, hf⟩ := Option.ne_none_iff_exists'.1 hfound
      have hmin := le_digitsFirst_of_foundAt? hleading hf
      rw [← List.cons_append, digitsFirst_append_of_not hall] at hmin
      omega

/-- Where the digits that items end with make whole groups, no group goes on behind them. -/
theorem exists_numbers_append (hleading : p.leading = none) (htrailing : p.trailing = none)
    (hpos : 1 ≤ p.min) (hminmax : p.min = p.max) (hdvd : p.max ∣ digitsLast p.digits is)
    (js : List Item) : ∃ ms, p.numbers (is ++ js) = ms ++ p.numbers js := by
  induction hn : is.length using Nat.strong_induction_on generalizing is with
  | _ n ih =>
    subst hn
    by_cases hfull : p.max ≤ digitsFirst p.digits is
    · -- A whole group comes first, and the digits behind it still make whole groups.
      obtain ⟨us, vs, m, rfl, hus, hcount, hm⟩ :=
        exists_numbers_group hleading htrailing (hpos.trans hminmax.le) hminmax.le hfull js
      have hne : us ≠ [] := by
        rintro rfl
        have : digitsFirst p.digits [] = 0 := rfl
        omega
      have hrest : p.max ∣ digitsLast p.digits vs := by
        by_cases hvs : Digital p.digits vs
        · rw [hvs.digitsLast_append, hus.digitsLast_eq, hcount] at hdvd
          exact (Nat.dvd_add_left (dvd_refl p.max)).1 hdvd
        · rwa [digitsLast_append_of_not hvs] at hdvd
      have hlength : vs.length < (us ++ vs).length := by
        have := List.length_pos_of_ne_nil hne
        rw [List.length_append]
        omega
      obtain ⟨ms, hms⟩ := ih _ hlength hrest rfl
      exact ⟨m :: ms, by rw [hm, hms, List.cons_append]⟩
    · cases is with
      | nil => exact ⟨[], rfl⟩
      | cons i is =>
        obtain ⟨hlast, hnone⟩ := digitsLast_cons_and_foundAt? hleading hminmax hdvd hfull js
        rw [hlast] at hdvd
        obtain ⟨ms, hms⟩ := ih _ (Nat.lt_succ_self _) hdvd rfl
        exact ⟨ms, by rw [List.cons_append, numbers_of_none hnone, hms]⟩

end NumberPhrase

end Phraseology
