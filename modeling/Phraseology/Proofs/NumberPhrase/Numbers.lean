import Phraseology.Proofs.NumberPhrase.Find
import Phraseology.Proofs.Text.Words

/-! Numbers in a list of words, wherever they stand in the text. -/
namespace Phraseology.NumberPhrase

open Text

/-- What a match says: its leading code, its digits and its trailing code. -/
def Match.said (m : Match) : Option String × String × Option String :=
  (m.leading, m.digits, m.trailing)

def numbers (p : NumberPhrase) (is : List Item) : List (Option String × String × Option String) :=
  (p.scan 0 is).map Match.said

variable {p : NumberPhrase} {is js : List Item}

theorem said_match? (f : Found) (start stop : Nat) :
    (f.match? p start stop).map Match.said = (f.match? p 0 0).map Match.said := by
  unfold Found.match?
  cases f.leading with
  | none => rfl
  | some word =>
    simp only [Option.map_map]
    rfl

/-- Where the items begin does not matter to what they say. -/
theorem said_scan (n : Nat) (is : List Item) :
    (p.scan n is).map Match.said = p.numbers is := by
  unfold numbers
  generalize (0 : Nat) = m
  induction hl : is.length using Nat.strong_induction_on generalizing is n m with
  | _ l ih =>
    subst hl
    cases is with
    | nil => simp [scan]
    | cons i is =>
      cases hf : p.foundAt? (i :: is) with
      | none =>
        rw [scan_of_none n hf, scan_of_none m hf]
        exact ih _ (by simp) _ is _ rfl
      | some f =>
        rw [scan_of_some n hf, scan_of_some m hf, List.map_append, List.map_append,
          ih _ (length_of_foundAt? hf) _ f.rest _ rfl]
        congr 1
        rw [← Option.toList_map, ← Option.toList_map, said_match? f n, said_match? f m]

@[simp] theorem numbers_nil : p.numbers [] = [] := by rw [numbers, scan, List.map_nil]

theorem numbers_of_some {f : Found} (h : p.foundAt? is = some f) :
    p.numbers is = ((f.match? p 0 0).map Match.said).toList ++ p.numbers f.rest := by
  unfold numbers
  rw [scan_of_some 0 h, List.map_append, said_scan, ← Option.toList_map, said_match?]
  rfl

theorem numbers_of_none {i : Item} (h : p.foundAt? (i :: is) = none) :
    p.numbers (i :: is) = p.numbers is := by
  rw [numbers, scan_of_none 0 h, said_scan]

theorem said_first? (hp : p.Plain) (text : String) :
    (p.first? text).map Match.said = (p.numbers (items text.toList)).head? := by
  rw [first?, find_eq_scan hp, numbers, List.head?_map]

theorem said_last? (hp : p.Plain) (text : String) :
    (p.last? text).map Match.said = (p.numbers (items text.toList)).getLast? := by
  rw [last?, find_eq_scan hp, numbers, List.getLast?_map]

/-- No number begins with the word. -/
def Skips (p : NumberPhrase) (r : List Char) : Prop := ∀ is, p.foundAt? (.run r :: is) = none

theorem skips_of_leading {spellings : List Spelling} {r : List Char}
    (h : p.leading = some spellings) (hr : ∀ s ∈ spellings, ¬ Alike s.spoken.toList r) :
    p.Skips r := by
  intro is
  exact foundAt?_eq_none h (by rintro v ⟨⟩; exact hr)

theorem skips_of_digits {r : List Char} (h : p.leading = none)
    (hr : ∀ d ∈ p.digits, ¬ Alike d.word.toList r) : p.Skips r := by
  intro is
  have hdigit : p.isDigitWord r = false := by
    rw [isDigitWord, List.any_eq_false]
    intro d hd
    simpa using hr d hd
  have htake : ∀ n, p.takeDigits n (.run r :: is) = ([], .run r :: is) :=
    takeDigits_of_not_digit (by rintro v ⟨⟩; exact hdigit)
  rw [foundAt?_of_none h, foundBehind?_eq_none htake]

theorem foundAt?_other (c : Char) (is : List Item) : p.foundAt? (.other c :: is) = none := by
  have htake : ∀ n, p.takeDigits n (.other c :: is) = ([], .other c :: is) :=
    takeDigits_of_not_digit (by rintro v ⟨⟩)
  rw [foundAt?_eq]
  cases h : p.leading <;> simp [takeLeading?, h, foundBehind?_eq_none htake]

@[simp] theorem numbers_other (c : Char) (is : List Item) :
    p.numbers (.other c :: is) = p.numbers is := numbers_of_none (foundAt?_other c is)

@[simp] theorem numbers_dropWhile (is : List Item) :
    p.numbers (is.dropWhile Item.isBlank) = p.numbers is := by
  induction is with
  | nil => rfl
  | cons i is ih =>
    cases i with
    | run r => rfl
    | other c =>
      rw [List.dropWhile_cons, numbers_other]
      split_ifs
      · exact ih
      · exact numbers_other c is

/-- No number begins in the items, if those come behind them. -/
def Passes (p : NumberPhrase) (is js : List Item) : Prop :=
  ∀ us vs, is = us ++ vs → vs ≠ [] → p.foundAt? (vs ++ js) = none

theorem passes_of_skips (h : ∀ r, .run r ∈ is → p.Skips r) (js : List Item) : p.Passes is js := by
  rintro us vs rfl hne
  obtain ⟨i, vs, rfl⟩ := List.exists_cons_of_ne_nil hne
  cases i with
  | run r => exact h r (by simp) _
  | other c => exact foundAt?_other c _

/-- Items in which no number begins are passed over. -/
theorem Passes.numbers_append (h : p.Passes is js) : p.numbers (is ++ js) = p.numbers js := by
  induction is with
  | nil => rfl
  | cons i is ih =>
    have hfirst : p.foundAt? (i :: (is ++ js)) = none := h [] (i :: is) rfl (by simp)
    rw [List.cons_append, numbers_of_none hfirst]
    exact ih fun us vs hus hne => h (i :: us) vs (by rw [hus, List.cons_append]) hne

structure DigitWords (p : NumberPhrase) (ds : List String) : Prop where
  plain : ∀ d ∈ ds, PlainWord d.toList
  digit : ∀ d ∈ ds, p.isDigitWord d.toList = true

/-- The items do not go on with a digit word. -/
def Stops (p : NumberPhrase) (is : List Item) : Prop :=
  ∀ n, (p.takeDigits n (is.dropWhile Item.isBlank)).1 = []

/-- The items go on with this word, blanks apart. -/
def Next (is : List Item) (r : List Char) : Prop :=
  ∃ js, is.dropWhile Item.isBlank = .run r :: js

theorem stops_nil : p.Stops [] := by
  intro n
  cases n <;> rfl

theorem stops_of_next (h : ∀ r, Next is r → p.isDigitWord r = false) : p.Stops is := by
  intro n
  match n, his : is.dropWhile Item.isBlank with
  | 0, _ | _ + 1, [] | _ + 1, .other _ :: _ => rfl
  | n + 1, .run r :: js => simp [takeDigits, h r ⟨js, his⟩]

/-- A word without blanks begins with an item that is not blank. -/
theorem exists_items_cons {r : List Char} (hr : Unbroken r) :
    ∃ i is, items r = i :: is ∧ i.isBlank = false := by
  have hchars := flatMap_chars_items r
  cases hitems : items r with
  | nil =>
    rw [hitems] at hchars
    exact absurd hchars.symm hr.ne_nil
  | cons i is =>
    refine ⟨i, is, rfl, ?_⟩
    cases i with
    | run r => rfl
    | other c =>
      rw [hitems] at hchars
      exact hr.not_blank c (by rw [← hchars]; simp [Item.chars])

/-- A word without blanks comes next, if any part of it is a word at its beginning. -/
theorem mem_items_of_next {w : String} {ws : List String} {r : List Char} (hw : Unbroken w.toList)
    (h : Next (spacedItems (w :: ws) ++ is) r) : .run r ∈ items w.toList := by
  obtain ⟨js, hjs⟩ := h
  obtain ⟨i, others, hitems, hblank⟩ := exists_items_cons hw
  rw [spacedItems_cons, List.cons_append, List.dropWhile_cons_of_pos (by decide),
    List.append_assoc, hitems, List.cons_append,
    List.dropWhile_cons_of_neg (by simp [hblank])] at hjs
  rw [hitems, (List.cons.inj hjs).1]
  exact List.mem_cons_self

variable {d : String} {ds : List String}

theorem items_plain {r : List Char} (h : PlainWord r) : items r = [.run r] := by
  have := items_run h not_startsWord_nil
  rwa [List.append_nil] at this

theorem DigitWords.tail (h : p.DigitWords (d :: ds)) : p.DigitWords ds where
  plain := fun x hx => h.plain x (List.mem_cons_of_mem d hx)
  digit := fun x hx => h.digit x (List.mem_cons_of_mem d hx)

theorem DigitWords.dropWhile (h : p.DigitWords (d :: ds)) :
    (spacedItems (d :: ds) ++ is).dropWhile Item.isBlank =
      .run d.toList :: (spacedItems ds ++ is) := by
  rw [spacedItems_cons, items_plain (h.plain d (by simp)), List.cons_append,
    List.dropWhile_cons_of_pos (by decide)]
  rfl

theorem DigitWords.takeDigits (h : p.DigitWords ds) (n : Nat) :
    p.takeDigits (ds.length + n) ((spacedItems ds ++ is).dropWhile Item.isBlank) =
      (ds.map String.toList ++ (p.takeDigits n (is.dropWhile Item.isBlank)).1,
        (p.takeDigits n (is.dropWhile Item.isBlank)).2) := by
  induction ds with
  | nil => simp [spacedItems]
  | cons d ds ih =>
    rw [h.dropWhile, List.length_cons, Nat.add_right_comm, NumberPhrase.takeDigits,
      if_pos (h.digit d (by simp)), ih h.tail]
    rfl

theorem takeDigits_of_nil {n : Nat} (h : (p.takeDigits n is).1 = []) :
    p.takeDigits n is = ([], is) := by
  match n, is with
  | 0, _ | _ + 1, [] | _ + 1, .other _ :: _ => rfl
  | n + 1, .run r :: is =>
    simp only [NumberPhrase.takeDigits] at h ⊢
    split_ifs at h ⊢
    rfl

/-- As many digit words as there can be, or as there are, are taken. -/
theorem DigitWords.takeDigits_max (h : p.DigitWords ds) (hle : ds.length ≤ p.max)
    (hstop : ds.length = p.max ∨ p.Stops is) :
    p.takeDigits p.max ((spacedItems ds ++ is).dropWhile Item.isBlank) =
      (ds.map String.toList, is.dropWhile Item.isBlank) := by
  obtain ⟨n, hn⟩ := Nat.exists_eq_add_of_le hle
  rw [hn, h.takeDigits]
  rcases hstop with hmax | hstop
  · obtain rfl : n = 0 := by omega
    simp [NumberPhrase.takeDigits]
  · simp [takeDigits_of_nil (hstop n)]

/-- A number with nothing around it is what its digits say, and leaves the items behind them. -/
theorem numbers_of_takeDigits {ws : List (List Char)} (hleading : p.leading = none)
    (htrailing : p.trailing = none)
    (htake : p.takeDigits p.max (is.dropWhile Item.isBlank) = (ws, js.dropWhile Item.isBlank))
    (hne : ws ≠ []) (hmin : p.min ≤ ws.length) :
    p.numbers is = (none, String.ofList (p.values ws), none) :: p.numbers js := by
  have hfound : p.foundAt? (is.dropWhile Item.isBlank) =
      some ⟨none, ws, none, js.dropWhile Item.isBlank⟩ := by
    rw [foundAt?_of_none hleading, foundBehind?_of_takeDigits htake hne hmin,
      takeTrailing_of_none htrailing]
  rw [← numbers_dropWhile, numbers_of_some hfound, numbers_dropWhile]
  simp [Found.match?, Match.said, codeOf?, htrailing]

/-- The numbers of a full group of digits and those of the items behind it. -/
theorem DigitWords.numbers_group (h : p.DigitWords ds) (hleading : p.leading = none)
    (htrailing : p.trailing = none) (hne : ds ≠ []) (hlen : ds.length = p.max)
    (hmin : p.min ≤ p.max) :
    p.numbers (spacedItems ds ++ is) =
      (none, String.ofList (p.values (ds.map String.toList)), none) :: p.numbers is :=
  numbers_of_takeDigits hleading htrailing (h.takeDigits_max hlen.le (.inl hlen)) (by simpa)
    (by simpa [hlen])

@[simp] theorem codeOf?_some (spellings : List Spelling) (word : List Char) :
    codeOf? (some spellings) (some word) = Spelling.codeFor? spellings (String.ofList word) := rfl

/-- A leading word is found with as many digits behind it as there can be, or as there are. -/
theorem DigitWords.foundAt?_leading (h : p.DigitWords ds) {spellings : List Spelling}
    {r : List Char} (hleading : p.leading = some spellings)
    (hr : ∃ s ∈ spellings, Alike s.spoken.toList r) (hne : ds ≠ []) (hmin : p.min ≤ ds.length)
    (hmax : ds.length ≤ p.max) (hstop : ds.length = p.max ∨ p.Stops is) :
    p.foundAt? (.run r :: (spacedItems ds ++ is)) =
      some ⟨some r, ds.map String.toList, (p.takeTrailing (is.dropWhile Item.isBlank)).1,
        (p.takeTrailing (is.dropWhile Item.isBlank)).2⟩ := by
  rw [foundAt?_run hleading hr,
    foundBehind?_of_takeDigits (h.takeDigits_max hmax hstop) (by simpa) (by simpa)]

/-- The number of a leading word and its digits comes first, if none begins before it. -/
theorem DigitWords.head?_numbers (h : p.DigitWords ds) {spellings : List Spelling}
    {name code : String} (hleading : p.leading = some spellings) (hname : PlainWord name.toList)
    (hmem : ∃ s ∈ spellings, s.spoken = name)
    (hcode : codeOf? p.leading (some name.toList) = some code) (hne : ds ≠ [])
    (hmin : p.min ≤ ds.length) (hmax : ds.length ≤ p.max)
    (hstop : ds.length = p.max ∨ p.Stops is)
    (hpasses : p.Passes js (spacedItems (name :: ds) ++ is)) :
    (p.numbers (js ++ (spacedItems (name :: ds) ++ is))).head? =
      some (some code, String.ofList (p.values (ds.map String.toList)),
        codeOf? p.trailing (p.takeTrailing (is.dropWhile Item.isBlank)).1) := by
  have hspelling : ∃ s ∈ spellings, Alike s.spoken.toList name.toList := by
    obtain ⟨s, hs, rfl⟩ := hmem
    exact ⟨s, hs, .refl _⟩
  have hfound := h.foundAt?_leading hleading hspelling hne hmin hmax hstop
  rw [hpasses.numbers_append, spacedItems_cons, items_plain hname, List.cons_append, numbers_other,
    List.append_assoc, List.singleton_append, numbers_of_some hfound]
  simp only [Found.match?, hcode]
  rfl

/-- Where a leading word is asked for, as many digit words as a number needs at least are none on
their own: one of them would have to be the leading word. -/
theorem DigitWords.numbers_unled (h : p.DigitWords ds) {spellings : List Spelling}
    (hleading : p.leading = some spellings) (hle : ds.length ≤ p.min) (hmin : p.min ≤ p.max)
    (hstop : p.Stops is) : p.numbers (spacedItems ds ++ is) = p.numbers is := by
  induction ds with
  | nil => rfl
  | cons d ds ih =>
    rw [List.length_cons] at hle
    have hnone : p.foundAt? (.run d.toList :: (spacedItems ds ++ is)) = none := by
      by_cases hd : ∃ s ∈ spellings, Alike s.spoken.toList d.toList
      · rw [foundAt?_run hleading hd, foundBehind?_of_few
          (h.tail.takeDigits_max (by omega) (.inr hstop)) (by rw [List.length_map]; omega)]
      · refine foundAt?_eq_none hleading ?_
        rintro r ⟨⟩ x hx halike
        exact hd ⟨x, hx, halike⟩
    rw [spacedItems_cons, items_plain (h.plain d (by simp)), List.cons_append, numbers_other,
      List.append_assoc, List.singleton_append, numbers_of_none hnone, ih h.tail (by omega)]

end Phraseology.NumberPhrase
