import Phraseology.Proofs.NumberPhrase.Words

/-! The numbers of a text in a spaced script are found by a scan over its words from left to
right. -/
namespace Phraseology.NumberPhrase

open Text
open Text.Cursor

/-- A word of the text is a digit word, up to case. -/
def isDigitWord (p : NumberPhrase) (r : List Char) : Bool :=
  p.digits.any fun d => decide (Alike d.word.toList r)

/-- The digit words that items begin with, with blanks between them, and the items behind those;
there are at most so many. -/
def takeDigits (p : NumberPhrase) : Nat → List Item → List (List Char) × List Item
  | n + 1, .run r :: is =>
    if p.isDigitWord r then
      let q := takeDigits p n (is.dropWhile Item.isBlank)
      (r :: q.1, q.2)
    else ([], .run r :: is)
  | _, is => ([], is)

/-- A number at the beginning of items, and the items behind it. -/
structure Found where
  leading : Option (List Char)
  digits : List (List Char)
  trailing : Option (List Char)
  rest : List Item

/-- The leading word, if one is asked for, and the items behind it and blanks. -/
def takeLeading? (p : NumberPhrase) (is : List Item) : Option (Option (List Char) × List Item) :=
  match p.leading, is with
  | none, is => some (none, is)
  | some spellings, .run r :: is =>
    if spellings.any fun s => decide (Alike s.spoken.toList r) then
      some (some r, is.dropWhile Item.isBlank)
    else none
  | some _, _ => none

/-- The trailing word, if one is asked for and there is one, and the items behind it. -/
def takeTrailing (p : NumberPhrase) (is : List Item) : Option (List Char) × List Item :=
  match p.trailing, is with
  | some _, .run r :: is => (some r, is)
  | _, is => (none, is)

/-- The number that items begin with; it has at least one digit word. -/
def foundAt? (p : NumberPhrase) (is : List Item) : Option Found := do
  let (leading, is) ← p.takeLeading? is
  let (digits, is) := p.takeDigits p.max is
  if digits = [] ∨ digits.length < p.min then none
  else
    let (trailing, rest) := p.takeTrailing is
    return ⟨leading, digits, trailing, rest⟩

/-- The numerals of digit words; one that has no value is left out. -/
def values (p : NumberPhrase) (digits : List (List Char)) : List Char :=
  digits.filterMap fun r => (p.digitValue? r).map numeral

/-- The words of a number looked up; it is dropped if its leading word has no code. -/
def Found.match? (p : NumberPhrase) (start stop : Nat) (f : Found) : Option Match :=
  let found (leading : Option String) : Match :=
    ⟨leading, String.ofList (p.values f.digits), codeOf? p.trailing f.trailing, start, stop⟩
  match f.leading with
  | none => some (found none)
  | some word => (codeOf? p.leading (some word)).map fun code => found (some code)

variable {p : NumberPhrase} {is rest : List Item} {b s t r u : List Char}

theorem length_dropWhile_le {α : Type} (q : α → Bool) (l : List α) :
    (l.dropWhile q).length ≤ l.length :=
  (List.dropWhile_sublist q).length_le

theorem length_takeDigits (n : Nat) (is : List Item) :
    (p.takeDigits n is).2.length + (p.takeDigits n is).1.length ≤ is.length := by
  induction n generalizing is with
  | zero => simp [takeDigits]
  | succ n ih =>
    match is with
    | [] => simp [takeDigits]
    | .other c :: is => simp [takeDigits]
    | .run r :: is =>
      simp only [takeDigits]
      split_ifs
      · have := ih (is.dropWhile Item.isBlank)
        have := length_dropWhile_le Item.isBlank is
        simp only [List.length_cons]
        omega
      · simp

theorem length_takeLeading? {leading : Option (List Char)}
    (h : p.takeLeading? is = some (leading, rest)) : rest.length ≤ is.length := by
  unfold takeLeading? at h
  split at h
  · obtain ⟨-, rfl⟩ := Prod.mk.inj (Option.some.inj h)
    exact le_rfl
  · rename_i js _
    split_ifs at h
    obtain ⟨-, rfl⟩ := Prod.mk.inj (Option.some.inj h)
    have := length_dropWhile_le Item.isBlank js
    rw [List.length_cons]
    omega
  · cases h

theorem length_takeTrailing (is : List Item) : (p.takeTrailing is).2.length ≤ is.length := by
  unfold takeTrailing
  split <;> simp

theorem length_of_foundAt? {f : Found} (h : p.foundAt? is = some f) :
    f.rest.length < is.length := by
  obtain ⟨⟨leading, js⟩, hleading, h⟩ := Option.bind_eq_some_iff.1 h
  have := length_takeLeading? hleading
  have := length_takeDigits (p := p) p.max js
  have := length_takeTrailing (p := p) (p.takeDigits p.max js).2
  simp only at h
  split_ifs at h with hdigits
  obtain rfl := Option.some.inj h
  have := List.length_pos_of_ne_nil (not_or.1 hdigits).1
  simp only
  omega

/-- The numbers of items, of which so many bytes come before. -/
def scan (p : NumberPhrase) (n : Nat) (is : List Item) : List Match :=
  match is with
  | [] => []
  | i :: is =>
    match _h : p.foundAt? (i :: is) with
    | some f =>
      let m := n + (Item.size (i :: is) - Item.size f.rest)
      (f.match? p n m).toList ++ p.scan m f.rest
    | none => p.scan (n + Item.size [i]) is
termination_by is.length
decreasing_by
  · exact length_of_foundAt? _h
  · exact Nat.lt_succ_self _

theorem scan_of_some {f : Found} (n : Nat) (h : p.foundAt? is = some f) :
    p.scan n is =
      (f.match? p n (n + (Item.size is - Item.size f.rest))).toList ++
        p.scan (n + (Item.size is - Item.size f.rest)) f.rest := by
  cases is with
  | nil => exact absurd (length_of_foundAt? h) (by simp)
  | cons i is =>
    rw [scan]
    split
    · rename_i g hg
      rw [h] at hg
      obtain rfl := Option.some.inj hg
      rfl
    · rename_i hg
      rw [h] at hg
      cases hg

theorem scan_of_none {i : Item} (n : Nat) (h : p.foundAt? (i :: is) = none) :
    p.scan n (i :: is) = p.scan (n + Item.size [i]) is := by
  rw [scan]
  split
  · rename_i g hg
    rw [h] at hg
    cases hg
  · rfl

/-- The first of the words that stands at a place is one that no longer one goes beyond. -/
theorem head?_anyWord {ws : List (List Char)}
    (hsorted : ws.Pairwise (List.length · ≥ List.length ·))
    (hlongest : ∀ w ∈ ws, ∀ x y, t = x ++ y → Alike w (r ++ x) → x = [])
    (h : ∃ w ∈ ws, Alike w r) : (anyWord ws (place b (r ++ t))).head? = some (behind r b t) := by
  induction ws with
  | nil => simp at h
  | cons w ws ih =>
    obtain ⟨hw, hsorted⟩ := List.pairwise_cons.1 hsorted
    obtain ⟨x, hx, hxr⟩ := h
    cases hd : word? w (place b (r ++ t)) with
    | none =>
      rw [anyWord_cons_none hd]
      refine ih hsorted (fun w hw => hlongest w (List.mem_cons_of_mem _ hw)) ⟨x, ?_, hxr⟩
      rcases List.mem_cons.1 hx with rfl | hx
      · rw [word?_place hxr] at hd
        cases hd
      · exact hx
    | some d =>
      rw [anyWord_cons_some hd, List.head?_cons]
      obtain ⟨v, q, hvq, hwv, rfl⟩ := word?_eq_some_iff.1 hd
      have hle : r.length ≤ v.length := by
        rw [← hwv.length_eq, ← hxr.length_eq]
        rcases List.mem_cons.1 hx with rfl | hx
        · exact le_rfl
        · exact hw x hx
      rcases List.append_eq_append_iff.1 hvq with ⟨x, rfl, rfl⟩ | ⟨x, rfl, rfl⟩
      · obtain rfl := hlongest w (by simp) x q rfl hwv
        simp
      · rw [List.length_append] at hle
        obtain rfl : x = [] := List.length_eq_zero_iff.1 (by omega)
        simp

/-- The words one after another, with any blanks behind each; none of them goes on to a longer one
of those that are looked for. -/
inductive Cut (ws : List (List Char)) : List (List Char) → List Char → Prop where
  | nil : Cut ws [] []
  | cons {v bl u : List Char} {vs : List (List Char)} (word : ∃ w ∈ ws, Alike w v)
      (longest : ∀ w ∈ ws, ∀ x y, bl ++ u = x ++ y → Alike w (v ++ x) → x = [])
      (blank : ∀ c ∈ bl, isBlank c = true) (rest : Cut ws vs u) : Cut ws (v :: vs) (v ++ (bl ++ u))

theorem Cut.ne_nil {ws vs : List (List Char)} (h : Cut ws vs u) (hws : ∀ w ∈ ws, w ≠ [])
    (hvs : vs ≠ []) : u ≠ [] := by
  cases h with
  | nil => exact absurd rfl hvs
  | cons word longest blank rest =>
    obtain ⟨w, hw, hwv⟩ := word
    have hv := mt hwv.eq_nil_iff.2 (hws w hw)
    exact List.append_ne_nil_of_left_ne_nil hv _

/-- There are digit words, and none begins with a blank. -/
structure Solid (p : NumberPhrase) : Prop where
  digits_ne : p.digits ≠ []
  not_blank : ∀ d ∈ p.digits, ∃ c ∈ d.word.toList.head?, isBlank c = false

theorem Solid.of_mem_digits (hp : p.Solid) {w v : List Char} (hw : w ∈ p.words.digits)
    (hwv : Alike w v) : ∃ c ∈ v.head?, isBlank c = false := by
  obtain ⟨d, hd, rfl⟩ := (mem_words_digits hp.digits_ne).1 hw
  obtain ⟨c, hc, hblank⟩ := hp.not_blank d hd
  obtain ⟨w, hw⟩ := List.head?_eq_some_iff.1 hc
  rw [hw] at hwv
  cases v with
  | nil => exact absurd hwv.length_eq (by simp)
  | cons x v => exact ⟨x, rfl, (isBlank_eq_of_alike (alike_cons_iff.1 hwv).1).symm.trans hblank⟩

theorem Solid.digit_ne_nil (hp : p.Solid) : ∀ w ∈ p.words.digits, w ≠ [] := by
  rintro w hw rfl
  obtain ⟨x, hx, -⟩ := hp.of_mem_digits hw (.refl [])
  cases hx

/-- A run that is cut into digit words has their numerals, in their order. -/
theorem Solid.numerals_of_cut (hp : p.Solid) {vs : List (List Char)}
    (h : Cut p.words.digits vs u) : p.numerals p.words u = p.values vs := by
  have hnone {b s : List Char} (hs : ∀ c ∈ s.head?, isBlank c = true) :
      (anyWord p.words.digits (place b s)).head? = none := by
    rw [List.head?_eq_none_iff, List.eq_nil_iff_forall_not_mem]
    intro d hd
    obtain ⟨w, hw, v, t, rfl, hwv, -⟩ := mem_anyWord.1 hd
    obtain ⟨c, hc, hblank⟩ := hp.of_mem_digits hw hwv
    obtain ⟨v, rfl⟩ := List.head?_eq_some_iff.1 hc
    rw [hs c rfl] at hblank
    cases hblank
  have ha : Advancing (fun c => (anyWord p.words.digits c).head?) id :=
    advancing_anyWord hp.digit_ne_nil
  unfold numerals
  rw [ha.hits_eq]
  generalize ([] : List Char) = b
  induction h generalizing b with
  | nil => rw [ha.hitsAt_nil (hnone (by simp))]; rfl
  | @cons v bl u vs word longest blank rest ih =>
    have hhit := head?_anyWord (b := b) (pairwise_alternativesOrEmpty _) longest word
    have hskip : hitsAt (fun c => (anyWord p.words.digits c).head?) id (behind v b (bl ++ u)) =
        hitsAt (fun c => (anyWord p.words.digits c).head?) id (behind bl (v.reverse ++ b) u) := by
      refine ha.hitsAt_append fun x y hxy hy => hnone ?_
      obtain ⟨c, y, rfl⟩ := List.exists_cons_of_ne_nil hy
      rintro c' ⟨⟩
      exact blank c (by simp [← hxy])
    have hword : (place b (v ++ (bl ++ u))).upTo (behind v b (bl ++ u)) = v := upTo_behind
    rw [ha.hitsAt_of_some hhit, id, hskip, List.filterMap_cons, ih]
    simp only [hword]
    rfl

/-- No digit words are taken if the items do not begin with one. -/
theorem takeDigits_of_not_digit (h : ∀ r, .run r ∈ is.head? → p.isDigitWord r = false) (n : Nat) :
    p.takeDigits n is = ([], is) := by
  match n, is with
  | 0, _ | _ + 1, [] | _ + 1, .other _ :: _ => rfl
  | n + 1, .run r :: is => simp [takeDigits, h r rfl]

theorem takeLeading?_of_none (h : p.leading = none) : p.takeLeading? is = some (none, is) := by
  simp only [takeLeading?, h]

theorem takeLeading?_run {spellings : List Spelling} (h : p.leading = some spellings)
    (hr : ∃ x ∈ spellings, Alike x.spoken.toList r) :
    p.takeLeading? (.run r :: is) = some (some r, is.dropWhile Item.isBlank) := by
  have hany : (spellings.any fun x => decide (Alike x.spoken.toList r)) = true := by simpa using hr
  simp only [takeLeading?, h, hany, if_true]

theorem takeLeading?_eq_none {spellings : List Spelling} (h : p.leading = some spellings)
    (hnot : ∀ r, .run r ∈ is.head? → ∀ x ∈ spellings, ¬ Alike x.spoken.toList r) :
    p.takeLeading? is = none := by
  match is with
  | [] | .other _ :: _ => simp [takeLeading?, h]
  | .run r :: is =>
    have hany : (spellings.any fun x => decide (Alike x.spoken.toList r)) = false := by
      simpa using hnot r rfl
    simp [takeLeading?, h, hany]

@[simp] theorem takeTrailing_of_none (h : p.trailing = none) : p.takeTrailing is = (none, is) := by
  simp only [takeTrailing, h]

theorem takeTrailing_run {spellings : List Spelling} (h : p.trailing = some spellings) :
    p.takeTrailing (.run r :: is) = (some r, is) := by
  simp only [takeTrailing, h]

theorem takeTrailing_of_not_run (h : ∀ r, .run r ∉ is.head?) :
    p.takeTrailing is = (none, is) := by
  unfold takeTrailing
  match is with
  | [] | .other _ :: _ => cases p.trailing <;> rfl
  | .run r :: _ => exact absurd rfl (h r)

theorem isDigitWord_eq_true_iff :
    p.isDigitWord r = true ↔ ∃ d ∈ p.digits, Alike d.word.toList r := by
  simp only [isDigitWord, List.any_eq_true, decide_eq_true_eq]

theorem isDigitWord_iff (hp : p.digits ≠ []) :
    p.isDigitWord r = true ↔ ∃ w ∈ p.words.digits, Alike w r := by
  simp only [isDigitWord_eq_true_iff, mem_words_digits hp]
  constructor
  · rintro ⟨d, hd, hdr⟩
    exact ⟨_, ⟨d, hd, rfl⟩, hdr⟩
  · rintro ⟨w, ⟨d, hd, rfl⟩, hdr⟩
    exact ⟨d, hd, hdr⟩

theorem Plain.solid (hp : p.Plain) : p.Solid where
  digits_ne := hp.digits_ne
  not_blank := by
    intro d hd
    obtain ⟨c, w, hw⟩ := List.exists_cons_of_ne_nil (hp.digits d hd).ne_nil
    refine ⟨c, by simp [hw], not_blank_of_isWordChar ?_⟩
    exact (hp.digits d hd).all c (by simp [hw])

end Phraseology.NumberPhrase
