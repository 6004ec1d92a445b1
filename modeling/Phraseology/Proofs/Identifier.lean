import Phraseology.Proofs.Decoded
import Phraseology.Proofs.Source
import Phraseology.Proofs.Text.Embedded

/-! Which texts are read as runways and as callsigns, and that both are told by their names. -/
namespace Phraseology

open Text

theorem digit?_eq_some_iff {c : Char} {d : Fin 10} : digit? c = some d ↔ c = digitChar d := by
  constructor
  · intro h
    unfold digit? at h
    split_ifs at h with hlt hle
    have hsum : '0'.toNat + (c.toNat - '0'.toNat) = c.toNat := by omega
    rw [← Option.some.inj h, digitChar, hsum, Char.ofNat_toNat]
  · rintro rfl
    exact digit?_digitChar d

@[simp] theorem isDigit_digitChar (d : Fin 10) : (digitChar d).isDigit = true := by
  revert d
  decide

theorem digit?_eq_none_iff {c : Char} : digit? c = none ↔ c.isDigit = false := by
  rw [Option.eq_none_iff_forall_not_mem, ← Bool.not_eq_true]
  refine not_iff_not.1 ?_
  push Not
  constructor
  · rintro ⟨d, hd⟩
    rw [digit?_eq_some_iff.1 hd]
    exact isDigit_digitChar d
  · intro hc
    obtain ⟨d, rfl⟩ := exists_digitChar hc
    exact ⟨d, digit?_digitChar d⟩

theorem Text.toUpper_of_not_ascii {c : Char} (h : ¬ c.toNat < 128) : c.toUpper = c := by
  have hlower : ¬ c.isLower = true := by
    intro hc
    exact h (toNat_lt_of_isAlpha (by simp [Char.isAlpha, hc]))
  unfold Char.toUpper
  rw [dif_neg]
  simpa [Char.isLower] using hlower

namespace Side

variable {c : Char} {side : Side}

theorem ofLetter?_eq_some_iff : ofLetter? c = some side ↔ c.toUpper = side.letter := by
  unfold ofLetter?
  split <;> rename_i h
  · cases side <;> simp [h, letter]
  · cases side <;> simp [h, letter]
  · cases side <;> simp [h, letter]
  · cases side <;> simp_all [letter]

theorem not_isDigit_of_ofLetter? (h : ofLetter? c = some side) : c.isDigit = false := by
  by_contra hc
  obtain ⟨d, rfl⟩ := exists_digitChar (Bool.eq_true_of_not_eq_false hc)
  have hnone : ∀ d : Fin 10, ofLetter? (digitChar d) = none := by decide
  rw [hnone d] at h
  cases h

theorem exists_ofLetter?_iff :
    (∃ side, ofLetter? c = some side) ↔ c ∈ ['L', 'C', 'R', 'l', 'c', 'r'] := by
  by_cases hc : c.toNat < 128
  · have hascii : (ofLetter? c).isSome = ['L', 'C', 'R', 'l', 'c', 'r'].contains c :=
      forall_ascii (p := fun c => (ofLetter? c).isSome = ['L', 'C', 'R', 'l', 'c', 'r'].contains c)
        (by decide) hc
    rw [← Option.isSome_iff_exists, hascii, List.contains_iff_mem]
  · constructor
    · rintro ⟨side, hside⟩
      rw [ofLetter?_eq_some_iff, toUpper_of_not_ascii hc] at hside
      rw [hside] at hc
      cases side <;> exact absurd (by decide) hc
    · intro hmem
      simp only [List.mem_cons, List.not_mem_nil, or_false] at hmem
      rcases hmem with rfl | rfl | rfl | rfl | rfl | rfl <;> exact absurd (by decide) hc

end Side

namespace Text

variable {n : Nat} {s u t : List Char}

/-- A text in two, of which the first part has so many bytes. There is no such cut inside of a
character or behind the end of the text. -/
def splitAtByte? : Nat → List Char → Option (List Char × List Char)
  | 0, s => some ([], s)
  | _ + 1, [] => none
  | n + 1, c :: s =>
    if c.utf8Size ≤ n + 1 then
      (splitAtByte? (n + 1 - c.utf8Size) s).map fun (front, back) => (c :: front, back)
    else none

theorem splitAtByte?_eq_some_iff :
    splitAtByte? n s = some (u, t) ↔ s = u ++ t ∧ byteCount u = n := by
  fun_induction splitAtByte? n s generalizing u with
  | case1 s =>
    cases u with
    | nil => simp [eq_comm]
    | cons c u =>
      have hpos := c.utf8Size_pos
      have hcount : byteCount (c :: u) ≠ 0 := by
        rw [byteCount_cons]
        omega
      exact iff_of_false (by simp) fun h => hcount h.2
  | case2 n =>
    simp only [reduceCtorEq, List.nil_eq_append_iff, false_iff]
    rintro ⟨⟨rfl, rfl⟩, hcount⟩
    cases hcount
  | case3 n c s hle ih =>
    cases u with
    | nil => simp
    | cons d u =>
      simp only [Option.map_eq_some_iff, Prod.mk.injEq, List.cons.injEq, Prod.exists,
        byteCount_cons, List.cons_append]
      constructor
      · rintro ⟨u, t, hsplit, ⟨rfl, rfl⟩, rfl⟩
        obtain ⟨rfl, hcount⟩ := ih.1 hsplit
        exact ⟨⟨rfl, rfl⟩, by omega⟩
      · rintro ⟨⟨rfl, rfl⟩, hcount⟩
        exact ⟨u, t, ih.2 ⟨rfl, by omega⟩, ⟨rfl, rfl⟩, rfl⟩
  | case4 n c s hlt =>
    cases u with
    | nil => simp
    | cons d u =>
      simp only [reduceCtorEq, List.cons_append, List.cons.injEq, byteCount_cons, false_iff]
      rintro ⟨⟨rfl, -⟩, hcount⟩
      omega

@[simp, grind =] theorem byteCount_digits (ns : List (Fin 10)) : byteCount (ns.map digitChar) = ns.length := by
  have hsize : ∀ d : Fin 10, (digitChar d).utf8Size = 1 := by decide
  induction ns with
  | nil => rfl
  | cons d ns ih => rw [List.map_cons, byteCount_cons, hsize, ih, List.length_cons, Nat.add_comm]

end Text

theorem isDigit_of_mem_digits {c : Char} {ns : List (Fin 10)} (h : c ∈ ns.map digitChar) :
    c.isDigit = true := by
  obtain ⟨d, -, rfl⟩ := List.mem_map.1 h
  exact isDigit_digitChar d

namespace Runway

variable {s rest : List Char} {text : String} {r : Runway} {ns : List (Fin 10)}

/-- The side that stands behind the digits of a runway, where there may be none. -/
def sideOf? : List Char → Option (Option Side)
  | [] => some none
  | [c] => (Side.ofLetter? c).map some
  | _ => none

/-- The number and the side of a runway. The text is cut behind as many bytes as there are digits at
its start; nothing comes out where it cannot be cut. -/
def readCut? (text : String) : Option (Except IdentifierError (String × Option Side)) :=
  let s := trimChars text.toList
  let count := (s.takeWhile Char.isDigit).length
  if 1 ≤ count ∧ count ≤ 2 then
    (splitAtByte? count s).map fun (number, rest) =>
      match sideOf? rest with
      | some side => .ok (String.ofList number, side)
      | none => .error (.runway text)
  else some (.error (.runway text))

/-- One or two digits and perhaps the letter of a side, in either case. -/
def Written (s : List Char) : Prop :=
  ∃ digits side : List Char, s = digits ++ side ∧ (∀ c ∈ digits, c.isDigit = true) ∧
    (digits.length = 1 ∨ digits.length = 2) ∧ side.length ≤ 1 ∧
      ∀ c ∈ side, c ∈ ['L', 'C', 'R', 'l', 'c', 'r']

theorem sideOf?_map_toUpper {side : Option Side} (h : sideOf? rest = some side) :
    rest.map Char.toUpper = (side.map Side.letter).toList := by
  unfold sideOf? at h
  split at h
  · cases h
    rfl
  · obtain ⟨side, hside, rfl⟩ := Option.map_eq_some_iff.1 h
    rw [List.map_singleton, Side.ofLetter?_eq_some_iff.1 hside]
    rfl
  · cases h

theorem not_isDigit_of_sideOf? {side : Option Side} (h : sideOf? rest = some side) :
    ∀ c ∈ rest, c.isDigit = false := by
  unfold sideOf? at h
  split at h
  · simp
  · obtain ⟨side, hside, -⟩ := Option.map_eq_some_iff.1 h
    simpa using Side.not_isDigit_of_ofLetter? hside
  · cases h

theorem exists_sideOf?_iff : (∃ side, sideOf? rest = some side) ↔
    rest.length ≤ 1 ∧ ∀ c ∈ rest, c ∈ ['L', 'C', 'R', 'l', 'c', 'r'] := by
  match rest with
  | [] => simp [sideOf?]
  | [c] =>
    simp only [← Side.exists_ofLetter?_iff, sideOf?, Option.map_eq_some_iff]
    simp
  | _ :: _ :: _ => simp [sideOf?]

theorem ofChars?_eq_some_iff : ofChars? s = some r ↔
    ∃ rest, s = r.digits.map digitChar ++ rest ∧ sideOf? rest = some r.side := by
  constructor
  · intro h
    match s with
    | [a] =>
      obtain ⟨d, hd, h⟩ := Option.bind_eq_some_iff.1 h
      cases h
      exact ⟨[], by simp [digits, digit?_eq_some_iff.1 hd], rfl⟩
    | [a, b] =>
      obtain ⟨d, hd, h⟩ := Option.bind_eq_some_iff.1 h
      split at h
      · rename_i e he
        cases h
        exact ⟨[], by simp [digits, digit?_eq_some_iff.1 hd, digit?_eq_some_iff.1 he], rfl⟩
      · obtain ⟨side, hside, h⟩ := Option.bind_eq_some_iff.1 h
        cases h
        exact ⟨[b], by simp [digits, digit?_eq_some_iff.1 hd], by simp [sideOf?, hside]⟩
    | [a, b, c] =>
      obtain ⟨d, hd, h⟩ := Option.bind_eq_some_iff.1 h
      obtain ⟨e, he, h⟩ := Option.bind_eq_some_iff.1 h
      obtain ⟨side, hside, h⟩ := Option.bind_eq_some_iff.1 h
      cases h
      refine ⟨[c], ?_, by simp [sideOf?, hside]⟩
      simp [digits, digit?_eq_some_iff.1 hd, digit?_eq_some_iff.1 he]
  · obtain ⟨first, second, side⟩ := r
    rintro ⟨rest, rfl, h⟩
    have hrest := not_isDigit_of_sideOf? h
    unfold sideOf? at h
    split at h
    · cases h
      cases second <;> simp [digits, ofChars?]
    · rename_i c
      obtain ⟨side, hside, rfl⟩ := Option.map_eq_some_iff.1 h
      have hc : digit? c = none := digit?_eq_none_iff.2 (hrest c (by simp))
      cases second <;> simp [digits, ofChars?, hc, hside]
    · cases h

theorem parse_eq_ok_iff : parse text = .ok r ↔ ∃ rest,
    trimChars text.toList = r.digits.map digitChar ++ rest ∧ sideOf? rest = some r.side := by
  rw [← ofChars?_eq_some_iff, parse]
  cases ofChars? (trimChars text.toList) <;> simp

/-- A runway has the name that it is read from, with no blanks around it and the side as a
capital. -/
theorem toList_name_of_parse (h : parse text = .ok r) :
    r.name.toList = (trimChars text.toList).map Char.toUpper := by
  have hdigit : ∀ d : Fin 10, (digitChar d).toUpper = digitChar d := by decide
  obtain ⟨rest, hs, hside⟩ := parse_eq_ok_iff.1 h
  rw [name, String.toList_ofList, chars, hs, List.map_append, sideOf?_map_toUpper hside,
    List.map_map]
  congr 1
  exact List.map_congr_left fun d _ => (hdigit d).symm

theorem exists_digits (hcount : ns.length = 1 ∨ ns.length = 2) (side : Option Side) :
    ∃ r : Runway, r.digits = ns ∧ r.side = side := by
  match ns with
  | [a] => exact ⟨⟨a, none, side⟩, rfl, rfl⟩
  | [a, b] => exact ⟨⟨a, some b, side⟩, rfl, rfl⟩

theorem length_digits (r : Runway) : r.digits.length = 1 ∨ r.digits.length = 2 := by
  obtain ⟨first, second, side⟩ := r
  cases second <;> simp [digits]

theorem exists_parse_iff : (∃ r, parse text = .ok r) ↔ Written (trimChars text.toList) := by
  simp only [parse_eq_ok_iff]
  constructor
  · rintro ⟨r, rest, hs, hside⟩
    obtain ⟨hlength, hletters⟩ := exists_sideOf?_iff.1 ⟨_, hside⟩
    refine ⟨_, rest, hs, fun c => isDigit_of_mem_digits, ?_, hlength, hletters⟩
    rw [List.length_map]
    exact r.length_digits
  · rintro ⟨ds, rest, hs, hdigits, hcount, hlength, hletters⟩
    obtain ⟨ns, rfl⟩ := exists_map_digitChar (List.all_eq_true.2 hdigits)
    obtain ⟨side, hside⟩ := exists_sideOf?_iff.2 ⟨hlength, hletters⟩
    obtain ⟨r, rfl, rfl⟩ := exists_digits (by simpa using hcount) side
    exact ⟨r, rest, hs, hside⟩

theorem takeWhile_isDigit (h : ∀ c ∈ rest.head?, c.isDigit = false) :
    (ns.map digitChar ++ rest).takeWhile Char.isDigit = ns.map digitChar := by
  have hstop : rest.takeWhile Char.isDigit = [] := by
    cases rest with
    | nil => rfl
    | cons c rest => exact List.takeWhile_cons_of_neg (by simp [h c rfl])
  rw [List.takeWhile_append_of_pos fun c => isDigit_of_mem_digits, hstop, List.append_nil]

theorem exists_leading_digits (s : List Char) :
    ∃ (ns : List (Fin 10)) (rest : List Char), s = ns.map digitChar ++ rest ∧
      ∀ c ∈ rest.head?, c.isDigit = false := by
  obtain ⟨ns, hns⟩ := exists_map_digitChar (List.all_takeWhile (p := Char.isDigit) (l := s))
  refine ⟨ns, s.dropWhile Char.isDigit, by rw [hns, List.takeWhile_append_dropWhile], ?_⟩
  intro c hc
  have hstop := List.head?_dropWhile_not Char.isDigit s
  rwa [Option.mem_def.1 hc] at hstop

theorem readCut?_eq_of_digits (hs : trimChars text.toList = ns.map digitChar ++ rest)
    (hrest : ∀ c ∈ rest.head?, c.isDigit = false) :
    readCut? text = some (if 1 ≤ ns.length ∧ ns.length ≤ 2 then
      match sideOf? rest with
      | some side => .ok (String.ofList (ns.map digitChar), side)
      | none => .error (.runway text)
    else .error (.runway text)) := by
  have hcut : splitAtByte? ns.length (ns.map digitChar ++ rest) = some (ns.map digitChar, rest) :=
    splitAtByte?_eq_some_iff.2 ⟨rfl, byteCount_digits ns⟩
  rw [readCut?, hs, takeWhile_isDigit hrest, List.length_map, hcut]
  split_ifs <;> rfl

/-- The text can be cut wherever it has to be, and what is read from the parts is the runway. -/
theorem readCut?_eq (text : String) :
    readCut? text = some ((parse text).map fun r => (r.number, r.side)) := by
  cases hparse : parse text with
  | ok r =>
    obtain ⟨rest, hs, hside⟩ := parse_eq_ok_iff.1 hparse
    have hcount := r.length_digits
    have hrest : ∀ c ∈ rest.head?, c.isDigit = false := fun c hc =>
      not_isDigit_of_sideOf? hside c (List.mem_of_mem_head? hc)
    rw [readCut?_eq_of_digits hs hrest, if_pos (by omega), hside]
    rfl
  | error err =>
    obtain rfl := error_of_parse hparse
    obtain ⟨ns, rest, hs, hrest⟩ := exists_leading_digits (trimChars text.toList)
    rw [readCut?_eq_of_digits hs hrest]
    split_ifs with hcount
    · cases hside : sideOf? rest with
      | none => rfl
      | some side =>
        obtain ⟨r, rfl, rfl⟩ := exists_digits (by omega : ns.length = 1 ∨ ns.length = 2) side
        rw [parse_eq_ok_iff.2 ⟨_, hs, hside⟩] at hparse
        cases hparse
    · rfl

end Runway

namespace Text

variable {s u : List Char} {us : List (List Char)}

theorem wordChars_eq_nil_iff : wordChars s = [] ↔ ∀ c ∈ s, isBlank c = true := by
  induction s using word_induction with
  | nil => simp [wordChars]
  | blank c s hc ih => simp [wordChars_blank hc, hc, ih]
  | word u t hu ht ih =>
    rw [wordChars_unbroken hu ht]
    obtain ⟨c, u, rfl⟩ := List.exists_cons_of_ne_nil hu.ne_nil
    simp [hu.not_blank c (by simp)]

/-- The first word stands behind blanks, and before a blank if anything comes behind it. -/
theorem wordChars_eq_cons_iff : wordChars s = u :: us ↔ ∃ bl t, s = bl ++ (u ++ t) ∧
    (∀ c ∈ bl, isBlank c = true) ∧ Unbroken u ∧ (∀ c ∈ t.head?, isBlank c = true) ∧
      wordChars t = us := by
  constructor
  · intro h
    induction s using word_induction with
    | nil => cases h
    | blank c s hc ih =>
      rw [wordChars_blank hc] at h
      obtain ⟨bl, t, rfl, hbl, ht⟩ := ih h
      exact ⟨c :: bl, t, rfl, List.forall_mem_cons.2 ⟨hc, hbl⟩, ht⟩
    | word v t hv ht ih =>
      rw [wordChars_unbroken hv ht] at h
      obtain ⟨rfl, rfl⟩ := List.cons.inj h
      exact ⟨[], t, rfl, by simp, hv, ht, rfl⟩
  · rintro ⟨bl, t, rfl, hbl, hu, ht, rfl⟩
    rw [wordChars_blanks_append hbl, wordChars_unbroken hu ht]

end Text

namespace Callsign

variable {text : String} {c : Callsign}

/-- Two words with blanks between them and perhaps around them, the second of digits only. -/
def Written (s : List Char) : Prop :=
  ∃ before airline between flight after : List Char,
    s = before ++ (airline ++ (between ++ (flight ++ after))) ∧
      (∀ c ∈ before ++ (between ++ after), isBlank c = true) ∧ between ≠ [] ∧
      Unbroken airline ∧ flight ≠ [] ∧ ∀ c ∈ flight, c.isDigit = true

theorem parse_eq_ok_iff : parse text = .ok c ↔
    wordChars text.toList = [c.airline.toList, c.flight.toList] ∧
      isDigits c.flight.toList = true := by
  refine ⟨exists_of_parse, fun ⟨hwords, hdigits⟩ => ?_⟩
  rw [parse, hwords, ofWords?, if_pos hdigits, String.ofList_toList, String.ofList_toList]

theorem error_of_parse {err : IdentifierError} (h : parse text = .error err) :
    err = .callsign text := by
  unfold parse at h
  split at h
  · cases h
  · exact (Except.error.inj h).symm

theorem exists_parse_iff : (∃ c, parse text = .ok c) ↔ Written text.toList := by
  simp only [parse_eq_ok_iff]
  constructor
  · rintro ⟨c, hwords, hdigits⟩
    obtain ⟨before, t, hs, hbefore, hairline, ht, hrest⟩ := wordChars_eq_cons_iff.1 hwords
    obtain ⟨between, after, rfl, hbetween, hflight, -, hrest⟩ := wordChars_eq_cons_iff.1 hrest
    have hafter := wordChars_eq_nil_iff.1 hrest
    refine ⟨before, _, between, _, after, hs, ?blank, ?apart, hairline, hflight.ne_nil,
      List.all_eq_true.1 hdigits⟩
    case blank =>
      simp only [List.mem_append]
      rintro x (hx | hx | hx)
      exacts [hbefore x hx, hbetween x hx, hafter x hx]
    case apart =>
      rintro rfl
      obtain ⟨x, u, hu⟩ := List.exists_cons_of_ne_nil hflight.ne_nil
      have hx := hflight.not_blank x (by simp [hu])
      rw [ht x (by simp [hu])] at hx
      cases hx
  · rintro ⟨before, airline, between, flight, after, hs, hblank, hne, hairline, hpos, hdigits⟩
    simp only [List.mem_append] at hblank
    obtain ⟨x, between, rfl⟩ := List.exists_cons_of_ne_nil hne
    have hflight : Unbroken flight := ⟨hpos, fun c hc => not_blank_of_isDigit (hdigits c hc)⟩
    have hafter : ∀ c ∈ after, isBlank c = true := fun c hc => hblank c (.inr (.inr hc))
    refine ⟨⟨String.ofList airline, String.ofList flight⟩, ?_, by simpa [isDigits] using hdigits⟩
    rw [String.toList_ofList, String.toList_ofList]
    refine wordChars_eq_cons_iff.2 ⟨before, _, hs, fun c hc => hblank c (.inl hc), hairline, ?_, ?_⟩
    · rintro c ⟨⟩
      exact hblank x (.inr (.inl (by simp)))
    · exact wordChars_eq_cons_iff.2 ⟨_, after, rfl, fun c hc => hblank c (.inr (.inl hc)), hflight,
        fun c hc => hafter c (List.mem_of_mem_head? hc), wordChars_eq_nil_iff.2 hafter⟩

/-- A callsign has the name that it is read from, but with a single space and nothing else around
its words. -/
theorem toList_name_of_parse (h : parse text = .ok c) :
    c.name.toList = [' '].intercalate (wordChars text.toList) := by
  rw [(exists_of_parse h).1, name]
  simp [List.intercalate]

theorem parse_name (h : parse text = .ok c) : parse c.name = .ok c := by
  obtain ⟨hairline, hflight⟩ := unbroken_of_parse h
  exact parse_eq_ok_iff.2 ⟨wordChars_name hairline hflight, (exists_of_parse h).2⟩

end Callsign

/-- An identifier is read exactly from the texts that are written like it, and is told by its name,
which is read as it again and which only the text decides. Any other text is refused as it was
given. -/
structure CanonicalReader {α : Type} (parse : String → Except IdentifierError α)
    (name : α → String) (Written : List Char → Prop) (canonical : List Char → List Char)
    (refusal : String → IdentifierError) : Prop where
  accepts : ∀ text, (∃ a, parse text = .ok a) ↔ Written text.toList
  refuses : ∀ text err, parse text = .error err → err = refusal text
  toList_name : ∀ text a, parse text = .ok a → (name a).toList = canonical text.toList
  parse_name : ∀ text a, parse text = .ok a → parse (name a) = .ok a
  eq_iff : ∀ text text' a a', parse text = .ok a → parse text' = .ok a' →
    (a = a' ↔ name a = name a')

theorem eq_iff_of_parse_name {α : Type} {parse : String → Except IdentifierError α}
    {name : α → String} (h : ∀ text a, parse text = .ok a → parse (name a) = .ok a)
    {text text' : String} {a a' : α} (ha : parse text = .ok a) (ha' : parse text' = .ok a') :
    a = a' ↔ name a = name a' := by
  refine ⟨congrArg name, fun hname => ?_⟩
  have hread := h text a ha
  rw [hname, h text' a' ha'] at hread
  exact (Except.ok.inj hread).symm

theorem Runway.canonicalReader : CanonicalReader Runway.parse Runway.name
    (fun s => Runway.Written (trimChars s)) (fun s => (trimChars s).map Char.toUpper) .runway where
  accepts := fun _ => exists_parse_iff
  refuses := fun _ _ => error_of_parse
  toList_name := fun _ _ => toList_name_of_parse
  parse_name := fun _ r _ => r.parse_name
  eq_iff := fun _ _ _ _ => eq_iff_of_parse_name fun _ r _ => r.parse_name

theorem Callsign.canonicalReader : CanonicalReader Callsign.parse Callsign.name Callsign.Written
    (fun s => [' '].intercalate (wordChars s)) .callsign where
  accepts := fun _ => exists_parse_iff
  refuses := fun _ _ => error_of_parse
  toList_name := fun _ _ => toList_name_of_parse
  parse_name := fun _ _ h => parse_name h
  eq_iff := fun _ _ _ _ => eq_iff_of_parse_name fun _ _ h => parse_name h

/-- Runways and callsigns are read from the texts that are written like them and from no others, and
both are told by their names. A runway is named by its number and then its side, and no text is cut
inside of a character to read it. -/
theorem identifiers_canonical :
    CanonicalReader Runway.parse Runway.name (fun s => Runway.Written (trimChars s))
      (fun s => (trimChars s).map Char.toUpper) .runway ∧
    CanonicalReader Callsign.parse Callsign.name Callsign.Written
      (fun s => [' '].intercalate (wordChars s)) .callsign ∧
    (∀ r : Runway, r.name = r.number ++ String.ofList (r.side.map Side.letter).toList ∧
      r.chars = r.name.toList) ∧
    ∀ text, Runway.readCut? text = some ((Runway.parse text).map fun r => (r.number, r.side)) := by
  refine ⟨Runway.canonicalReader, Callsign.canonicalReader, fun r => ⟨?_, ?_⟩, Runway.readCut?_eq⟩
  · rw [Runway.name, Runway.number, Runway.chars, String.ofList_append]
  · rw [Runway.name, String.toList_ofList]

end Phraseology
