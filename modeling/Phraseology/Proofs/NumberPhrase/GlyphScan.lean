import Phraseology.Proofs.NumberPhrase.Blanks

/-! Numbers in an ideographic script are read character by character: three digits in groups, from
the left of each run, and digits behind a leading word at the first place where it has one behind
it. -/
namespace Phraseology

open Text
open Text.Cursor

section Threes

variable {α : Type}

/-- The groups of three that a list is cut into from the left. -/
def threes : List α → List (List α)
  | a :: b :: c :: rest => [a, b, c] :: threes rest
  | _ => []

theorem threes_eq_nil_iff {run : List α} : threes run = [] ↔ run.length < 3 := by
  match run with
  | [] | [_] | [_, _] => simp [threes]
  | _ :: _ :: _ :: _ => simp [threes]

theorem exists_of_mem_threes {run group : List α} (h : group ∈ threes run) :
    ∃ a b c, group = [a, b, c] ∧ a ∈ run ∧ b ∈ run ∧ c ∈ run := by
  fun_induction threes run with
  | case1 a b c rest ih =>
    rcases List.mem_cons.1 h with rfl | h
    · exact ⟨a, b, c, by simp⟩
    · obtain ⟨x, y, z, rfl, hx, hy, hz⟩ := ih h
      exact ⟨x, y, z, by simp [hx, hy, hz]⟩
  | case2 run hfew => cases h

/-- The last of all groups is the last one of the last run that has one. -/
theorem getLast?_flatMap_threes (runs : List (List α)) :
    (runs.flatMap threes).getLast? =
      (runs.filter (3 ≤ ·.length)).getLast?.bind fun run => (threes run).getLast? := by
  induction runs using List.reverseRecOn with
  | nil => rfl
  | append_singleton runs run ih =>
    rw [List.flatMap_append, List.flatMap_singleton, List.filter_append]
    by_cases hrun : 3 ≤ run.length
    · have hne : threes run ≠ [] := fun h => absurd (threes_eq_nil_iff.1 h) (by omega)
      rw [List.getLast?_append_of_ne_nil _ hne, List.filter_cons_of_pos (by simpa using hrun),
        List.filter_nil, List.getLast?_concat, Option.bind_some]
    · rw [threes_eq_nil_iff.2 (by omega), List.append_nil, ih,
        List.filter_cons_of_neg (by simpa using hrun), List.filter_nil, List.append_nil]

variable {q : α → Bool} {a b c : α} {s : List α}

/-- The groups of three of the runs of what `q` holds of. -/
def triples (q : α → Bool) (s : List α) : List (List α) := (s.splitOnP fun c => !q c).flatMap threes

theorem exists_splitOnP (q : α → Bool) (s : List α) :
    ∃ rest, s.splitOnP (fun c => !q c) = s.takeWhile q :: rest := by
  induction s with
  | nil => exact ⟨[], rfl⟩
  | cons c s ih =>
    obtain ⟨rest, hrest⟩ := ih
    rw [List.splitOnP_cons_eq_if_modifyHead, hrest]
    cases hc : q c with
    | false => exact ⟨_, by rw [List.takeWhile_cons_of_neg (by simp [hc])]; rfl⟩
    | true => exact ⟨rest, by rw [List.takeWhile_cons_of_pos hc]; rfl⟩

/-- The runs that a list is split into have nothing else in them. -/
theorem of_mem_splitOnP {run : List α} (h : run ∈ s.splitOnP fun c => !q c) (hc : c ∈ run) :
    q c = true := by
  induction s generalizing run with
  | nil =>
    obtain rfl := List.mem_singleton.1 h
    cases hc
  | cons a s ih =>
    rw [List.splitOnP_cons_eq_if_modifyHead] at h
    cases ha : q a with
    | false =>
      rw [if_pos (by simp [ha])] at h
      rcases List.mem_cons.1 h with rfl | h
      · cases hc
      · exact ih h hc
    | true =>
      obtain ⟨rest, hrest⟩ := exists_splitOnP q s
      rw [if_neg (by simp [ha]), hrest, List.modifyHead_cons] at h
      rcases List.mem_cons.1 h with rfl | h
      · rcases List.mem_cons.1 hc with rfl | hc
        · exact ha
        · exact List.mem_takeWhile_imp hc
      · exact ih (by rw [hrest]; exact List.mem_cons_of_mem _ h) hc

theorem triples_of_not (hc : q c = false) : triples q (c :: s) = triples q s := by
  simp [triples, List.splitOnP_cons_eq_if_modifyHead, hc, threes]

/-- A digit that is followed by less than two others is in no group. -/
theorem triples_of_few (hs : (s.takeWhile q).length < 2) : triples q (c :: s) = triples q s := by
  cases hc : q c with
  | false => exact triples_of_not hc
  | true =>
    obtain ⟨rest, hrest⟩ := exists_splitOnP q s
    have hnil : threes (s.takeWhile q) = [] := threes_eq_nil_iff.2 (by omega)
    have hnil' : threes (c :: s.takeWhile q) = [] :=
      threes_eq_nil_iff.2 (by rw [List.length_cons]; omega)
    simp [triples, List.splitOnP_cons_eq_if_modifyHead, hc, hrest, hnil, hnil']

theorem triples_of_three (ha : q a = true) (hb : q b = true) (hc : q c = true) :
    triples q (a :: b :: c :: s) = [a, b, c] :: triples q s := by
  obtain ⟨rest, hrest⟩ := exists_splitOnP q s
  simp [triples, List.splitOnP_cons_eq_if_modifyHead, ha, hb, hc, hrest, threes]

theorem exists_three (h : 3 ≤ (s.takeWhile q).length) :
    ∃ a b c t, s = a :: b :: c :: t ∧ q a = true ∧ q b = true ∧ q c = true := by
  obtain ⟨a, b, c, r, hr⟩ : ∃ a b c r, s.takeWhile q = a :: b :: c :: r := by
    match s.takeWhile q, h with
    | a :: b :: c :: r, _ => exact ⟨a, b, c, r, rfl⟩
  have hsplit := List.takeWhile_append_dropWhile (p := q) (l := s)
  have hall : ∀ x ∈ a :: b :: c :: r, q x = true := hr ▸ fun x => List.mem_takeWhile_imp
  rw [hr] at hsplit
  exact ⟨a, b, c, _, hsplit.symm, hall a (by simp), hall b (by simp), hall c (by simp)⟩

end Threes

namespace NumberPhrase

variable {p : NumberPhrase} {b s t : List Char} {c : Char}

def isDigitGlyph (p : NumberPhrase) (c : Char) : Bool := p.isDigitWord [c]

def digitsAhead (p : NumberPhrase) (n : Nat) (s : List Char) : List Char :=
  (s.takeWhile p.isDigitGlyph).take n

def glyphValues (p : NumberPhrase) (digits : List Char) : String :=
  String.ofList (p.values (digits.map ([·])))

/-- In a text without blanks the digits follow one another. -/
theorem Glyphic.takeDigits_eq (hp : p.Glyphic) (hs : ∀ c ∈ s, isBlank c = false) (n : Nat) :
    p.takeDigits n (glyphs s) =
        ((p.digitsAhead n s).map ([·]), glyphs (s.drop (p.digitsAhead n s).length)) := by
  induction n generalizing s with
  | zero => simp [takeDigits, digitsAhead]
  | succ n ih =>
    cases s with
    | nil => simp [takeDigits, digitsAhead, glyphs]
    | cons c s =>
      obtain ⟨-, hs⟩ := List.forall_mem_cons.1 hs
      cases hc : p.isDigitGlyph c with
      | false =>
        have hnone : ∀ d ∈ (c :: s).head?, p.isDigitWord [d] = false := by
          rintro d ⟨⟩
          exact hc
        rw [takeDigits_glyphs hnone, digitsAhead, List.takeWhile_cons_of_neg (by simp [hc])]
        rfl
      | true =>
        have hblank : (glyphs s).dropWhile Item.isBlank = glyphs s := by
          rw [← glyphs_dropWhile, dropWhile_of_not_blank]
          exact fun d hd => hs d (List.mem_of_mem_head? hd)
        have hahead : p.digitsAhead (n + 1) (c :: s) = c :: p.digitsAhead n s := by
          rw [digitsAhead, List.takeWhile_cons_of_pos hc, List.take_succ_cons, digitsAhead]
        have hword : p.isDigitWord [c] = true := hc
        rw [glyphs_word (hp.ideograph_of_digit hc).isWordChar, takeDigits, if_pos hword, hblank,
          ih hs, hahead]
        rfl

structure Triple (p : NumberPhrase) : Prop where
  leading_eq : p.leading = none
  trailing_eq : p.trailing = none
  min_eq : p.min = 3
  max_eq : p.max = 3

theorem Triple.glyphsAt?_of_few (htriple : p.Triple) (hp : p.Glyphic)
    (hs : ∀ c ∈ s, isBlank c = false) (hfew : (s.takeWhile p.isDigitGlyph).length < 3) :
    p.glyphsAt? s = none := by
  have hahead : p.digitsAhead 3 s = s.takeWhile p.isDigitGlyph := List.take_of_length_le (by omega)
  rw [glyphsAt?_of_none htriple.leading_eq]
  simp [foundBehind?, hp.takeDigits_eq hs, htriple.max_eq, htriple.min_eq, hahead, hfew]

theorem Triple.glyphsAt?_of_three (htriple : p.Triple) (hp : p.Glyphic) {x y z : Char}
    (hs : ∀ c ∈ x :: y :: z :: s, isBlank c = false) (hx : p.isDigitGlyph x = true)
    (hy : p.isDigitGlyph y = true) (hz : p.isDigitGlyph z = true) :
    p.glyphsAt? (x :: y :: z :: s) = some ⟨none, [[x], [y], [z]], none, glyphs s⟩ := by
  have hahead : p.digitsAhead 3 (x :: y :: z :: s) = [x, y, z] := by
    simp [digitsAhead, hx, hy, hz]
  rw [glyphsAt?_of_none htriple.leading_eq]
  simp [foundBehind?, takeTrailing, hp.takeDigits_eq hs, htriple.max_eq, htriple.min_eq,
    htriple.trailing_eq, hahead]

def saidOf (p : NumberPhrase) (group : List Char) : Option String × String × Option String :=
  (none, p.glyphValues group, none)

/-- Three digits are found group by group. -/
theorem Triple.saidFrom_eq (htriple : p.Triple) (hp : p.Glyphic)
    (hs : ∀ c ∈ s, isBlank c = false) (b : List Char) :
    p.saidFrom (place b s) = (triples p.isDigitGlyph s).map p.saidOf := by
  induction hn : s.length using Nat.strong_induction_on generalizing s b with
  | _ n ih =>
    subst hn
    by_cases hfew : (s.takeWhile p.isDigitGlyph).length < 3
    · cases s with
      | nil => simp [hp.saidFrom_nil, triples, threes]
      | cons c s =>
        rw [hp.saidFrom_of_none (htriple.glyphsAt?_of_few hp hs hfew),
          ih _ (by simp) (List.forall_mem_cons.1 hs).2 _ rfl]
        cases hc : p.isDigitGlyph c with
        | false => rw [triples_of_not hc]
        | true =>
          rw [List.takeWhile_cons_of_pos hc, List.length_cons] at hfew
          rw [triples_of_few (by omega)]
    · obtain ⟨x, y, z, s, rfl, hx, hy, hz⟩ := exists_three (not_lt.1 hfew)
      obtain ⟨u, t, -, -, hrest, hsaid⟩ :=
        hp.saidFrom_of_some (htriple.glyphsAt?_of_three hp hs hx hy hz) b
      obtain rfl : s = t := glyphs_injective hrest
      have hs : ∀ c ∈ s, isBlank c = false := fun c hc => hs c (by simp [hc])
      have hlt : s.length < (x :: y :: z :: s).length := by
        simp only [List.length_cons]
        omega
      rw [hsaid, behind, ih _ hlt hs _ rfl, triples_of_three hx hy hz]
      simp only [Found.match?, htriple.trailing_eq]
      rfl

def Found.said? (p : NumberPhrase) (f : Found) : Option (Option String × String × Option String) :=
  (f.match? p 0 0).map Match.said

def codeBehind? (p : NumberPhrase) (t : List Char) : Option String :=
  codeOf? p.trailing (p.takeTrailing (glyphs t)).1

/-- What is said of the number that a text begins with, blanks apart, behind a leading word of that
code. -/
def saidBehind? (p : NumberPhrase) (code : String) (t : List Char) :
    Option (Option String × String × Option String) :=
  let solid := t.filter (!isBlank ·)
  let digits := p.digitsAhead p.max solid
  if digits = [] then none
  else some (some code, p.glyphValues digits, p.codeBehind? (solid.drop digits.length))

/-- Only one leading word is looked for, and a single digit behind it is enough. -/
structure Led (p : NumberPhrase) (word : List Char) (code : String) : Prop where
  leading : ∃ x : Spelling, p.leading = some [x] ∧ x.spoken.toList = word
  code_eq : codeOf? p.leading (some word) = some code
  min_eq : p.min = 1

variable {word : List Char} {code : String}

theorem Led.said?_foundBehind? (hled : p.Led word code) (hp : p.Glyphic) (t : List Char) :
    (p.foundBehind? (some word) (glyphs (t.dropWhile isBlank))).bind (Found.said? p) =
      p.saidBehind? code t := by
  have hsolid : ∀ c ∈ t.filter (!isBlank ·), isBlank c = false := fun c hc => by
    simpa using (List.mem_filter.1 hc).2
  have hbegun : Begun (glyphs (t.dropWhile isBlank)) := by
    rw [glyphs_dropWhile]
    exact begun_dropWhile _
  -- Without the blanks only what is left of the text is another.
  have hfilter := hbegun.foundBehind?_filter (p := p) (some word)
  rw [glyphs_dropWhile, filter_dropWhile, ← glyphs_filter, ← glyphs_dropWhile] at hfilter
  have hsame : (p.foundBehind? (some word) (glyphs (t.dropWhile isBlank))).bind (Found.said? p) =
      (p.foundBehind? (some word) (glyphs (t.filter (!isBlank ·)))).bind (Found.said? p) := by
    rw [hfilter, Option.bind_map]
    rfl
  rw [hsame, saidBehind?]
  simp only [foundBehind?, hp.takeDigits_eq hsolid, hled.min_eq]
  by_cases hnil : p.digitsAhead p.max (t.filter (!isBlank ·)) = []
  · simp [hnil]
  · have hsome : ¬ ((p.digitsAhead p.max (t.filter (!isBlank ·))).map ([·]) = [] ∨
        ((p.digitsAhead p.max (t.filter (!isBlank ·))).map ([·])).length < 1) := by
      simpa using hnil
    rw [if_neg hsome, if_neg hnil, Option.bind_some, Found.said?, Found.match?]
    simp only [hled.code_eq]
    rfl

theorem Led.exists_said? (hled : p.Led word code) {f : Found} (h : p.glyphsAt? s = some f) :
    ∃ said, f.said? p = some said := by
  obtain ⟨x, hleading, rfl⟩ := hled.leading
  rw [glyphsAt?_of_single hleading] at h
  obtain ⟨t, -, hf⟩ := Option.bind_eq_some_iff.1 h
  simp only [foundBehind?] at hf
  split_ifs at hf
  obtain rfl := Option.some.inj hf
  rw [Found.said?, Found.match?]
  simp only [hled.code_eq]
  exact ⟨_, rfl⟩

/-- The first number is the one behind the first leading word that has a digit behind it. -/
theorem Led.head?_saidFrom (hled : p.Led word code) (hp : p.Glyphic) (s b : List Char) :
    (p.saidFrom (place b s)).head? =
      s.tails.findSome? fun v => (word.isPrefixOf? v).bind (p.saidBehind? code) := by
  have hfound (v : List Char) : (p.glyphsAt? v).bind (Found.said? p) =
      (word.isPrefixOf? v).bind (p.saidBehind? code) := by
    obtain ⟨x, hleading, rfl⟩ := hled.leading
    rw [glyphsAt?_of_single hleading, Option.bind_assoc]
    simp only [hled.said?_foundBehind? hp]
  have hnone {v : List Char} (h : p.glyphsAt? v = none) :
      (word.isPrefixOf? v).bind (p.saidBehind? code) = none := by
    rw [← hfound, h, Option.bind_none]
  induction s generalizing b with
  | nil =>
    rw [hp.saidFrom_nil, List.tails, List.findSome?_singleton, hnone hp.glyphsAt?_nil]
    rfl
  | cons c s ih =>
    rw [List.tails_cons, List.findSome?_cons]
    cases hf : p.glyphsAt? (c :: s) with
    | none => rw [hp.saidFrom_of_none hf, ih, hnone hf]
    | some f =>
      obtain ⟨said, hsaid⟩ := hled.exists_said? hf
      obtain ⟨u, t, -, -, -, hfrom⟩ := hp.saidFrom_of_some hf b
      rw [hfrom, ← hfound, hf, Option.bind_some, hsaid]
      rw [Found.said?] at hsaid
      rw [hsaid]
      rfl

end NumberPhrase

end Phraseology
