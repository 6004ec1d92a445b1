import Phraseology.Proofs.NumberPhrase.Count

/-! In words of ASCII letters with single spaces between them, numbers are found by looking at one
word after another. -/
namespace Phraseology.NumberPhrase

open Text

structure Reading where
  leading : Option String
  digits : List String
  trailing : Option String

namespace Reading

def words (r : Reading) : List String := r.leading.toList ++ r.digits ++ r.trailing.toList

end Reading

def hasValue (p : NumberPhrase) (w : String) : Bool := (p.digitValue? w.toList).isSome

/-- The leading word, if one is asked for, and the words behind it. -/
def readLeading? (p : NumberPhrase) (ws : List String) : Option (Option String × List String) :=
  match p.leading, ws with
  | none, ws => some (none, ws)
  | some spellings, w :: ws =>
    if (Spelling.codeFor? spellings w).isSome then some (some w, ws) else none
  | some _, [] => none

/-- The number that begins behind the leading word. Of the digit words that follow one another as
many are taken as there may be, and any word behind them is the trailing one, if one is asked
for. -/
def readBehind? (p : NumberPhrase) (leading : Option String) (ws : List String) : Option Reading :=
  let run := ws.takeWhile p.hasValue
  let digits := run.take p.max
  if run.length < p.min then none
  else some ⟨leading, digits, if p.trailing.isSome then (ws.drop digits.length).head? else none⟩

def read? (p : NumberPhrase) (ws : List String) : Option Reading :=
  (p.readLeading? ws).bind fun q => p.readBehind? q.1 q.2

def width (ws : List String) : Nat := (ws.map fun w => byteCount w.toList + 1).sum

/-- The words of a number looked up. The space behind the digits belongs to it, unlike the one
behind a trailing word. -/
def Reading.found (p : NumberPhrase) (r : Reading) (start : Nat) (rest : List String) : Match where
  leading := do Spelling.codeFor? (← p.leading) (← r.leading)
  digits := String.ofList (r.digits.filterMap fun w => (p.digitValue? w.toList).map numeral)
  trailing := do Spelling.codeFor? (← p.trailing) (← r.trailing)
  start := start
  stop :=
    if r.trailing.isNone && !rest.isEmpty then start + width r.words
    else start + width r.words - 1

def scanWords (p : NumberPhrase) (n : Nat) : List String → List Match
  | [] => []
  | w :: ws =>
    match p.read? (w :: ws) with
    | some r =>
      let rest := ws.drop (r.words.length - 1)
      r.found p n rest :: p.scanWords (n + width r.words) rest
    | none => p.scanWords (n + width [w]) ws
termination_by ws => ws.length
decreasing_by
  · have := List.length_drop (i := r.words.length - 1) (l := ws)
    simp only [List.length_cons]
    omega
  · exact Nat.lt_succ_self _

variable {p : NumberPhrase} {ws : List String} {w : String}

def joinedItems (ws : List String) : List Item := (spacedItems ws).tail

theorem spacedItems_letterWord (hw : LetterWord w) (ws : List String) :
    spacedItems (w :: ws) = .other ' ' :: .run w.toList :: spacedItems ws := by
  rw [spacedItems_cons, items_plain hw.plain, List.singleton_append]

theorem joinedItems_cons (hw : LetterWord w) (ws : List String) :
    joinedItems (w :: ws) = .run w.toList :: spacedItems ws := by
  rw [joinedItems, spacedItems_letterWord hw, List.tail_cons]

theorem items_intercalate (ws : List String) :
    items (" ".intercalate ws).toList = joinedItems ws := by
  cases ws with
  | nil => rfl
  | cons w ws => rw [joinedItems, ← items_join (by simp), List.tail_cons]

theorem dropWhile_spacedItems (h : ∀ w ∈ ws, LetterWord w) :
    (spacedItems ws).dropWhile Item.isBlank = joinedItems ws := by
  cases ws with
  | nil => rfl
  | cons w ws =>
    have hw := h w (by simp)
    rw [joinedItems_cons hw, spacedItems_letterWord hw, List.dropWhile_cons_of_pos (by decide)]
    rfl

theorem size_spacedItems (h : ∀ w ∈ ws, LetterWord w) : Item.size (spacedItems ws) = width ws := by
  induction ws with
  | nil => rfl
  | cons w ws ih =>
    obtain ⟨hw, hws⟩ := List.forall_mem_cons.1 h
    have hspace : ' '.utf8Size = 1 := by decide
    rw [spacedItems_letterWord hw, Item.size_other, Item.size_run, ih hws, width, width,
      List.map_cons, List.sum_cons]
    omega

theorem size_joinedItems (h : ∀ w ∈ ws, LetterWord w) :
    Item.size (joinedItems ws) = width ws - 1 := by
  have hsize := size_spacedItems h
  cases ws with
  | nil => rfl
  | cons w ws =>
    have hw := h w (by simp)
    have hspace : ' '.utf8Size = 1 := by decide
    rw [spacedItems_letterWord hw, Item.size_other, Item.size_run] at hsize
    rw [joinedItems_cons hw, Item.size_run]
    omega

theorem width_append (us ws : List String) : width (us ++ ws) = width us + width ws := by
  simp [width]

theorem scan_spacedItems (h : ∀ w ∈ ws, LetterWord w) (n : Nat) :
    p.scan n (spacedItems ws) = p.scan (n + 1) (joinedItems ws) := by
  cases ws with
  | nil => simp [spacedItems, joinedItems, scan]
  | cons w ws =>
    have hw := h w (by simp)
    rw [joinedItems_cons hw, spacedItems_letterWord hw, scan_of_none n (foundAt?_other ' ' _)]
    rfl

structure Lettered (p : NumberPhrase) : Prop where
  digits : ∀ d ∈ p.digits, LetterWord d.word
  leading : ∀ spellings ∈ p.leading, ∀ s ∈ spellings, LetterWord s.spoken

theorem Lettered.isDigitWord_eq (hp : p.Lettered) (hw : LetterWord w) :
    p.isDigitWord w.toList = p.hasValue w := by
  rw [Bool.eq_iff_iff, isDigitWord_eq_true_iff, hasValue, digitValue?, Option.isSome_map,
    List.find?_isSome]
  refine exists_congr fun d => and_congr_right fun hd => ?_
  rw [(hp.digits d hd).alike_iff hw, beq_iff_eq]

theorem isSome_codeFor?_iff {spellings : List Spelling} :
    (Spelling.codeFor? spellings w).isSome = true ↔
      ∃ s ∈ spellings, lowerChars s.spoken.toList = lowerChars w.toList := by
  simp only [Spelling.codeFor?, Option.isSome_map, List.find?_isSome, lowercase, beq_iff_eq,
    String.ofList_inj]

def Reading.itemsBehind (r : Reading) (rest : List String) : List Item :=
  if r.trailing.isSome then spacedItems rest else joinedItems rest

def Reading.toFound (r : Reading) (rest : List String) : Found where
  leading := r.leading.map String.toList
  digits := r.digits.map String.toList
  trailing := r.trailing.map String.toList
  rest := r.itemsBehind rest

theorem Lettered.takeLeading?_eq (hp : p.Lettered) (hws : ∀ w ∈ ws, LetterWord w) :
    p.takeLeading? (joinedItems ws) =
      (p.readLeading? ws).map fun q => (q.1.map String.toList, joinedItems q.2) := by
  unfold readLeading?
  cases hleading : p.leading with
  | none => rw [takeLeading?_of_none hleading]; rfl
  | some spellings =>
    cases ws with
    | nil => rw [takeLeading?_eq_none hleading (by rintro r ⟨⟩)]; rfl
    | cons w ws =>
      obtain ⟨hw, hws⟩ := List.forall_mem_cons.1 hws
      have hmet : (∃ s ∈ spellings, Alike s.spoken.toList w.toList) ↔
          (Spelling.codeFor? spellings w).isSome = true := by
        rw [isSome_codeFor?_iff]
        refine exists_congr fun s => and_congr_right fun hs => ?_
        exact (hp.leading spellings hleading s hs).alike_iff hw
      rw [joinedItems_cons hw]
      by_cases h : (Spelling.codeFor? spellings w).isSome = true
      · rw [takeLeading?_run hleading (hmet.2 h), dropWhile_spacedItems hws]
        simp [h]
      · have hnot := mt hmet.1 h
        rw [takeLeading?_eq_none hleading (by rintro r ⟨⟩; simpa using hnot)]
        simp [h]

theorem Lettered.takeDigits_eq (hp : p.Lettered) (hws : ∀ w ∈ ws, LetterWord w) (n : Nat) :
    p.takeDigits n (joinedItems ws) =
      (((ws.takeWhile p.hasValue).take n).map String.toList,
        joinedItems (ws.drop ((ws.takeWhile p.hasValue).take n).length)) := by
  induction n generalizing ws with
  | zero => simp [takeDigits]
  | succ n ih =>
    cases ws with
    | nil => rfl
    | cons w ws =>
      obtain ⟨hw, hws⟩ := List.forall_mem_cons.1 hws
      rw [joinedItems_cons hw, takeDigits, hp.isDigitWord_eq hw, dropWhile_spacedItems hws, ih hws]
      by_cases h : p.hasValue w = true
      · rw [if_pos h, List.takeWhile_cons_of_pos h]
        rfl
      · rw [if_neg h, List.takeWhile_cons_of_neg h, List.take_nil, List.length_nil, List.drop_zero,
          joinedItems_cons hw]
        rfl

theorem takeTrailing_eq (hws : ∀ w ∈ ws, LetterWord w) :
    p.takeTrailing (joinedItems ws) =
      if p.trailing.isSome then (ws.head?.map String.toList, spacedItems ws.tail)
      else (none, joinedItems ws) := by
  cases htrailing : p.trailing with
  | none => simp [takeTrailing, htrailing]
  | some spellings =>
    cases ws with
    | nil => simp [takeTrailing, joinedItems, spacedItems]
    | cons w ws =>
      rw [joinedItems_cons (hws w (by simp)), takeTrailing_run htrailing]
      rfl

theorem eq_append_of_readLeading? {leading : Option String} {run : List String}
    (h : p.readLeading? ws = some (leading, run)) : ws = leading.toList ++ run := by
  unfold readLeading? at h
  split at h
  · obtain ⟨rfl, rfl⟩ := Prod.mk.inj (Option.some.inj h)
    rfl
  · split_ifs at h
    obtain ⟨rfl, rfl⟩ := Prod.mk.inj (Option.some.inj h)
    rfl
  · cases h

/-- The digit words that are taken are too few just when all that follow one another are. -/
theorem take_length_lt_iff {run : List String} (hmin : 1 ≤ p.min) (hle : p.min ≤ p.max) :
    ((run.take p.max).map String.toList = [] ∨
        ((run.take p.max).map String.toList).length < p.min) ↔ run.length < p.min := by
  rw [List.length_map, List.length_take, List.map_eq_nil_iff, ← List.length_eq_zero_iff,
    List.length_take]
  omega

theorem drop_words (leading : Option String) (digits : List String) (trailing : Option String)
    (ws : List String) :
    (leading.toList ++ ws).drop (Reading.words ⟨leading, digits, trailing⟩).length =
      (ws.drop digits.length).drop trailing.toList.length := by
  simp only [Reading.words, List.length_append, Nat.add_assoc, List.drop_drop,
    List.drop_length_add_append]

theorem Lettered.foundBehind?_eq (hp : p.Lettered) (hmin : 1 ≤ p.min) (hle : p.min ≤ p.max)
    (hws : ∀ w ∈ ws, LetterWord w) (leading : Option String) :
    p.foundBehind? (leading.map String.toList) (joinedItems ws) =
      (p.readBehind? leading ws).map fun r =>
        r.toFound ((leading.toList ++ ws).drop r.words.length) := by
  have hrest (n : Nat) : ∀ w ∈ ws.drop n, LetterWord w := fun w hw =>
    hws w (List.mem_of_mem_drop hw)
  simp only [foundBehind?, readBehind?, hp.takeDigits_eq hws, take_length_lt_iff hmin hle,
    takeTrailing_eq (hrest _)]
  split_ifs with hfew htrailing
  · rfl
  · simp only [Option.map_some, drop_words, Reading.toFound, Reading.itemsBehind]
    cases ws.drop ((ws.takeWhile p.hasValue).take p.max).length <;> rfl
  · simp only [Option.map_some, drop_words, Reading.toFound, Reading.itemsBehind]
    rfl

/-- The items of words begin with a number just when the words do. -/
theorem Lettered.foundAt?_eq (hp : p.Lettered) (hmin : 1 ≤ p.min) (hle : p.min ≤ p.max)
    (hws : ∀ w ∈ ws, LetterWord w) :
    p.foundAt? (joinedItems ws) =
      (p.read? ws).map fun r => r.toFound (ws.drop r.words.length) := by
  rw [NumberPhrase.foundAt?_eq, hp.takeLeading?_eq hws, read?]
  cases hleading : p.readLeading? ws with
  | none => rfl
  | some q =>
    obtain ⟨leading, run⟩ := q
    obtain rfl := eq_append_of_readLeading? hleading
    have hrun : ∀ w ∈ run, LetterWord w := fun w hw => hws w (List.mem_append_right _ hw)
    exact hp.foundBehind?_eq hmin hle hrun leading

variable {r : Reading} {rest : List String}

theorem eq_of_readBehind? {leading : Option String} (hmin : 1 ≤ p.min) (hle : p.min ≤ p.max)
    (h : p.readBehind? leading ws = some r) :
    ∃ digits behind, ws = digits ++ behind ∧ digits ≠ [] ∧
      r = ⟨leading, digits, if p.trailing.isSome then behind.head? else none⟩ := by
  simp only [readBehind?] at h
  rw [ite_eq_iff] at h
  obtain ⟨-, h⟩ | ⟨hmany, h⟩ := h
  · cases h
  have hprefix : (ws.takeWhile p.hasValue).take p.max <+: ws :=
    (List.take_prefix _ _).trans (List.takeWhile_prefix _)
  have hpos : 0 < ((ws.takeWhile p.hasValue).take p.max).length := by
    rw [List.length_take]
    omega
  generalize (ws.takeWhile p.hasValue).take p.max = digits at h hprefix hpos
  obtain ⟨behind, rfl⟩ := hprefix
  rw [List.drop_left] at h
  exact ⟨digits, behind, rfl, List.ne_nil_of_length_pos hpos, (Option.some.inj h).symm⟩

/-- A number is made of the words that come first, and of at least one. -/
theorem eq_append_of_read? (hmin : 1 ≤ p.min) (hle : p.min ≤ p.max) (h : p.read? ws = some r) :
    r.words ≠ [] ∧ ∃ rest, ws = r.words ++ rest := by
  obtain ⟨⟨leading, run⟩, hleading, hbehind⟩ := Option.bind_eq_some_iff.1 h
  obtain rfl := eq_append_of_readLeading? hleading
  obtain ⟨digits, behind, rfl, hne, rfl⟩ := eq_of_readBehind? hmin hle hbehind
  refine ⟨by simp [Reading.words, hne], ?_⟩
  split_ifs
  · refine ⟨behind.tail, ?_⟩
    cases behind <;> simp [Reading.words]
  · exact ⟨behind, by simp [Reading.words]⟩

/-- A leading word that is met has a code. -/
theorem codeOf?_of_readLeading? {leading : Option String} {run : List String}
    (h : p.readLeading? ws = some (leading, run)) (hw : w ∈ leading) :
    ∃ code, codeOf? p.leading (some w.toList) = some code := by
  unfold readLeading? at h
  split at h
  · obtain ⟨rfl, -⟩ := Prod.mk.inj (Option.some.inj h)
    cases hw
  · rename_i spellings _ _ hleading
    split_ifs at h with hcode
    obtain ⟨rfl, -⟩ := Prod.mk.inj (Option.some.inj h)
    obtain rfl := Option.some.inj hw
    rw [hleading, codeOf?_some, String.ofList_toList]
    exact Option.isSome_iff_exists.1 hcode
  · cases h

theorem codeOf?_map_toList (spellings : Option (List Spelling)) (word : Option String) :
    codeOf? spellings (word.map String.toList) =
      spellings.bind fun s => word.bind fun w => Spelling.codeFor? s w := by
  cases spellings with
  | none => rfl
  | some s =>
    cases word with
    | none => rfl
    | some w => rw [Option.map_some, codeOf?_some, String.ofList_toList]; rfl

theorem match?_toFound (hmin : 1 ≤ p.min) (hle : p.min ≤ p.max) (h : p.read? ws = some r)
    (rest : List String) (start stop : Nat) :
    (r.toFound rest).match? p start stop = some { r.found p start rest with stop := stop } := by
  obtain ⟨⟨leading, run⟩, hleading, hbehind⟩ := Option.bind_eq_some_iff.1 h
  obtain ⟨digits, behind, -, -, rfl⟩ := eq_of_readBehind? hmin hle hbehind
  have hvalues : p.values (digits.map String.toList) =
      digits.filterMap fun w => (p.digitValue? w.toList).map numeral := List.filterMap_map
  unfold Found.match? Reading.found Reading.toFound
  simp only [hvalues, codeOf?_map_toList, Option.bind_eq_bind]
  cases leading with
  | none => cases p.leading <;> rfl
  | some w =>
    obtain ⟨code, hcode⟩ := codeOf?_of_readLeading? hleading rfl
    have hsame := codeOf?_map_toList p.leading (some w)
    rw [Option.map_some, hcode] at hsame
    simp only [Option.map_some, hcode, ← hsame]

theorem width_pos (h : ws ≠ []) : 0 < width ws := by
  obtain ⟨w, ws, rfl⟩ := List.exists_cons_of_ne_nil h
  rw [width, List.map_cons, List.sum_cons]
  omega

theorem stop_found (hr : r.words ≠ []) (h : ∀ w ∈ r.words ++ rest, LetterWord w) (n : Nat) :
    (r.found p n rest).stop =
      n + (Item.size (joinedItems (r.words ++ rest)) - Item.size (r.itemsBehind rest)) := by
  have hrest : ∀ w ∈ rest, LetterWord w := fun w hw => h w (List.mem_append_right _ hw)
  have hpos := width_pos hr
  rw [size_joinedItems h, width_append, Reading.itemsBehind, Reading.found]
  cases htrailing : r.trailing with
  | some t =>
    simp only [Option.isSome_some, Option.isNone_some, Bool.false_and, Bool.false_eq_true, if_true,
      if_false, size_spacedItems hrest]
    omega
  | none =>
    simp only [Option.isSome_none, Option.isNone_none, Bool.true_and, Bool.false_eq_true, if_false,
      size_joinedItems hrest]
    cases rest with
    | nil =>
      have hnil : width [] = 0 := rfl
      simp only [List.isEmpty_nil, Bool.not_true, Bool.false_eq_true, if_false, hnil]
      omega
    | cons w ws =>
      have := width_pos (List.cons_ne_nil w ws)
      simp only [List.isEmpty_cons, Bool.not_false, if_true]
      omega

/-- Behind a number the scan goes on with the word that comes next. -/
theorem scan_itemsBehind (hr : r.words ≠ []) (h : ∀ w ∈ rest, LetterWord w) (n : Nat) :
    p.scan (r.found p n rest).stop (r.itemsBehind rest) =
      p.scan (n + width r.words) (joinedItems rest) := by
  have hpos := width_pos hr
  rw [Reading.found, Reading.itemsBehind]
  cases r.trailing with
  | some t =>
    have hstop : n + width r.words - 1 + 1 = n + width r.words := by omega
    exact (scan_spacedItems h (n + width r.words - 1)).trans (by rw [hstop])
  | none =>
    cases rest with
    | nil => simp [joinedItems, spacedItems, scan]
    | cons w ws => rfl

/-- The scan over the items of words finds the numbers of the words. -/
theorem Lettered.scan_joinedItems (hp : p.Lettered) (hmin : 1 ≤ p.min) (hle : p.min ≤ p.max)
    (hws : ∀ w ∈ ws, LetterWord w) (n : Nat) : p.scan n (joinedItems ws) = p.scanWords n ws := by
  induction hl : ws.length using Nat.strong_induction_on generalizing ws n with
  | _ l ih =>
    subst hl
    cases ws with
    | nil => simp [joinedItems, spacedItems, scan, scanWords]
    | cons w ws =>
      have hfound := hp.foundAt?_eq hmin hle hws
      rw [scanWords]
      cases hread : p.read? (w :: ws) with
      | none =>
        obtain ⟨hw, hws⟩ := List.forall_mem_cons.1 hws
        rw [hread, Option.map_none, joinedItems_cons hw] at hfound
        have hwidth : n + Item.size [.run w.toList] + 1 = n + width [w] := by
          simp [width, Nat.add_assoc]
        rw [joinedItems_cons hw, scan_of_none n hfound, scan_spacedItems hws, hwidth]
        exact ih _ (by simp) hws _ rfl
      | some r =>
        obtain ⟨hr, rest, hrest⟩ := eq_append_of_read? hmin hle hread
        obtain ⟨v, us, hus⟩ := List.exists_cons_of_ne_nil hr
        have hdrop : ws.drop (r.words.length - 1) = rest := by
          rw [hus, List.cons_append] at hrest
          rw [(List.cons.inj hrest).2, hus, List.length_cons, Nat.add_sub_cancel, List.drop_left]
        rw [hrest] at hws hread hfound
        have hlater : ∀ w ∈ rest, LetterWord w := fun w hw => hws w (List.mem_append_right _ hw)
        have hshorter : rest.length < (w :: ws).length := by
          rw [← hdrop, List.length_drop, List.length_cons]
          omega
        rw [hread, Option.map_some, List.drop_left] at hfound
        calc p.scan n (joinedItems (w :: ws))
            = ((r.toFound rest).match? p n (r.found p n rest).stop).toList ++
                p.scan (r.found p n rest).stop (r.itemsBehind rest) := by
              rw [hrest, scan_of_some n hfound, stop_found hr hws n]
              rfl
          _ = r.found p n rest :: p.scanWords (n + width r.words) rest := by
              rw [match?_toFound hmin hle hread, scan_itemsBehind hr hlater,
                ih _ hshorter hlater _ rfl]
              rfl
          _ = _ := by simp only [hdrop]

variable {l : Lexicon} {leading trailing : Option (List Spelling)} {min max : Nat}

/-- Where the digit words and the leading words are of ASCII letters, so that a phrase is made
unless it is too large, the numbers in words of ASCII letters are those that the scan over the words
finds. -/
theorem find_eq_scanWords (hl : l.validate = .ok ()) (hscript : l.script = .spaced)
    (hdigits : ∀ d ∈ l.digits, LetterWord d.word)
    (hleading : ∀ spellings ∈ leading, ∀ s ∈ spellings, LetterWord s.spoken)
    (hmin : 1 ≤ min) (hle : min ≤ max) :
    ((∃ p, make l leading min max trailing = .ok p) ↔
      Fits ⟨l.script, l.digits, leading, min, max, trailing⟩) ∧
    ∀ p, make l leading min max trailing = .ok p →
      ∀ ws : List String, (∀ w ∈ ws, LetterWord w) →
        p.find (" ".intercalate ws).toList = p.scanWords 0 ws := by
  refine ⟨⟨?_, fun h => ⟨_, (make_eq_ok_iff hle).2 ⟨rfl, h⟩⟩⟩, fun p hp ws hws => ?_⟩
  · rintro ⟨p, hp⟩
    obtain ⟨rfl, hfits⟩ := (make_eq_ok_iff hle).1 hp
    exact hfits
  · obtain ⟨rfl, -⟩ := (make_eq_ok_iff hle).1 hp
    have hlettered : Lettered ⟨l.script, l.digits, leading, min, max, trailing⟩ :=
      ⟨hdigits, hleading⟩
    have hplain : Plain ⟨l.script, l.digits, leading, min, max, trailing⟩ :=
      ⟨hscript, (l.digits_of_validate hl).1, fun d hd => (hdigits d hd).plain,
        fun spellings hs s hx => (hleading spellings hs s hx).plain, hmin, hle⟩
    rw [find_eq_scan hplain, items_intercalate, hlettered.scan_joinedItems hmin hle hws]

/-- A runway with its side, and one whose digits stop at a word that is no side. -/
theorem find_eq_scanWords_english :
    ∃ p, make .english (some [⟨"Runway", ""⟩]) 1 2 (some Lexicon.english.directions) = .ok p ∧
      p.find "runway two niner RIGHT Runway one then".toList =
        [⟨some "", "29", some "R", 0, 22⟩, ⟨some "", "1", none, 23, 38⟩] := by
  have hmake : make .english (some [⟨"Runway", ""⟩]) 1 2 (some Lexicon.english.directions) =
      .ok ⟨.spaced, Lexicon.english.digits, some [⟨"Runway", ""⟩], 1, 2,
        some Lexicon.english.directions⟩ :=
    make_eq_ok (by decide) (by decide) (by decide +kernel) (by decide +kernel)
  have hdigits : ∀ d ∈ Lexicon.english.digits, LetterWord d.word := by decide +kernel
  have hleading : ∀ spellings ∈ some [(⟨"Runway", ""⟩ : Spelling)],
      ∀ s ∈ spellings, LetterWord s.spoken := by decide +kernel
  have hscan := (find_eq_scanWords rfl rfl hdigits hleading (by decide) (by decide)).2 _ hmake
    ["runway", "two", "niner", "RIGHT", "Runway", "one", "then"] (by decide +kernel)
  refine ⟨_, hmake, Eq.trans hscan ?_⟩
  decide +kernel

end Phraseology.NumberPhrase
