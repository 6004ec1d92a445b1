import Phraseology.Proofs.NumberPhrase.Count
import Phraseology.Proofs.Shorthand.Tokens

/-! In words of ASCII letters with single spaces between them, what is shown is found by reading one
word after another. -/
namespace Phraseology.Shorthand

open Text

/-- The value of the first digit word that is the word, up to the case of ASCII letters. -/
def valueOf? (s : Shorthand) (w : String) : Option Nat :=
  (s.lexicon.digits.find? fun d => sameIgnoringAsciiCase d.word w).map DigitWord.value

/-- The code of the first direction word that is the word, up to the case of ASCII letters. -/
def sideOf? (s : Shorthand) (w : String) : Option String :=
  (s.lexicon.directions.find? fun x => sameIgnoringAsciiCase x.spoken w).map Spelling.code

def hasValue (s : Shorthand) (w : String) : Bool := (s.valueOf? w).isSome

def number (s : Shorthand) (run : List String) : String :=
  String.ofList ((run.filterMap s.valueOf?).flatMap (Nat.toDigits 10))

/-- What is shown for words: of digit words that follow one another their number, with the code of a
direction word right behind them; of any other word the code of the airline, or the word itself. -/
def shown (s : Shorthand) : List String → List String
  | [] => []
  | w :: ws =>
    if s.hasValue w then
      let number := s.number (w :: ws.takeWhile s.hasValue)
      match _h : ws.dropWhile s.hasValue with
      | [] => [number]
      | v :: rest =>
        match s.sideOf? v with
        | some code => (number ++ code) :: s.shown rest
        | none => number :: s.shorten v :: s.shown rest
    else s.shorten w :: s.shown ws
termination_by ws => ws.length
decreasing_by
  all_goals
    have := (List.dropWhile_sublist (l := ws) s.hasValue).length_le
    simp_all
    try omega

variable {s : Shorthand} {w : String} {ws run rest : List String} {pending : List Char}

/-- What is shown for words of which the first has a value. -/
theorem shown_of_value (h : s.hasValue w = true) :
    s.shown (w :: ws) =
      match ws.dropWhile s.hasValue with
      | [] => [s.number (w :: ws.takeWhile s.hasValue)]
      | v :: rest =>
        match s.sideOf? v with
        | some code => (s.number (w :: ws.takeWhile s.hasValue) ++ code) :: s.shown rest
        | none => s.number (w :: ws.takeWhile s.hasValue) :: s.shorten v :: s.shown rest := by
  rw [shown, if_pos h]
  cases ws.dropWhile s.hasValue <;> rfl

/-- Digits and directions are spelled with ASCII letters, and the digits are those of the decimal
system. -/
structure Lettered (s : Shorthand) : Prop where
  digits : ∀ d ∈ s.lexicon.digits, LetterWord d.word
  values : ∀ d ∈ s.lexicon.digits, d.value ≤ 9
  directions : ∀ x ∈ s.lexicon.directions, LetterWord x.spoken

theorem Lettered.digitValue?_eq (hs : s.Lettered) (hw : LetterWord w) :
    s.lexicon.digitValue? w = s.valueOf? w := by
  rw [Lexicon.digitValue?, valueOf?]
  exact congrArg _ (List.find?_congr fun d hd => (hs.digits d hd).lowercase_eq hw)

theorem Lettered.directionCode?_eq (hs : s.Lettered) (hw : LetterWord w) :
    s.lexicon.directionCode? w = s.sideOf? w := by
  rw [Lexicon.directionCode?, Spelling.codeFor?, sideOf?]
  exact congrArg _ (List.find?_congr fun x hx => (hs.directions x hx).lowercase_eq hw)

theorem Lettered.le_of_valueOf? (hs : s.Lettered) {v : Nat} (h : s.valueOf? w = some v) :
    v ≤ 9 := by
  obtain ⟨d, hd, rfl⟩ := Option.map_eq_some_iff.1 h
  exact hs.values d (List.mem_of_find?_eq_some hd)

/-- A value below ten has a single decimal digit. -/
theorem toDigits_eq_numeral {v : Nat} (h : v ≤ 9) : Nat.toDigits 10 v = [numeral v] := by
  have hall : ∀ v ≤ 9, Nat.toDigits 10 v = [numeral v] := by decide
  exact hall v h

theorem Lettered.number_eq (hs : s.Lettered) (run : List String) :
    s.number run = String.ofList ((run.filterMap s.valueOf?).map numeral) := by
  rw [number, List.map_eq_flatMap]
  refine congrArg _ (List.flatMap_congr fun v hv => ?_)
  obtain ⟨w, -, hw⟩ := List.mem_filterMap.1 hv
  exact toDigits_eq_numeral (hs.le_of_valueOf? hw)

/-- Digit words wait until what comes behind them is known. -/
theorem piecesAfter_values {values : List Nat}
    (h : run.map s.lexicon.digitValue? = values.map some) :
    s.piecesAfter pending (run ++ rest) =
      s.piecesAfter ((values.map numeral).reverse ++ pending) rest := by
  induction run generalizing values pending with
  | nil =>
    obtain rfl : values = [] := by simpa using h.symm
    rfl
  | cons w run ih =>
    obtain ⟨v, values, rfl⟩ : ∃ v vs, values = v :: vs :=
      List.exists_cons_of_ne_nil (by rintro rfl; simp at h)
    obtain ⟨hv, hrun⟩ := List.cons.inj h
    simp only [List.cons_append, piecesAfter, hv]
    rw [ih hrun]
    simp

theorem Lettered.map_digitValue? (hs : s.Lettered) (hrun : ∀ w ∈ run, LetterWord w)
    (hvalue : ∀ w ∈ run, s.hasValue w = true) :
    run.map s.lexicon.digitValue? = (run.filterMap s.valueOf?).map some := by
  induction run with
  | nil => rfl
  | cons w run ih =>
    obtain ⟨hw, hrun⟩ := List.forall_mem_cons.1 hrun
    obtain ⟨hwv, hvalue⟩ := List.forall_mem_cons.1 hvalue
    obtain ⟨v, hv⟩ := Option.isSome_iff_exists.1 hwv
    rw [List.map_cons, ih hrun hvalue, hs.digitValue?_eq hw, List.filterMap_cons_some hv, hv,
      List.map_cons]

theorem Lettered.piecesAfter_word (hs : s.Lettered) (hw : LetterWord w)
    (hvalue : s.hasValue w = false) :
    s.piecesAfter [] (w :: rest) = s.shorten w :: s.piecesAfter [] rest := by
  have hnone : s.valueOf? w = none := by simpa [hasValue] using hvalue
  simp [piecesAfter, hs.digitValue?_eq hw, hnone]

/-- Behind a number a direction word is taken with it, and any other word ends it. -/
theorem Lettered.piecesAfter_number (hs : s.Lettered) (hw : LetterWord w)
    (hvalue : s.hasValue w = false) (hpending : pending ≠ []) :
    s.piecesAfter pending (w :: rest) =
      match s.sideOf? w with
      | some code => (String.ofList pending.reverse ++ code) :: s.piecesAfter [] rest
      | none => String.ofList pending.reverse :: s.shorten w :: s.piecesAfter [] rest := by
  have hnone : s.valueOf? w = none := by simpa [hasValue] using hvalue
  have hempty : pending.isEmpty = false := by simpa using hpending
  simp only [piecesAfter, hs.digitValue?_eq hw, hnone, hempty, hs.directionCode?_eq hw]
  rfl

theorem behind_run (hws : ∀ x ∈ w :: ws, LetterWord x) {v : String}
    (hrest : ws.dropWhile s.hasValue = v :: rest) :
    LetterWord v ∧ s.hasValue v = false ∧ ∀ x ∈ rest, LetterWord x := by
  have hmem : ∀ x ∈ v :: rest, LetterWord x := fun x hx =>
    hws x (List.mem_cons_of_mem w ((List.dropWhile_sublist _).subset (hrest ▸ hx)))
  have hstop := List.head?_dropWhile_not s.hasValue ws
  rw [hrest] at hstop
  obtain ⟨hv, hrest⟩ := List.forall_mem_cons.1 hmem
  exact ⟨hv, by simpa using hstop, hrest⟩

/-- The digit words that words begin with wait as the number that they make. -/
theorem Lettered.piecesAfter_value (hs : s.Lettered) (hws : ∀ v ∈ w :: ws, LetterWord v)
    (hvalue : s.hasValue w = true) :
    ∃ pending, pending ≠ [] ∧
      String.ofList pending.reverse = s.number (w :: ws.takeWhile s.hasValue) ∧
      s.piecesAfter [] (w :: ws) = s.piecesAfter pending (ws.dropWhile s.hasValue) := by
  have hsplit : w :: ws = (w :: ws.takeWhile s.hasValue) ++ ws.dropWhile s.hasValue := by
    rw [List.cons_append, List.takeWhile_append_dropWhile]
  have hall : ∀ v ∈ w :: ws.takeWhile s.hasValue, s.hasValue v = true :=
    List.forall_mem_cons.2 ⟨hvalue, fun v hv => List.mem_takeWhile_imp hv⟩
  have hletters : ∀ v ∈ w :: ws.takeWhile s.hasValue, LetterWord v := fun v hv =>
    hws v (by rw [hsplit]; exact List.mem_append_left _ hv)
  obtain ⟨n, hn⟩ := Option.isSome_iff_exists.1 hvalue
  refine ⟨_, ?_, ?_, (congrArg _ hsplit).trans
    (piecesAfter_values (hs.map_digitValue? hletters hall))⟩
  · simp [List.filterMap_cons_some hn]
  · rw [List.append_nil, List.reverse_reverse, hs.number_eq]

/-- What a word that ends a run of digit words leaves to be read. -/
theorem Lettered.piecesAfter_stopped (hs : s.Lettered) (hws : ∀ x ∈ w :: ws, LetterWord x)
    (hvalue : s.hasValue w = true) {v : String} (hrest : ws.dropWhile s.hasValue = v :: rest) :
    s.piecesAfter [] (w :: ws) =
      match s.sideOf? v with
      | some code => (s.number (w :: ws.takeWhile s.hasValue) ++ code) :: s.piecesAfter [] rest
      | none =>
        s.number (w :: ws.takeWhile s.hasValue) :: s.shorten v :: s.piecesAfter [] rest := by
  obtain ⟨hv, hvvalue, -⟩ := behind_run hws hrest
  obtain ⟨pending, hpending, hnumber, hpieces⟩ := hs.piecesAfter_value hws hvalue
  rw [hpieces, hrest, hs.piecesAfter_number hv hvvalue hpending, hnumber]

theorem Lettered.piecesAfter_eq_shown (hs : s.Lettered) (hws : ∀ w ∈ ws, LetterWord w) :
    s.piecesAfter [] ws = s.shown ws := by
  -- The recursion of `shown` skips the whole run that words begin with and the word behind it.
  induction ws using shown.induct s with
  | case1 => simp [piecesAfter, shown]
  | case2 w ws hvalue hrest =>
    obtain ⟨pending, hpending, hnumber, hpieces⟩ := hs.piecesAfter_value hws hvalue
    rw [hpieces, shown_of_value hvalue, hrest, ← hnumber]
    simp [piecesAfter, hpending]
  | case3 w ws hvalue v rest hrest code hcode ih =>
    rw [hs.piecesAfter_stopped hws hvalue hrest, shown_of_value hvalue, hrest,
      ih (behind_run hws hrest).2.2]
  | case4 w ws hvalue v rest hrest hcode ih =>
    rw [hs.piecesAfter_stopped hws hvalue hrest, shown_of_value hvalue, hrest,
      ih (behind_run hws hrest).2.2]
  | case5 w ws hvalue ih =>
    obtain ⟨hw, hws⟩ := List.forall_mem_cons.1 hws
    rw [hs.piecesAfter_word hw (by simpa using hvalue), shown, if_neg hvalue, ih hws]

/-- Where vocabulary and airlines are spelled with ASCII letters, the short form of words of ASCII
letters is what is shown for them, with single spaces between. -/
theorem write_intercalate {l : Lexicon} {airlines : List Airline} (hl : l.validate = .ok ())
    (hscript : l.script = .spaced) (hdigits : ∀ d ∈ l.digits, LetterWord d.word)
    (hdirections : ∀ x ∈ l.directions, LetterWord x.spoken)
    (hnames : ∀ a ∈ airlines, LetterWord a.name) {ws : List String}
    (hws : ∀ w ∈ ws, LetterWord w) :
    (Shorthand.mk l airlines).write (" ".intercalate ws) =
      " ".intercalate ((Shorthand.mk l airlines).shown ws) := by
  have hs : (Shorthand.mk l airlines).Lettered :=
    ⟨hdigits, fun d hd => ((Lexicon.digits_of_validate hl).2 d hd).1, hdirections⟩
  have hknown : ∀ w ∈ (Shorthand.mk l airlines).known, PlainWord w :=
    plain_of_mem_known (fun a ha => (hnames a ha).plain) (fun d hd => (hdigits d hd).plain)
      fun x hx => (hdirections x hx).plain
  rw [write, tokens_intercalate hscript hknown fun w hw => (hws w hw).plain,
    hs.piecesAfter_eq_shown hws, assemble, hscript]

/-- A side behind a number is no airline, nor is a digit; of two airlines of one name the first
counts. -/
theorem write_runway_two_niner_left :
    Lexicon.english.validate = .ok () ∧
      (Shorthand.mk Lexicon.english
          [⟨"Delta", "DLT"⟩, ⟨"left", "LFT"⟩, ⟨"delta", "DEL"⟩, ⟨"six", "SIX"⟩]).write
        "runway two NINER Left left DELTA six then" = "runway 29L LFT DLT 6 then" := by
  have hl : Lexicon.english.validate = .ok () := by decide +kernel
  have hshown : (Shorthand.mk Lexicon.english
      [⟨"Delta", "DLT"⟩, ⟨"left", "LFT"⟩, ⟨"delta", "DEL"⟩, ⟨"six", "SIX"⟩]).write
        (" ".intercalate ["runway", "two", "NINER", "Left", "left", "DELTA", "six", "then"]) = _ :=
    write_intercalate hl rfl (by decide +kernel) (by decide +kernel) (by decide +kernel)
      (by decide +kernel)
  refine ⟨hl, Eq.trans hshown ?_⟩
  decide +kernel

end Phraseology.Shorthand
