import Mathlib.Data.List.Basic
import Mathlib.Tactic.Common
import Phraseology.Regex

/-! How what is written is read: what is escaped is read as it is, and each group ends where it
should. -/
namespace Phraseology.Regex

variable {g : Group} {outer : List Group} {rs ss as : List Regex} {r : Regex} {s t : String}

@[simp] theorem Group.add_nil (g : Group) : g.add [] = g := rfl

@[simp] theorem Group.add_add (g : Group) (rs ss : List Regex) :
    (g.add rs).add ss = g.add (rs ++ ss) := by
  simp [Group.add]

@[simp] theorem Group.name_add (g : Group) (rs : List Regex) : (g.add rs).name = g.name := rfl

theorem Group.all_add (as : List Regex) (name : Option String) (rs : List Regex) :
    (Group.add ⟨as, [], name⟩ rs).all = as.reverse ++ [.sequence rs] := by
  simp [Group.add, Group.all]

theorem Reader.run?_append (r : Reader) (s t : List Char) :
    r.run? (s ++ t) = (r.run? s).bind (·.run? t) := by
  induction s generalizing r with
  | nil => rfl
  | cons c s ih =>
    rw [List.cons_append, run?, run?]
    cases r.step? c with
    | none => rfl
    | some r => exact ih r

open Reader

/-- The text is read as these parts, wherever it stands. -/
def Parts (s : String) (rs : List Regex) : Prop :=
  ∀ g outer, run? ⟨.sign, g, outer⟩ s.toList = some ⟨.sign, g.add rs, outer⟩

/-- The text is read as these alternatives, wherever a group begins. -/
def Alternatives (s : String) (rs : List Regex) : Prop :=
  ∀ as name outer, ∃ g, run? ⟨.sign, ⟨as, [], name⟩, outer⟩ s.toList = some ⟨.sign, g, outer⟩ ∧
    g.all = as.reverse ++ rs ∧ g.name = name

theorem parts_empty : Parts "" [] := fun _ _ => rfl

theorem Parts.append (hs : Parts s rs) (ht : Parts t ss) : Parts (s ++ t) (rs ++ ss) := by
  intro g outer
  rw [String.toList_append, run?_append, hs, Option.bind_some, ht, Group.add_add]

theorem parts_blanks : Parts "\\s*" [.star .blank] := fun _ _ => rfl

theorem parts_boundary : Parts "\\b" [.boundary] := fun _ _ => rfl

theorem sign?_of_not_special {c : Char} (h : special.contains c = false) (r : Reader) :
    r.sign? c = some { r with group := r.group.add [.char c] } := by
  unfold sign?
  split
  all_goals first | rfl | exact absurd h (by decide)

/-- A character is read as it is, since it takes a backslash where it needs one. -/
theorem run?_escape (c : Char) :
    run? ⟨.sign, g, outer⟩ (escape c) = some ⟨.sign, g.add [.char c], outer⟩ := by
  unfold escape
  split_ifs with h
  · have hescaped : escaped? c = some (.char c) := by
      unfold escaped?
      split
      all_goals exact if_pos h
    rw [run?, show step? ⟨.sign, g, outer⟩ '\\' = some ⟨.escape, g, outer⟩ from rfl]
    simp only [run?, step?, hescaped, Option.map_some]
  · rw [run?, show step? ⟨.sign, g, outer⟩ c = sign? ⟨.sign, g, outer⟩ c from rfl,
      sign?_of_not_special (by simpa using h)]
    rfl

theorem parts_renderWord (w : List Char) : Parts (renderWord w) (w.map .char) := by
  intro g outer
  rw [renderWord, String.toList_ofList]
  induction w generalizing g with
  | nil => rfl
  | cons c w ih =>
    rw [List.flatMap_cons, run?_append, run?_escape, Option.bind_some, ih, Group.add_add]
    rfl

theorem Parts.plus (h : Parts s [r]) : Parts (s ++ "+") [.plus r] := by
  intro g outer
  rw [String.toList_append, run?_append, h]
  rfl

theorem Parts.optional (h : Parts s [r]) : Parts (s ++ "?") [.optional r] := by
  intro g outer
  rw [String.toList_append, run?_append, h]
  rfl

/-- Digits are read as the number that they write. -/
theorem run?_digits {m : Option Nat → Mode} {ds : List Char} (outer : List Group)
    (hstep : ∀ read c, c.isDigit = true →
      step? ⟨m read, g, outer⟩ c = some ⟨m (some (moreDigits read c)), g, outer⟩)
    (hds : ∀ c ∈ ds, c.isDigit = true) (hne : ds ≠ []) (read : Option Nat) :
    run? ⟨m read, g, outer⟩ ds =
      some ⟨m (some (Nat.ofDigitChars 10 ds (read.getD 0))), g, outer⟩ := by
  induction ds generalizing read with
  | nil => exact absurd rfl hne
  | cons c ds ih =>
    obtain ⟨hc, hds⟩ := List.forall_mem_cons.1 hds
    simp only [run?, hstep read c hc]
    rw [Nat.ofDigitChars_cons]
    cases ds with
    | nil => rfl
    | cons d ds => exact ih hds (by simp) _

theorem run?_number {m : Option Nat → Mode} (outer : List Group)
    (hstep : ∀ read c, c.isDigit = true →
      step? ⟨m read, g, outer⟩ c = some ⟨m (some (moreDigits read c)), g, outer⟩) (n : Nat) :
    run? ⟨m none, g, outer⟩ (toString n).toList = some ⟨m (some n), g, outer⟩ := by
  have hdigits : ∀ c ∈ Nat.toDigits 10 n, c.isDigit = true := fun c hc =>
    Nat.isDigit_of_mem_toDigits (by decide) (by decide) hc
  rw [Nat.toString_eq_ofList_toDigits, String.toList_ofList,
    run?_digits outer hstep hdigits Nat.toDigits_ne_nil none, Option.getD_none,
    Nat.ofDigitChars_ten_toDigits]

theorem Parts.counted (h : Parts s [r]) (min max : Nat) :
    Parts (s ++ Repetition.render min max) [.counted r min max] := by
  intro g outer
  have hleast := run?_number (g := g.add [r]) (m := .least) outer (fun _ _ h => if_pos h) min
  have hmost := run?_number (g := g.add [r]) (m := .most min) outer (fun _ _ h => if_pos h) max
  have hopen : run? ⟨.sign, g.add [r], outer⟩ "\x7b".toList =
      some ⟨.least none, g.add [r], outer⟩ := rfl
  have hcomma : run? ⟨.least (some min), g.add [r], outer⟩ ",".toList =
      some ⟨.most min none, g.add [r], outer⟩ := rfl
  have hclose : run? ⟨.most min (some max), g.add [r], outer⟩ "\x7d".toList =
      some ⟨.sign, g.add [.counted r min max], outer⟩ := rfl
  simp only [Repetition.render, String.toList_append, run?_append, h g outer, hopen, hleast, hcomma,
    hmost, hclose, Option.bind_some]

theorem Parts.alternatives (h : Parts s rs) : Alternatives s [.sequence rs] :=
  fun as name outer => ⟨_, h _ outer, Group.all_add as name rs, rfl⟩

theorem Alternatives.bar (hs : Alternatives s rs) (ht : Alternatives t ss) :
    Alternatives (s ++ "|" ++ t) (rs ++ ss) := by
  intro as name outer
  obtain ⟨g, hg, hall, hname⟩ := hs as name outer
  obtain ⟨g', hg', hall', hname'⟩ := ht g.all.reverse name outer
  have hbar : run? ⟨.sign, g, outer⟩ "|".toList =
      some ⟨.sign, ⟨g.all.reverse, [], name⟩, outer⟩ := by
    change some (⟨.sign, g.bar, outer⟩ : Reader) = _
    rw [Group.bar, Group.all, List.reverse_reverse, hname]
  refine ⟨g', ?_, by simpa [hall] using hall', hname'⟩
  simp only [String.toList_append, run?_append, hg, hbar, hg', Option.bind_some]

theorem Alternatives.group (h : Alternatives s rs) : Parts ("(?:" ++ s ++ ")") [.choice rs] := by
  intro g outer
  obtain ⟨inner, hinner, hall, hname⟩ := h [] none (g :: outer)
  have hopen : run? ⟨.sign, g, outer⟩ "(?:".toList = some ⟨.sign, .empty none, g :: outer⟩ := rfl
  have hclose : run? ⟨.sign, inner, g :: outer⟩ ")".toList =
      some ⟨.sign, g.add [inner.close], outer⟩ := rfl
  simp only [String.toList_append, run?_append, hopen, Group.empty, hinner, hclose,
    Option.bind_some, Group.close, hname, hall, List.reverse_nil, List.nil_append]

theorem run?_letters (ds read : List Char) (h : ∀ c ∈ ds, c.isAlpha = true) :
    run? ⟨.name read, g, outer⟩ ds = some ⟨.name (ds.reverse ++ read), g, outer⟩ := by
  induction ds generalizing read with
  | nil => rfl
  | cons c ds ih =>
    obtain ⟨hc, hds⟩ := List.forall_mem_cons.1 h
    simp only [run?, step?, hc, if_true, ih (c :: read) hds]
    simp

/-- A group with a name of letters. -/
theorem Alternatives.capture (h : Alternatives s rs) (name : String) (hne : name ≠ "")
    (hname : ∀ c ∈ name.toList, c.isAlpha = true) :
    Parts ("(?P<" ++ name ++ ">" ++ s ++ ")") [.capture name (.choice rs)] := by
  intro g outer
  obtain ⟨inner, hinner, hall, hinnername⟩ := h [] (some name) (g :: outer)
  have hopen : run? ⟨.sign, g, outer⟩ "(?P<".toList = some ⟨.name [], g, outer⟩ := rfl
  have hreverse : name.toList.reverse ≠ [] := by simpa using hne
  have hangle : run? ⟨.name (name.toList.reverse ++ []), g, outer⟩ ">".toList =
      some ⟨.sign, .empty (some name), g :: outer⟩ := by
    rw [show ">".toList = ['>'] from rfl, run?]
    simp [step?, hreverse, run?, show Char.isAlpha '>' = false from rfl]
  have hclose : run? ⟨.sign, inner, g :: outer⟩ ")".toList =
      some ⟨.sign, g.add [inner.close], outer⟩ := rfl
  simp only [String.toList_append, run?_append, hopen, run?_letters _ _ hname, hangle, Group.empty,
    hinner, hclose, Option.bind_some, Group.close, hinnername, hall, List.reverse_nil,
    List.nil_append]

/-- Words as alternatives; no words at all are read as the empty one. -/
def ofWords : List (List Char) → List Regex
  | [] => [.sequence []]
  | ws => ws.map fun w => .sequence (w.map .char)

theorem alternatives_renderWords (ws : List (List Char)) :
    Alternatives (renderWords ws) (ofWords ws) := by
  induction ws with
  | nil => exact parts_empty.alternatives
  | cons w ws ih =>
    cases ws with
    | nil =>
      rw [renderWords, List.map_singleton, String.intercalate_singleton]
      exact (parts_renderWord w).alternatives
    | cons v ws =>
      rw [renderWords, List.map_cons, List.map_cons, String.intercalate_cons_cons]
      exact (parts_renderWord w).alternatives.bar ih

@[simp] theorem namesAmong_append (rs ss : List Regex) :
    namesAmong (rs ++ ss) = namesAmong rs ++ namesAmong ss := by
  induction rs with
  | nil => rfl
  | cons r rs ih => simp [ih]

@[simp] theorem namesAmong_chars (w : List Char) : namesAmong (w.map .char) = [] := by
  induction w with
  | nil => rfl
  | cons c w ih => simpa using ih

/-- No word is read as a name. -/
@[simp] theorem namesAmong_ofWords (ws : List (List Char)) : namesAmong (ofWords ws) = [] := by
  have hwords (ws : List (List Char)) :
      namesAmong (ws.map fun w => .sequence (w.map .char)) = [] := by
    induction ws with
    | nil => rfl
    | cons w ws ih => simpa using ih
  cases ws with
  | nil => rfl
  | cons w ws => exact hwords (w :: ws)

theorem read?_caseless (h : Alternatives s rs) (hnames : (namesAmong rs).Nodup) :
    read? ("(?i)" ++ s).toList = some ⟨true, .choice rs⟩ := by
  obtain ⟨g, hg, hall, -⟩ := h [] none []
  have hflag : "(?i)".toList.isPrefixOf? ("(?i)" ++ s).toList = some s.toList := by
    rw [String.toList_append]
    rfl
  simp only [read?, hflag, fresh, Group.empty, hg]
  simp [expression?, hall, hnames]

theorem read?_cased (h : Alternatives s rs) (hnames : (namesAmong rs).Nodup)
    (hflag : "(?i)".toList.isPrefixOf? s.toList = none) :
    read? s.toList = some ⟨false, .choice rs⟩ := by
  obtain ⟨g, hg, hall, -⟩ := h [] none []
  simp only [read?, hflag, fresh, Group.empty, hg]
  simp [expression?, hall, hnames]

end Phraseology.Regex
