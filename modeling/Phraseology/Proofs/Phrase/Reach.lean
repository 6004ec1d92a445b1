import Phraseology.Proofs.Phrase.Accepts

/-! A pattern leads to every place that words which it spells lead to: the search by levels misses
none, though it looks at no place twice. -/
namespace Phraseology

open Text

namespace Text.Cursor

variable {c d e : Cursor} {ws us : List (List Char)} {b u : List Char}

/-- From one place past words, each with all blanks behind it, to another. -/
inductive Passes : Cursor → List (List Char) → Cursor → Prop where
  | nil (c : Cursor) : Passes c [] c
  | cons {c d e : Cursor} {w : List Char} {ws : List (List Char)} (word : word? w c = some d)
      (rest : Passes d.skipBlanks ws e) : Passes c (w :: ws) e

theorem Passes.of_append (h : Passes c (us ++ ws) e) : ∃ d, Passes c us d ∧ Passes d ws e := by
  induction us generalizing c with
  | nil => exact ⟨c, .nil c, h⟩
  | cons w us ih =>
    cases h with
    | cons word rest =>
      obtain ⟨d, hd, he⟩ := ih rest
      exact ⟨d, .cons word hd, he⟩

theorem Passes.lays (h : Passes c ws e) : c.Lays ws e := by
  induction h with
  | nil c => exact .refl c
  | cons word rest ih => exact (Pattern.lays_word word).trans ih

theorem skipBlanks_behind {bl : List Char} (hbl : ∀ c ∈ bl, isBlank c = true)
    (hu : ∀ c ∈ u.head?, isBlank c = false) :
    (place b (bl ++ u)).skipBlanks = behind bl b u := by
  have htake : (bl ++ u).takeWhile isBlank = bl := by
    rw [List.takeWhile_append_of_pos hbl]
    cases u with
    | nil => simp
    | cons c u => rw [List.takeWhile_cons_of_neg (by simp [hu c rfl]), List.append_nil]
  rw [skipBlanks_place, htake, dropWhile_blanks hbl hu]

theorem head?_of_laid (h : Laid ws u) (hws : ∀ w ∈ ws, Unbroken w) :
    ∀ c ∈ u.head?, isBlank c = false := by
  cases h with
  | nil => simp
  | @cons w v bl u ws alike blank rest =>
    have hv := (hws w (by simp)).of_alike alike
    rw [List.head?_append_of_ne_nil _ hv.ne_nil]
    exact hv.trimmed.head

/-- Over text that is made of words one passes them all. -/
theorem passes_of_laid (h : Laid ws u) (hws : ∀ w ∈ ws, Unbroken w) :
    (place b u).Passes ws (behind u b []) := by
  induction h generalizing b with
  | nil => exact .nil _
  | @cons w v bl u ws alike blank rest ih =>
    obtain ⟨-, hws⟩ := List.forall_mem_cons.1 hws
    refine .cons (word?_place alike) ?_
    rw [skipBlanks_behind blank (head?_of_laid rest hws), behind_append, behind_append]
    exact ih hws

end Text.Cursor

namespace Pattern

open Text.Cursor

variable {R : Cursor → Cursor → Prop} {text : List Char} {step : List Cursor → List Cursor}
  {cs prior : List Cursor} {c d e : Cursor} {k m n : Nat} {seen : Std.HashSet Nat}

/-- From one place in so many steps to another. -/
inductive Steps (R : Cursor → Cursor → Prop) : Nat → Cursor → Cursor → Prop where
  | zero (c : Cursor) : Steps R 0 c c
  | succ {n : Nat} {c d e : Cursor} (first : R c d) (rest : Steps R n d e) : Steps R (n + 1) c e

theorem Steps.of_add (h : Steps R (m + n) c e) : ∃ d, Steps R m c d ∧ Steps R n d e := by
  induction m generalizing c with
  | zero =>
    rw [Nat.zero_add] at h
    exact ⟨c, .zero c, h⟩
  | succ m ih =>
    rw [Nat.succ_add] at h
    cases h with
    | succ first rest =>
      obtain ⟨d, hd, he⟩ := ih rest
      exact ⟨d, .succ first hd, he⟩

theorem Steps.add (h : Steps R m c d) (h' : Steps R n d e) : Steps R (m + n) c e := by
  induction h with
  | zero c => rwa [Nat.zero_add]
  | succ first rest ih =>
    rw [Nat.succ_add]
    exact .succ first (ih h')

/-- Places that no step leads out of are not left by any number of steps. -/
theorem Steps.mem_of_closed (h : Steps R n c d) (hclosed : ∀ c ∈ cs, ∀ d, R c d → d ∈ cs)
    (hc : c ∈ cs) : d ∈ cs := by
  induction h with
  | zero c => exact hc
  | succ first rest ih => exact ih (hclosed _ hc _ first)

/-- From places of the text a step leads wherever the relation does, and stays in the text. -/
structure Covers (text : List Char) (R : Cursor → Cursor → Prop)
    (step : List Cursor → List Cursor) : Prop where
  on : ∀ cs, (∀ c ∈ cs, On text c) → ∀ d ∈ step cs, On text d
  mem : ∀ cs, (∀ c ∈ cs, On text c) → ∀ c ∈ cs, ∀ d, R c d → d ∈ step cs

/-- The `prior` places and those of the last level are the places `seen`, and no step leads from a
prior place to one that is not among them. -/
structure Level (text : List Char) (R : Cursor → Cursor → Prop) (prior : List Cursor)
    (seen : Std.HashSet Nat) (cs : List Cursor) : Prop where
  on : ∀ c ∈ prior ++ cs, On text c
  seen : ∀ o ∈ seen, ∃ c ∈ prior ++ cs, c.offset = o
  closed : ∀ c ∈ prior, ∀ d, R c d → d ∈ prior ++ cs

theorem Level.start (hcs : ∀ c ∈ cs, On text c) :
    Level text R [] (.ofList (offsets cs)) cs where
  on := hcs
  seen := by
    intro o ho
    rw [Std.HashSet.mem_ofList, List.contains_iff_mem] at ho
    exact List.mem_map.1 ho
  closed := by simp

theorem Level.mem_next (h : Level text R prior seen cs) (hs : Covers text R step)
    (hc : c ∈ prior ++ cs) (hcd : R c d) :
    d ∈ (prior ++ cs) ++ distinctFrom seen (step cs) := by
  have hon : ∀ c ∈ cs, On text c := fun c hc => h.on c (List.mem_append_right prior hc)
  rcases List.mem_append.1 hc with hc | hc
  · exact List.mem_append_left _ (h.closed c hc d hcd)
  · have hd := hs.mem cs hon c hc d hcd
    by_cases hseen : d.offset ∈ seen
    · obtain ⟨e, he, hoffset⟩ := h.seen _ hseen
      obtain rfl := (h.on e he).eq_of_offset_eq (hs.on cs hon d hd) hoffset
      exact List.mem_append_left _ he
    · obtain ⟨e, he, hoffset⟩ := exists_of_distinctFrom hd hseen
      obtain rfl := (hs.on cs hon e (mem_of_mem_distinctFrom he)).eq_of_offset_eq
        (hs.on cs hon d hd) hoffset
      exact List.mem_append_right _ he

theorem Level.next (h : Level text R prior seen cs) (hs : Covers text R step) :
    Level text R (prior ++ cs) (seen.insertMany (offsets (distinctFrom seen (step cs))))
      (distinctFrom seen (step cs)) where
  on := by
    refine List.forall_mem_append.2 ⟨h.on, fun d hd => ?_⟩
    exact hs.on cs (fun c hc => h.on c (List.mem_append_right prior hc)) d
      (mem_of_mem_distinctFrom hd)
  seen := by
    intro o ho
    rw [Std.HashSet.mem_insertMany_list, List.contains_iff_mem] at ho
    rcases ho with ho | ho
    · obtain ⟨c, hc, hoffset⟩ := h.seen o ho
      exact ⟨c, List.mem_append_left _ hc, hoffset⟩
    · obtain ⟨c, hc, hoffset⟩ := List.mem_map.1 ho
      exact ⟨c, List.mem_append_right _ hc, hoffset⟩
  closed := fun c hc d hcd => h.mem_next hs hc hcd

/-- Each place that at most `n` steps lead to is found by then, or was before. -/
theorem Level.mem_closure (h : Level text R prior seen cs) (hs : Covers text R step) (hkn : k ≤ n)
    (hc : c ∈ prior ++ cs) (hcd : Steps R k c d) : d ∈ prior ++ closure step n seen cs := by
  induction n generalizing prior seen cs k c with
  | zero =>
    obtain rfl : k = 0 := by omega
    cases hcd
    exact hc
  | succ n ih =>
    rw [closure]
    split_ifs with hempty
    · refine hcd.mem_of_closed (fun c hc d hcd => ?_) hc
      have := h.mem_next hs hc hcd
      rwa [List.isEmpty_iff.1 hempty, List.append_nil] at this
    · rw [← List.append_assoc]
      cases hcd with
      | zero => exact List.mem_append_left _ hc
      | succ first rest => exact ih (h.next hs) (by omega) (h.mem_next hs hc first) rest

namespace Covers

theorem mem_atMost (hs : Covers text R step) (hcs : ∀ c ∈ cs, On text c) (hkn : k ≤ n)
    (hc : c ∈ cs) (hcd : Steps R k c d) : d ∈ atMost step n cs :=
  (Level.start hcs).mem_closure hs hkn hc hcd

theorem mem_exactly (hs : Covers text R step) (hcs : ∀ c ∈ cs, On text c) (hc : c ∈ cs)
    (hcd : Steps R n c d) : d ∈ exactly step n cs := by
  induction n generalizing cs c with
  | zero =>
    cases hcd
    exact hc
  | succ n ih =>
    simp only [exactly]
    split_ifs
    · exact hs.mem_atMost hcs le_rfl hc hcd
    · cases hcd with
      | succ first rest => exact ih (hs.on cs hcs) (hs.mem cs hcs c hc _ first) rest

end Covers

theorem on_of_mem_after (p : Pattern) (hcs : ∀ c ∈ cs, On text c) :
    ∀ d ∈ p.after cs, On text d := by
  intro d hd
  obtain ⟨c, hc, ws, -, hcd⟩ := lays_of_mem_after text p cs hcs d hd
  exact hcd.on (hcs c hc)

/-- From one place past words that the pattern spells to another. -/
def Leads (p : Pattern) (c d : Cursor) : Prop := ∃ ws, p.Spells ws ∧ c.Passes ws d

theorem steps_of_passes {body : Pattern} {wss : List (List (List Char))}
    (hwss : ∀ ws ∈ wss, body.Spells ws) (h : c.Passes wss.flatten d) :
    Steps body.Leads wss.length c d := by
  induction wss generalizing c with
  | nil =>
    cases h
    exact .zero d
  | cons ws wss ih =>
    obtain ⟨hws, hwss⟩ := List.forall_mem_cons.1 hwss
    obtain ⟨e, hce, hed⟩ := h.of_append
    exact .succ ⟨ws, hws, hce⟩ (ih hwss hed)

mutual

theorem mem_after_of_leads (text : List Char) : (p : Pattern) → (cs : List Cursor) →
    (∀ c ∈ cs, On text c) → ∀ c ∈ cs, ∀ d, p.Leads c d → d ∈ p.after cs
  | .word w, cs, _, c, hc, d, ⟨ws, hws, hcd⟩ => by
    cases hws
    cases hcd with
    | cons word rest =>
      cases rest
      rw [after]
      exact List.mem_map_of_mem (List.mem_filterMap.2 ⟨c, hc, word⟩)
  | .spaced parts, cs, hcs, c, hc, d, ⟨ws, hws, hcd⟩ =>
    mem_afterAll_of_passes text parts cs hcs c hc ws hws d hcd
  | .choice alternatives, cs, hcs, c, hc, d, ⟨ws, hws, hcd⟩ => by
    cases hws with
    | choice mem spells =>
      have hd := mem_afterAny_of_leads text alternatives cs hcs c hc _ mem d ⟨ws, spells, hcd⟩
      obtain ⟨e, he, hoffset⟩ := exists_of_distinctFrom hd Std.HashSet.not_mem_empty
      have hon := on_of_mem_after (.choice alternatives) hcs e he
      have hcd : On text d := hcd.lays.on (hcs c hc)
      obtain rfl := hon.eq_of_offset_eq hcd hoffset
      exact he
  | .repeated body min max, cs, hcs, c, hc, d, ⟨ws, hws, hcd⟩ => by
    have hcovers : Covers text body.Leads (after body) :=
      ⟨fun cs => on_of_mem_after body, mem_after_of_leads text body⟩
    cases hws with
    | repeated wss copies lower upper =>
      have hsteps := steps_of_passes copies hcd
      rw [← Nat.add_sub_of_le lower] at hsteps
      obtain ⟨e, hce, hed⟩ := hsteps.of_add
      rw [after]
      refine hcovers.mem_atMost ?_ (by omega) (hcovers.mem_exactly hcs hc hce) hed
      intro e he
      refine on_of_mem_after (.repeated body min min) hcs e ?_
      rw [after, Nat.sub_self]
      exact he

theorem mem_afterAll_of_passes (text : List Char) : (ps : List Pattern) → (cs : List Cursor) →
    (∀ c ∈ cs, On text c) → ∀ c ∈ cs, ∀ ws, (Pattern.spaced ps).Spells ws → ∀ d, c.Passes ws d →
      d ∈ afterAll ps cs
  | [], _, _, c, hc, ws, hws, d, hcd => by
    cases hws
    cases hcd
    exact hc
  | p :: rest, cs, hcs, c, hc, ws, hws, d, hcd => by
    cases hws with
    | cons first others =>
      obtain ⟨e, hce, hed⟩ := hcd.of_append
      exact mem_afterAll_of_passes text rest (p.after cs) (on_of_mem_after p hcs) e
        (mem_after_of_leads text p cs hcs c hc e ⟨_, first, hce⟩) _ others d hed

theorem mem_afterAny_of_leads (text : List Char) : (ps : List Pattern) → (cs : List Cursor) →
    (∀ c ∈ cs, On text c) → ∀ c ∈ cs, ∀ p ∈ ps, ∀ d, p.Leads c d → d ∈ afterAny ps cs
  | [], _, _, _, _, _, hp, _, _ => by cases hp
  | q :: rest, cs, hcs, c, hc, p, hp, d, hcd => by
    rw [afterAny, List.mem_append]
    rcases List.mem_cons.1 hp with hpq | hp
    · exact .inl (mem_after_of_leads text q cs hcs c hc d (hpq ▸ hcd))
    · exact .inr (mem_afterAny_of_leads text rest cs hcs c hc p hp d hcd)

end

/-- A text that is made of words that the pattern spells is accepted. -/
theorem accepts_of_spread {p : Pattern} {text : String} {ws : List (List Char)} (hws : p.Spells ws)
    (hunbroken : ∀ w ∈ ws, Unbroken w) (h : Spread ws text.toList) : p.accepts text = true := by
  obtain ⟨bl, u, htext, hbl, h⟩ := h
  have hstart : (start text.toList).skipBlanks = behind bl [] u := by
    rw [start_eq, htext, skipBlanks_behind hbl (head?_of_laid h hunbroken)]
  have hon : ∀ c ∈ [(start text.toList).skipBlanks], On text.toList c := by
    intro c hc
    rw [List.mem_singleton.1 hc, hstart, htext]
    exact on_behind
  have hleads : p.Leads (start text.toList).skipBlanks (behind u (bl.reverse ++ []) []) :=
    ⟨ws, hws, hstart ▸ passes_of_laid h hunbroken⟩
  have hend := mem_after_of_leads text.toList p _ hon _ (List.mem_singleton_self _) _ hleads
  exact List.any_eq_true.2 ⟨_, hend, rfl⟩

end Pattern

end Phraseology
