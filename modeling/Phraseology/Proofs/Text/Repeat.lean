import Phraseology.Proofs.Text.Place

/-! Repetitions of a step that has at most one place to go on from. -/
namespace Phraseology.Text.Cursor

variable {step : Cursor → List Cursor} {c d : Cursor} {cs : List Cursor}

/-- Of the places that a step leads to, the first is the only one that it goes on from. -/
def Straight (step : Cursor → List Cursor) : Prop :=
  ∀ c d cs, step c = d :: cs → c.offset < d.offset ∧ ∀ e ∈ cs, e = d ∨ step e = []

/-- So many steps, each to the place that is preferred. -/
def walk? (step : Cursor → List Cursor) : Nat → Cursor → Option Cursor
  | 0, c => some c
  | n + 1, c => (step c).head?.bind (walk? step n)

theorem mem_of_mem_distinctFrom {seen : Std.HashSet Nat} {e : Cursor}
    (h : e ∈ distinctFrom seen cs) : e ∈ cs := by
  induction cs generalizing seen with
  | nil => exact h
  | cons c cs ih =>
    simp only [distinctFrom] at h
    split_ifs at h
    · exact List.mem_cons_of_mem c (ih h)
    · rcases List.mem_cons.1 h with rfl | h
      · exact List.mem_cons_self
      · exact List.mem_cons_of_mem c (ih h)

theorem distinct_cons (c : Cursor) (cs : List Cursor) :
    ∃ rest, distinct (c :: cs) = c :: rest ∧ ∀ e ∈ rest, e ∈ cs := by
  refine ⟨distinctFrom ((∅ : Std.HashSet Nat).insert c.offset) cs, ?_, ?_⟩
  · simp [distinct, distinctFrom]
  · exact fun e => mem_of_mem_distinctFrom

/-- The places to go on from, when all but the first are dead ends or the first once more. -/
theorem Straight.flatMap (hs : Straight step) (hdead : ∀ e ∈ cs, e = c ∨ step e = []) :
    (c :: cs).flatMap step = [] ∧ (step c).head? = none ∨
      ∃ d rest, (c :: cs).flatMap step = d :: rest ∧ (step c).head? = some d ∧
        c.offset < d.offset ∧ ∀ e ∈ rest, e = d ∨ step e = [] := by
  have hmem : ∀ f ∈ cs.flatMap step, f ∈ step c := by
    intro f hf
    obtain ⟨e, he, hf⟩ := List.mem_flatMap.1 hf
    rcases hdead e he with rfl | hnil
    · exact hf
    · rw [hnil] at hf
      cases hf
  rw [List.flatMap_cons]
  cases hc : step c with
  | nil =>
    refine .inl ⟨?_, rfl⟩
    rw [List.nil_append, List.eq_nil_iff_forall_not_mem]
    intro f hf
    have := hmem f hf
    rw [hc] at this
    cases this
  | cons d rest =>
    obtain ⟨hlt, hrest⟩ := hs c d rest hc
    refine .inr ⟨d, rest ++ cs.flatMap step, rfl, rfl, hlt, fun e he => ?_⟩
    rcases List.mem_append.1 he with he | he
    · exact hrest e he
    · have := hmem e he
      rw [hc] at this
      rcases List.mem_cons.1 this with rfl | he
      · exact .inl rfl
      · exact hrest e he

theorem Straight.head?_exactly (hs : Straight step) (n : Nat)
    (hdead : ∀ e ∈ cs, e = c ∨ step e = []) :
    (exactly step n (c :: cs)).head? = walk? step n c := by
  induction n generalizing c cs with
  | zero => rfl
  | succ n ih =>
    rw [walk?, exactly]
    rcases hs.flatMap hdead with ⟨hnil, hhead⟩ | ⟨d, rest, hnext, hhead, hlt, hrest⟩
    · rw [hnil, hhead]
      rfl
    · obtain ⟨kept, hkept, hsub⟩ := distinct_cons d rest
      have hoffsets : (offsets (d :: kept) == offsets (c :: cs)) = false := by
        refine beq_false_of_ne fun he => ?_
        have := (List.cons.inj he).1
        omega
      simp only [hnext, hkept, hoffsets, hhead, List.isEmpty_cons, Bool.or_self,
        Bool.false_eq_true, if_false, Option.bind_some]
      exact ih fun e he => hrest e (hsub e he)

theorem Straight.between?_eq (hs : Straight step) (min max : Nat) (c : Cursor) :
    between? step min max c = (walk? step min c).map (atMost step (max - min)) := by
  rw [between?, hs.head?_exactly min (by simp)]

theorem Straight.atMost_of_head? (hs : Straight step) (n : Nat) (h : (step c).head? = some d) :
    atMost step (n + 1) c = atMost step n d := by
  obtain ⟨rest, hrest⟩ := List.head?_eq_some_iff.1 h
  have hlt := (hs c d rest hrest).1
  simp only [atMost, h, show d.offset ≠ c.offset by omega, if_false]

theorem atMost_of_nil (n : Nat) (h : step c = []) : atMost step n c = c := by
  cases n with
  | zero => rfl
  | succ n => simp only [atMost, h, List.head?_nil]

/-- With room for one more repetition there either is one more or there is none. -/
theorem Straight.between?_succ (hs : Straight step) (min max : Nat) (c : Cursor) :
    between? step min (max + 1) c =
      match (step c).head? with
      | some d => between? step (min - 1) max d
      | none => if min = 0 then some c else none := by
  rw [hs.between?_eq]
  cases hc : (step c).head? with
  | none =>
    cases min with
    | zero => simp [walk?, atMost_of_nil _ (List.head?_eq_none_iff.1 hc)]
    | succ min => simp [walk?, hc]
  | some d =>
    change _ = between? step (min - 1) max d
    rw [hs.between?_eq]
    cases min with
    | zero => simp [walk?, hs.atMost_of_head? max hc]
    | succ min => simp [walk?, hc]

end Phraseology.Text.Cursor
