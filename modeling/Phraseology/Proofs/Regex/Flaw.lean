import Phraseology.Proofs.Automaton.Bound
import Phraseology.Proofs.Regex.Written
import Phraseology.Regex.Flaw

/-! An expression that can be read has no flaw but one inside it, or its size. -/
namespace Phraseology.Regex

variable {r : Regex} {rs ss : List Regex} {n : Nat}

/-- What is written takes no more room than there is, if it can be read. -/
def Small (anchored : Bool) (written : String) : Prop :=
  ∀ w ∈ read? written.toList, Automaton.fits anchored w.expr = true

theorem small_iff {anchored : Bool} {written : String} {w : Written}
    (h : read? written.toList = some w) :
    Small anchored written ↔ Automaton.fits anchored w.expr = true := by
  simp [Small, h]

theorem flaw?_eq_none_iff {anchored : Bool} {written : String}
    {inside : Regex → Option PatternFlaw} {w : Written} (h : read? written.toList = some w) :
    flaw? anchored written inside = none ↔ inside w.body = none ∧ Small anchored written := by
  rw [small_iff h]
  simp only [flaw?, h, Option.or_eq_none_iff, ite_eq_left_iff, reduceCtorEq, imp_false, not_not]

theorem tooDeep?_eq_none {written : String} (h : r.depth ≤ nestLimit) :
    r.tooDeep? written = none :=
  if_neg (Nat.not_lt.2 h)

theorem depths_le_iff : depths rs ≤ n ↔ ∀ r ∈ rs, r.depth ≤ n := by
  induction rs with
  | nil => simp [depths]
  | cons r rs ih => rw [depths, Nat.max_le, ih, List.forall_mem_cons]

theorem depth_sequence_le (h : ∀ r ∈ rs, r.depth ≤ n) : (sequence rs).depth ≤ n + 1 := by
  have := depths_le_iff.2 h
  rw [depth]
  split_ifs <;> omega

theorem depth_choice_le (h : ∀ r ∈ rs, r.depth ≤ n) : (choice rs).depth ≤ n + 2 := by
  have := depths_le_iff.2 h
  rw [depth]
  split_ifs <;> omega

/-- The words in an expression make it no deeper. -/
theorem depth_ofWords_le (ws : List (List Char)) : ∀ r ∈ ofWords ws, r.depth ≤ 1 := by
  have hword (w : List Char) : (sequence (w.map .char)).depth ≤ 1 := by
    refine depth_sequence_le fun r hr => ?_
    obtain ⟨c, -, rfl⟩ := List.mem_map.1 hr
    exact le_rfl
  intro r hr
  cases ws with
  | nil =>
    obtain rfl := List.mem_singleton.1 hr
    exact hword []
  | cons w ws =>
    obtain ⟨v, -, rfl⟩ := List.mem_map.1 hr
    exact hword v

end Phraseology.Regex
