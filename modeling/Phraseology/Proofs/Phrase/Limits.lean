import Phraseology.Proofs.Phrase.Nesting
import Phraseology.Proofs.Phrase.Written
import Phraseology.Proofs.Regex.Flaw

/-! Which patterns can be: those whose repetitions can be counted, that are not nested too deep, and
that are not too large. -/
namespace Phraseology.Pattern

open Regex (nestLimit)

variable {p : Pattern} {ps : List Pattern} {b : Nat × Nat}

mutual

def repetitions : Pattern → List (Nat × Nat)
  | .word _ => []
  | .spaced parts => repetitionsAmong parts
  | .choice alternatives => repetitionsAmong alternatives
  | .repeated body min max => (min, max) :: repetitions body

def repetitionsAmong : List Pattern → List (Nat × Nat)
  | [] => []
  | p :: rest => repetitions p ++ repetitionsAmong rest

end

structure WithinLimits (p : Pattern) : Prop where
  counts : ∀ b ∈ p.repetitions, b.2 ≤ Repetition.countLimit
  nesting : p.nested? 1 = none
  size : Regex.Small true p.renderWhole

/-- A pattern that can be counted and is not too large, however deep it is nested. -/
structure Fits (p : Pattern) : Prop where
  counts : ∀ b ∈ p.repetitions, b.2 ≤ Repetition.countLimit
  size : Regex.Small true p.renderWhole

theorem mem_repetitionsAmong : b ∈ repetitionsAmong ps ↔ ∃ p ∈ ps, b ∈ p.repetitions := by
  induction ps with
  | nil => simp [repetitionsAmong]
  | cons p ps ih => simp [repetitionsAmong, ih]

mutual

theorem boundsFlaw?_eq_none_iff : (p : Pattern) →
    (p.boundsFlaw? = none ↔ ∀ b ∈ p.repetitions, Repetition.flaw? b.1 b.2 = none)
  | .word _ => by simp [boundsFlaw?, repetitions]
  | .spaced parts => boundsFlawAmong?_eq_none_iff "\\s*" parts
  | .choice alternatives =>
    Option.map_eq_none_iff.trans (boundsFlawAmong?_eq_none_iff "|" alternatives)
  | .repeated body min max => by
    rw [boundsFlaw?, Option.or_eq_none_iff, Option.map_eq_none_iff, Option.map_eq_none_iff,
      boundsFlaw?_eq_none_iff body, repetitions, List.forall_mem_cons, and_comm]

theorem boundsFlawAmong?_eq_none_iff (separator : String) : (ps : List Pattern) →
    (boundsFlawAmong? separator ps = none ↔
      ∀ b ∈ repetitionsAmong ps, Repetition.flaw? b.1 b.2 = none)
  | [] => by simp [boundsFlawAmong?, repetitionsAmong]
  | p :: rest => by
    rw [boundsFlawAmong?, Option.or_eq_none_iff, Option.map_eq_none_iff, Option.map_eq_none_iff,
      boundsFlaw?_eq_none_iff p, boundsFlawAmong?_eq_none_iff separator rest, repetitionsAmong,
      List.forall_mem_append]

end

theorem Proper.le_of_mem_repetitions (h : p.Proper) : ∀ b ∈ p.repetitions, b.1 ≤ b.2 := by
  induction h with
  | word ne_nil => simp [repetitions]
  | spaced each kept ih =>
    intro b hb
    obtain ⟨p, hp, hb⟩ := mem_repetitionsAmong.1 hb
    exact ih p hp b hb
  | choice ne_nil each ih =>
    intro b hb
    obtain ⟨p, hp, hb⟩ := mem_repetitionsAmong.1 hb
    exact ih p hp b hb
  | repeated proper le ih => exact List.forall_mem_cons.2 ⟨le, ih⟩

/-- However a pattern is written, it can be read, so nothing but its repetitions, its depth and its
size can be wrong. -/
theorem flaw?_eq_none_iff : p.flaw? = none ↔
    (∀ b ∈ p.repetitions, b.1 ≤ b.2 ∧ b.2 ≤ Repetition.countLimit) ∧ p.nested? 1 = none ∧
      Regex.Small true p.renderWhole := by
  rw [flaw?, Regex.flaw?_eq_none_iff p.read?_renderWhole, Option.map_eq_none_iff,
    Option.or_eq_none_iff, Option.map_eq_none_iff, boundsFlaw?_eq_none_iff, and_assoc]
  simp only [Repetition.flaw?_eq_none_iff]

/-- A phrase whose bounds are in order has a pattern without flaw if that stays within the
limits. -/
theorem flaw?_eq_none_iff_withinLimits {ph : Phrase} (hph : ph.Bounded)
    (hp : ofPhrase? ph = some p) : p.flaw? = none ↔ p.WithinLimits := by
  have hproper := proper_of_ofPhrase? hph hp
  rw [flaw?_eq_none_iff]
  constructor
  · rintro ⟨hbounds, hnesting, hsize⟩
    exact ⟨fun b hb => (hbounds b hb).2, hnesting, hsize⟩
  · rintro ⟨hcounts, hnesting, hsize⟩
    exact ⟨fun b hb => ⟨hproper.le_of_mem_repetitions b hb, hcounts b hb⟩, hnesting, hsize⟩

/-- A pattern in which little stands inside one another is not nested too deep. -/
theorem Fits.withinLimits (h : p.Fits) {n : Nat} (hp : p.Shallow n) (hn : 1 + 3 * n < nestLimit) :
    p.WithinLimits :=
  ⟨h.counts, nested?_eq_none p n 1 hp hn, h.size⟩

theorem WithinLimits.fits (h : p.WithinLimits) : p.Fits := ⟨h.counts, h.size⟩

/-- The repetitions can be counted, and the pattern is small enough by its bound. -/
def boundFits (p : Pattern) : Bool :=
  (p.repetitions.all fun b => b.2 ≤ Repetition.countLimit) &&
    Automaton.boundFits (p.whole.expr true)

theorem fits_of_boundFits (h : p.boundFits = true) : p.Fits := by
  obtain ⟨hcounts, hsmall⟩ := Bool.and_eq_true_iff.1 h
  exact ⟨by simpa using hcounts,
    (Regex.small_iff p.read?_renderWhole).2 (Automaton.fits_of_boundFits true hsmall)⟩

theorem withinLimits_of_boundFits (h : p.boundFits = true) (hnesting : p.nested? 1 = none) :
    p.WithinLimits :=
  ⟨(fits_of_boundFits h).counts, hnesting, (fits_of_boundFits h).size⟩

end Phraseology.Pattern
