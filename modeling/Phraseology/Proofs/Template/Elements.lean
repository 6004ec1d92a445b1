import Phraseology.Grammar
import Phraseology.Proofs.Template.Pieces

/-! The elements in a template that its category accepts: each required one comes from the marker,
unless that is inside another span, and from spans in which its name is padded with blanks. -/
namespace Phraseology

open Text (occurrences trimChars)
open Template (Piece pieces tokens)

theorem ElementKind.ofName?_eq_some_iff {name : String} {k : ElementKind} :
    ofName? name = some k ↔ name = k.name := by
  constructor
  · intro h
    have hname := List.find?_some h
    exact (beq_iff_eq.1 hname).symm
  · rintro rfl
    cases k <;> decide

namespace Template

variable {k : ElementKind} {p : Piece} {t : String}

theorem Piece.token?_eq_element_iff :
    p.token? = some (.element k) ↔ ∃ s, p = .braces s ∧ trimChars s = k.name.toList := by
  cases p with
  | plain s => simp [token?]
  | braces s =>
    have hname : ElementKind.ofName? (String.ofList (trimChars s)) = some k ↔
        trimChars s = k.name.toList := by
      rw [ElementKind.ofName?_eq_some_iff, ← String.toList_inj, String.toList_ofList]
    simp only [token?, Piece.braces.injEq, exists_eq_left', ← hname]
    cases ElementKind.ofName? (String.ofList (trimChars s)) <;> simp
  | angles s =>
    rw [token?]
    split_ifs <;> simp
  | brackets s => simp [token?]

/-- The name of the element is between the braces, with blanks around it. -/
def Piece.pads (k : ElementKind) : Piece → Bool
  | .braces s => trimChars s == k.name.toList && s != k.name.toList
  | _ => false

theorem trimChars_name (k : ElementKind) : trimChars k.name.toList = k.name.toList := by
  cases k <;> decide

/-- An element is named by its marker, or by a span that pads its name. -/
theorem count_tokens (k : ElementKind) (t : String) :
    (tokens t).count (.element k) =
      (pieces t.toList).count (.braces k.name.toList) + (pieces t.toList).countP (Piece.pads k) := by
  have hown (p : Piece) : (p.token? == some (.element k) && p == .braces k.name.toList) =
      (p == .braces k.name.toList) := by
    rw [Bool.eq_iff_iff, Bool.and_eq_true, beq_iff_eq, beq_iff_eq, and_iff_right_iff_imp]
    rintro rfl
    exact Piece.token?_eq_element_iff.2 ⟨_, rfl, trimChars_name k⟩
  have hpads (p : Piece) : (p.token? == some (.element k) && !(p == .braces k.name.toList)) =
      p.pads k := by
    rw [Bool.eq_iff_iff, Bool.and_eq_true, beq_iff_eq, Piece.token?_eq_element_iff]
    cases p <;> simp [Piece.pads]
  rw [tokens, List.count_filterMap,
    List.countP_eq_countP_filter_add _ _ (· == .braces k.name.toList), List.countP_filter,
    List.countP_filter]
  simp only [hown, hpads]
  rfl

end Template

mutual

def Phrase.kinds : Phrase → List ElementKind
  | .text _ => []
  | .choice alternatives => kindsAmong alternatives
  | .sequence parts => kindsAmong parts
  | .repeated body _ _ => kinds body
  | .element kind _ => [kind]

def Phrase.kindsAmong : List Phrase → List ElementKind
  | [] => []
  | p :: rest => kinds p ++ kindsAmong rest

end

theorem Phrase.kindsAmong_texts (texts : List String) : kindsAmong (texts.map .text) = [] := by
  induction texts with
  | nil => rfl
  | cons t texts ih => rw [List.map_cons, kindsAmong, ih, kinds, List.nil_append]

theorem Grammar.kinds_phraseOf (e : Elements) (t : Template.Token) :
    (phraseOf e t).kinds = match t with
      | .element k => [k]
      | _ => [] := by
  cases t with
  | literal text => rfl
  | element k => rfl
  | choice alternatives => exact Phrase.kindsAmong_texts alternatives
  | optional text => rfl

/-- A grammar has a node for each element that its template names. -/
theorem Grammar.count_kinds_compile (e : Elements) (locale : String) (c : Category) (t : String)
    (index : Nat) (k : ElementKind) :
    (compile e locale c t index).phrase.kinds.count k = (tokens t).count (.element k) := by
  change (Phrase.kindsAmong ((tokens t).map (phraseOf e))).count k = _
  induction tokens t with
  | nil => rfl
  | cons token ts ih =>
    rw [List.map_cons, Phrase.kindsAmong, List.count_append, ih, kinds_phraseOf, List.count_cons,
      Nat.add_comm]
    cases token <;> simp [List.count_singleton]

theorem Template.exists_of_sum_eq_one {α : Type} {f : α → Nat} {xs : List α} (h : (xs.map f).sum = 1) :
    ∃ before x after, xs = before ++ x :: after ∧ f x = 1 ∧ ∀ y ∈ before ++ after, f y = 0 := by
  induction xs with
  | nil => cases h
  | cons x xs ih =>
    rw [List.map_cons, List.sum_cons] at h
    by_cases hx : f x = 0
    · obtain ⟨before, y, after, rfl, hy, hrest⟩ := ih (by omega)
      exact ⟨x :: before, y, after, rfl, hy, List.forall_mem_cons.2 ⟨hx, hrest⟩⟩
    · have hsum : (xs.map f).sum = 0 := by omega
      refine ⟨[], x, xs, rfl, by omega, fun y hy => ?_⟩
      exact List.sum_eq_zero_iff.1 hsum _ (List.mem_map_of_mem hy)

namespace Category

variable {c : Category} {t : String} {k : ElementKind}

/-- The marker of a required element is inside one piece and no other. -/
theorem exists_piece_of_accepts (h : c.accepts t = true) (hk : k ∈ c.required) :
    ∃ before p after, pieces t.toList = before ++ p :: after ∧ k.marker <:+: p.chars ∧
      ∀ q ∈ before ++ after, ¬ k.marker <:+: q.chars := by
  rw [accepts, Bool.and_eq_true, List.all_eq_true] at h
  have hone : occurrences k.marker t.toList = 1 := beq_iff_eq.1 (h.2 k hk)
  rw [← Template.sum_occurrences_pieces] at hone
  obtain ⟨before, p, after, hpieces, hp, hrest⟩ := Template.exists_of_sum_eq_one hone
  have hzero (q : Piece) := Text.occurrences_eq_zero_iff (s := q.chars) (Template.marker_ne_nil k)
  refine ⟨before, p, after, hpieces, ?_, fun q hq => (hzero q).1 (hrest q hq)⟩
  by_contra hnot
  rw [(hzero p).2 hnot] at hp
  cases hp

theorem count_tokens_of_accepts {before after : List Piece} {p : Piece}
    (hpieces : pieces t.toList = before ++ p :: after)
    (hrest : ∀ q ∈ before ++ after, ¬ k.marker <:+: q.chars) :
    (tokens t).count (.element k) =
      (if p = .braces k.name.toList then 1 else 0) + (pieces t.toList).countP (Piece.pads k) := by
  have hnot : .braces k.name.toList ∉ before ++ after := fun hmem => hrest _ hmem List.infix_rfl
  rw [Template.count_tokens, hpieces, List.count_append, List.count_cons]
  rw [List.mem_append, not_or] at hnot
  rw [List.count_eq_zero.2 hnot.1, List.count_eq_zero.2 hnot.2]
  simp only [beq_iff_eq, Nat.zero_add]

/-- In an accepted template the marker of a required element is inside one piece. The template, and
its grammar, have the element once if that piece is the marker itself, and once more for each span in
which blanks are around the name; so exactly once, if the marker is inside no other span and there
are no such blanks. -/
theorem elements_of_accepts (h : c.accepts t = true) (hk : k ∈ c.required) :
    (∃ before p after, pieces t.toList = before ++ p :: after ∧ k.marker <:+: p.chars ∧
      (∀ q ∈ before ++ after, ¬ k.marker <:+: q.chars) ∧
      (tokens t).count (.element k) =
        (if p = .braces k.name.toList then 1 else 0) + (pieces t.toList).countP (Piece.pads k)) ∧
      (∀ e locale index, (Grammar.compile e locale c t index).phrase.kinds.count k =
        (tokens t).count (.element k)) ∧
      ((∀ p ∈ pieces t.toList, k.marker <:+: p.chars → p = .braces k.name.toList) →
        (∀ p ∈ pieces t.toList, p.pads k = false) → (tokens t).count (.element k) = 1) := by
  obtain ⟨before, p, after, hpieces, hp, hrest⟩ := exists_piece_of_accepts h hk
  have hcount := count_tokens_of_accepts hpieces hrest
  refine ⟨⟨before, p, after, hpieces, hp, hrest, hcount⟩, ?_, fun hown hpads => ?_⟩
  · intro e locale index
    exact Grammar.count_kinds_compile e locale c t index k
  · have hself : p = .braces k.name.toList := hown p (by rw [hpieces]; simp) hp
    have hnone : (pieces t.toList).countP (Piece.pads k) = 0 :=
      List.countP_eq_zero.2 fun q hq => by simp [hpads q hq]
    rw [hcount, hnone, if_pos hself]

/-- The markers stand between other spans and plain text. -/
theorem elements_of_cleared :
    takeoff.accepts "\x7bAircraft\x7d [runway] \x7bRunway\x7d cleared <for takeoff>" = true ∧
      (tokens "\x7bAircraft\x7d [runway] \x7bRunway\x7d cleared <for takeoff>").count
        (.element .runway) = 1 := by
  have haccepts :
      takeoff.accepts "\x7bAircraft\x7d [runway] \x7bRunway\x7d cleared <for takeoff>" = true := by
    decide +kernel
  have hpieces :
      pieces "\x7bAircraft\x7d [runway] \x7bRunway\x7d cleared <for takeoff>".toList =
        [.braces "Aircraft".toList, .plain [' '], .brackets "runway".toList, .plain [' '],
          .braces "Runway".toList, .plain " cleared ".toList, .angles "for takeoff".toList] := by
    cbv
  refine ⟨haccepts, (elements_of_accepts haccepts (k := .runway) (by decide)).2.2 ?_ ?_⟩
  · rw [hpieces]
    decide +kernel
  · rw [hpieces]
    decide +kernel

/-- The marker inside a choice is no element, and the padded name is one more. -/
theorem elements_missed :
    (status.accepts "<\x7bAircraft\x7d>" = true ∧ .aircraft ∈ status.required ∧
        (tokens "<\x7bAircraft\x7d>").count (.element .aircraft) = 0) ∧
      status.accepts "\x7bAircraft\x7d \x7b Aircraft \x7d" = true ∧
        (tokens "\x7bAircraft\x7d \x7b Aircraft \x7d").count (.element .aircraft) = 2 := by
  have hinside : tokens "<\x7bAircraft\x7d>" = [.choice ["\x7bAircraft\x7d"]] := by cbv
  have hpadded : tokens "\x7bAircraft\x7d \x7b Aircraft \x7d" =
      [.element .aircraft, .element .aircraft] := by cbv
  rw [hinside, hpadded]
  exact ⟨⟨by decide +kernel, by decide, by decide⟩, by decide +kernel, by decide⟩

end Category

end Phraseology
