import Mathlib
import Phraseology.Template

/-! The pieces of a template, and the markers that occur in them: no marker reaches from one piece
into the next. -/
namespace Phraseology

open Text (occurrences)

namespace Text

variable {m u v s : List Char} {c : Char}

theorem occurrences_eq_zero_iff (hm : m ≠ []) : occurrences m s = 0 ↔ ¬ m <:+: s := by
  induction s with
  | nil => simp [occurrences, hm]
  | cons c s ih =>
    rw [occurrences, List.infix_cons_iff, ← List.isPrefixOf_iff_prefix]
    split_ifs with h
    · simp [h]
    · simp [h, ih]

theorem occurrences_cons_of_not_begins (h : ¬ m <+: c :: s) :
    occurrences m (c :: s) = occurrences m s := by
  rw [← List.isPrefixOf_iff_prefix] at h
  rw [occurrences, if_neg h, Nat.zero_add]

/-- What begins in the first text ends there, so the texts are counted one by one. -/
theorem occurrences_append (hm : m ≠ [])
    (h : ∀ t, t <:+ u → t ≠ [] → m <+: t ++ v → m <+: t) :
    occurrences m (u ++ v) = occurrences m u + occurrences m v := by
  induction u with
  | nil => simp [occurrences, hm]
  | cons c u ih =>
    have hfront : m.isPrefixOf (c :: u ++ v) = m.isPrefixOf (c :: u) := by
      rw [Bool.eq_iff_iff, List.isPrefixOf_iff_prefix, List.isPrefixOf_iff_prefix]
      exact ⟨h (c :: u) (List.suffix_refl _) (by simp), fun hp => hp.trans (List.prefix_append _ _)⟩
    have ih := ih fun t ht => h t (ht.trans (List.suffix_cons c u))
    rw [List.cons_append] at hfront ⊢
    rw [occurrences, occurrences, hfront, ih, Nat.add_assoc]

end Text

namespace Template

variable {c : Char} {s t rest content : List Char} {p : Piece} {k : ElementKind}

def Piece.close? : Piece → Option Char
  | .plain _ => none
  | .braces _ => some '}'
  | .angles _ => some '>'
  | .brackets _ => some ']'

theorem eq_of_upTo? {close : Char} (h : upTo? close s = some (content, rest)) :
    s = content ++ close :: rest ∧ close ∉ content := by
  have hs := List.takeWhile_append_dropWhile (p := (· != close)) (l := s)
  have hhead := List.head?_dropWhile_not (· != close) s
  unfold upTo? at h
  split at h
  · rename_i htake hdrop
    cases h
    rw [hdrop] at hhead hs
    rw [htake] at hs
    obtain rfl : _ = close := by simpa using hhead
    refine ⟨hs.symm, fun hmem => ?_⟩
    rw [← htake] at hmem
    simpa using List.mem_takeWhile_imp hmem
  · cases h

/-- A span is what is written from its bracket to the first that closes it. -/
theorem eq_of_span? (h : span? s = some (p, rest)) :
    s = p.chars ++ rest ∧ ∃ opening close content, p.close? = some close ∧
      p.chars = opening :: (content ++ [close]) ∧ close ∉ content := by
  unfold span? at h
  split at h
  all_goals first
    | cases h
    | obtain ⟨⟨content, rest'⟩, hq, he⟩ := Option.map_eq_some_iff.1 h
      cases he
      obtain ⟨rfl, hmem⟩ := eq_of_upTo? hq
      exact ⟨by simp [Piece.chars], _, _, content, rfl, rfl, hmem⟩

@[simp] theorem pieces_nil : pieces [] = [] := by
  rw [pieces]

theorem pieces_span (h : span? s = some (p, rest)) : pieces s = p :: pieces rest := by
  cases s with
  | nil => cases h
  | cons c t =>
    rw [pieces]
    split
    · rename_i hspan
      rw [h] at hspan
      cases hspan
      rfl
    · rename_i hspan
      rw [h] at hspan
      cases hspan

theorem pieces_plain (h : span? (c :: t) = none) : pieces (c :: t) = plainCons c (pieces t) := by
  rw [pieces]
  split
  · rename_i hspan
    rw [h] at hspan
    cases hspan
  · rfl

/-- A template begins with a span or with a character that is in none. -/
@[elab_as_elim]
theorem piece_induction {motive : List Char → Prop} (nil : motive [])
    (span : ∀ s p rest, span? s = some (p, rest) → motive rest → motive s)
    (plain : ∀ c t, span? (c :: t) = none → motive t → motive (c :: t)) (s : List Char) :
    motive s := by
  induction hn : s.length using Nat.strong_induction_on generalizing s with
  | _ n ih =>
    subst hn
    cases hs : span? s with
    | some q => exact span s q.1 q.2 hs (ih _ (length_of_span? hs) q.2 rfl)
    | none =>
      cases s with
      | nil => exact nil
      | cons c t => exact plain c t hs (ih _ (by simp) t rfl)

/-- A character joins the plain text after it, if there is any. -/
theorem plainCons_cases (c : Char) (ps : List Piece) :
    ∃ u rest, plainCons c ps = .plain (c :: u) :: rest ∧
      (ps = .plain u :: rest ∨ u = [] ∧ ps = rest) := by
  unfold plainCons
  split
  · exact ⟨_, _, rfl, .inl rfl⟩
  · exact ⟨[], ps, rfl, .inr ⟨rfl, rfl⟩⟩

theorem flatMap_chars_plainCons (c : Char) (ps : List Piece) :
    (plainCons c ps).flatMap Piece.chars = c :: ps.flatMap Piece.chars := by
  obtain ⟨u, rest, hcons, rfl | ⟨rfl, rfl⟩⟩ := plainCons_cases c ps <;> rw [hcons] <;> rfl

/-- Nothing is lost of a template. -/
theorem flatMap_chars_pieces (s : List Char) : (pieces s).flatMap Piece.chars = s := by
  induction s using piece_induction with
  | nil => rw [pieces_nil, List.flatMap_nil]
  | span s p rest h ih => rw [pieces_span h, List.flatMap_cons, ih, ← (eq_of_span? h).1]
  | plain c t h ih => rw [pieces_plain h, flatMap_chars_plainCons, ih]

theorem marker_ne_nil (k : ElementKind) : k.marker ≠ [] := List.cons_ne_nil _ _

/-- A marker is a span of its own, unless it is inside another one. -/
theorem span?_marker (k : ElementKind) (rest : List Char) :
    span? (k.marker ++ rest) = some (.braces k.name.toList, rest) := by
  cases k <;> rfl

/-- No span is closed within a marker. -/
theorem close_not_mem_dropLast {close : Char} (h : p.close? = some close) (k : ElementKind) :
    close ∉ k.marker.dropLast := by
  have hnone : ∀ k : ElementKind, '}' ∉ k.marker.dropLast ∧ '>' ∉ k.marker.dropLast ∧
      ']' ∉ k.marker.dropLast := by
    intro k
    cases k <;> decide
  obtain ⟨hbraces, hangles, hbrackets⟩ := hnone k
  cases p with
  | plain => cases h
  | braces => exact Option.some.inj h ▸ hbraces
  | angles => exact Option.some.inj h ▸ hangles
  | brackets => exact Option.some.inj h ▸ hbrackets

theorem occurrences_span (h : span? s = some (p, rest)) (k : ElementKind) :
    occurrences k.marker s = occurrences k.marker p.chars + occurrences k.marker rest := by
  obtain ⟨rfl, opening, close, content, hclose, hchars, -⟩ := eq_of_span? h
  refine Text.occurrences_append (marker_ne_nil k) fun t ht hne hfront => ?_
  -- what begins in the span is as long as the rest of the span, or the marker would be closed
  rcases List.prefix_or_prefix_of_prefix hfront (List.prefix_append t rest) with hin | hout
  · exact hin
  · obtain ⟨x, hx⟩ := hout
    cases x using List.reverseRecOn with
    | nil => rw [← hx, List.append_nil]
    | append_singleton x y =>
      refine absurd ?_ (close_not_mem_dropLast hclose k)
      obtain ⟨w, hw⟩ := ht
      have hlast : t.getLast hne = close := by
        have : (w ++ t).getLast (by simp [hne]) = close := by
          simp only [hw, hchars]
          simp
        rwa [List.getLast_append_of_ne_nil _ hne] at this
      rw [← hx, ← List.append_assoc, List.dropLast_concat, ← hlast]
      exact List.mem_append_left x (List.getLast_mem hne)

theorem not_prefix_marker (h : span? (c :: t) = none) (k : ElementKind) :
    ¬ k.marker <+: c :: t := by
  rintro ⟨rest, hrest⟩
  rw [← hrest, span?_marker] at h
  cases h

/-- The occurrences of a marker are those in the pieces. -/
theorem sum_occurrences_pieces (k : ElementKind) (s : List Char) :
    ((pieces s).map fun p => occurrences k.marker p.chars).sum = occurrences k.marker s := by
  induction s using piece_induction with
  | nil => rw [pieces_nil]; rfl
  | span s p rest h ih =>
    rw [pieces_span h, List.map_cons, List.sum_cons, ih, occurrences_span h]
  | plain c t h ih =>
    have hnone : ∀ u, u <+: t → ¬ k.marker <+: c :: u := fun u hu hmarker =>
      not_prefix_marker h k (hmarker.trans (List.prefix_cons_inj c |>.2 hu))
    have hchars := flatMap_chars_pieces t
    rw [pieces_plain h, Text.occurrences_cons_of_not_begins (not_prefix_marker h k), ← ih]
    obtain ⟨u, rest, hcons, hpieces | ⟨rfl, hpieces⟩⟩ := plainCons_cases c (pieces t)
    · rw [hpieces, List.flatMap_cons] at hchars
      rw [hcons, hpieces, List.map_cons, List.map_cons, List.sum_cons, List.sum_cons, Piece.chars,
        Text.occurrences_cons_of_not_begins (hnone u ⟨_, hchars⟩)]
      rfl
    · rw [hcons, hpieces, List.map_cons, List.sum_cons, Piece.chars,
        Text.occurrences_cons_of_not_begins (hnone [] List.nil_prefix), Text.occurrences,
        if_neg (by simp [marker_ne_nil]), Nat.zero_add]

end Template

end Phraseology
