import Phraseology.Proofs.Text.Alike
import Phraseology.Text.Cursor

/-! Places in a text by what comes before and after them, and where the steps from a place lead. -/
namespace Phraseology.Text

/-- Two texts differ at most in case. -/
def Alike (u v : List Char) : Prop := u.map fold = v.map fold

instance (u v : List Char) : Decidable (Alike u v) := inferInstanceAs (Decidable (_ = _))

variable {u v w s b : List Char} {p : Char → Bool}

theorem Alike.refl (u : List Char) : Alike u u := rfl

theorem Alike.symm (h : Alike u v) : Alike v u := Eq.symm h

theorem Alike.trans (h₁ : Alike u v) (h₂ : Alike v w) : Alike u w := Eq.trans h₁ h₂

theorem Alike.length_eq (h : Alike u v) : u.length = v.length := by
  simpa using congrArg List.length h

theorem Alike.eq_nil_iff (h : Alike u v) : u = [] ↔ v = [] := by
  rw [← List.length_eq_zero_iff, h.length_eq, List.length_eq_zero_iff]

theorem alike_cons_iff {c d : Char} :
    Alike (c :: u) (d :: v) ↔ alike c d = true ∧ Alike u v := by
  rw [alike_iff]
  exact List.cons_eq_cons

theorem Alike.all_isWordChar (h : Alike u v) : u.all isWordChar = v.all isWordChar := by
  have hfold (t : List Char) : t.all isWordChar = (t.map fold).all isWordChar := by
    simp [List.all_map, Function.comp_def, isWordChar_fold]
  rw [hfold u, hfold v, h]

/-- A word without blanks or anything else that words are told apart by. -/
structure PlainWord (w : List Char) : Prop where
  ne_nil : w ≠ []
  all : ∀ c ∈ w, isWordChar c = true

theorem plainWord_iff : PlainWord w ↔ (!w.isEmpty && w.all isWordChar) = true := by
  rw [Bool.and_eq_true, Bool.not_eq_true', List.isEmpty_eq_false_iff, List.all_eq_true]
  exact ⟨fun h => ⟨h.ne_nil, h.all⟩, fun h => ⟨h.1, h.2⟩⟩

instance (w : List Char) : Decidable (PlainWord w) := decidable_of_iff _ plainWord_iff.symm

theorem PlainWord.of_alike (h : PlainWord u) (huv : Alike u v) : PlainWord v where
  ne_nil := mt huv.eq_nil_iff.2 h.ne_nil
  all := by
    rw [← List.all_eq_true, ← huv.all_isWordChar, List.all_eq_true]
    exact h.all

namespace Cursor

/-- The place with that before it, last character first, and that after it. -/
def place (before after : List Char) : Cursor :=
  ⟨before, after, byteCount before, rfl⟩

@[simp, grind =] theorem place_before (b s : List Char) : (place b s).before = b := rfl

@[simp, grind =] theorem place_after (b s : List Char) : (place b s).after = s := rfl

@[simp] theorem place_eta (c : Cursor) : place c.before c.after = c := by
  obtain ⟨b, s, n, rfl⟩ := c
  rfl

theorem place_inj {b' s' : List Char} : place b s = place b' s' ↔ b = b' ∧ s = s' := by
  constructor
  · intro h
    exact ⟨congrArg before h, congrArg after h⟩
  · rintro ⟨rfl, rfl⟩
    rfl

theorem start_eq (s : List Char) : start s = place [] s := rfl

@[simp] theorem push_place (c : Char) (t : List Char) : (place b s).push c t = place (c :: b) t := by
  rw [← place_eta ((place b s).push c t)]
  rfl

@[simp] theorem next?_place_cons (c : Char) : (place b (c :: s)).next? = some (place (c :: b) s) :=
  congrArg some (push_place c s)

/-- The place behind a text that comes next. -/
abbrev behind (u b s : List Char) : Cursor := place (u.reverse ++ b) s

theorem behind_cons (c : Char) : behind (c :: u) b s = behind u (c :: b) s := by
  simp [behind]

@[simp] theorem behind_append : behind (u ++ v) b s = behind v (u.reverse ++ b) s := by
  simp [behind]

@[simp] theorem offset_behind :
    (behind u b s).offset = (place b s).offset + byteCount u := by
  simp only [place, byteCount_append, byteCount_reverse]
  omega

theorem offset_le_behind (t : List Char) : (place b t).offset ≤ (behind u b s).offset := by
  rw [offset_behind]
  exact Nat.le_add_right (place b t).offset _

/-- What is left of a text tells how far one has come in it. -/
theorem offset_lt_of_ne_nil (hu : u ≠ []) : (place b (u ++ s)).offset < (behind u b s).offset := by
  obtain ⟨c, u, rfl⟩ := List.exists_cons_of_ne_nil hu
  have := c.utf8Size_pos
  rw [offset_behind, byteCount_cons]
  simp only [place]
  omega

theorem word?_place (h : Alike w u) : word? w (place b (u ++ s)) = some (behind u b s) := by
  induction w generalizing u b with
  | nil =>
    obtain rfl := h.eq_nil_iff.1 rfl
    rfl
  | cons c w ih =>
    obtain ⟨d, u, rfl⟩ : ∃ d v, u = d :: v := by
      refine List.exists_cons_of_ne_nil ?_
      rintro rfl
      exact absurd h.length_eq (by simp)
    obtain ⟨hcd, hwu⟩ := alike_cons_iff.1 h
    simp only [word?, List.cons_append, place_after, hcd, if_true]
    rw [push_place, ih hwu, behind_cons]

theorem word?_eq_some_iff {d : Cursor} :
    word? w (place b s) = some d ↔ ∃ u t, s = u ++ t ∧ Alike w u ∧ d = behind u b t := by
  constructor
  · intro h
    induction w generalizing b s with
    | nil => exact ⟨[], s, rfl, rfl, (Option.some.inj h).symm⟩
    | cons c w ih =>
      cases s with
      | nil => cases h
      | cons x s =>
        simp only [word?, place_after] at h
        split_ifs at h with hcx
        rw [push_place] at h
        obtain ⟨u, t, rfl, hwu, rfl⟩ := ih h
        exact ⟨x :: u, t, rfl, alike_cons_iff.2 ⟨hcx, hwu⟩, (behind_cons x).symm⟩
  · rintro ⟨u, t, rfl, hwu, rfl⟩
    exact word?_place hwu

theorem anyWord_cons_some {c d : Cursor} {ws : List (List Char)} (h : word? w c = some d) :
    anyWord (w :: ws) c = d :: anyWord ws c :=
  List.filterMap_cons_some (f := fun w => word? w c) h

theorem anyWord_cons_none {c : Cursor} {ws : List (List Char)} (h : word? w c = none) :
    anyWord (w :: ws) c = anyWord ws c :=
  List.filterMap_cons_none (f := fun w => word? w c) h

theorem mem_anyWord {ws : List (List Char)} {d : Cursor} :
    d ∈ anyWord ws (place b s) ↔ ∃ w ∈ ws, ∃ u t, s = u ++ t ∧ Alike w u ∧ d = behind u b t := by
  simp only [anyWord, List.mem_filterMap, word?_eq_some_iff]

theorem reach_place (found : List Cursor) :
    ∃ rest, reach p found (place b s) s =
        behind (s.takeWhile p) b (s.dropWhile p) :: (rest ++ found) ∧
      (rest = [] → s.takeWhile p = []) ∧
      ∀ e ∈ rest, ∃ v c t, s = v ++ c :: t ∧ (∀ x ∈ v, p x = true) ∧ p c = true ∧
        e = behind v b (c :: t) := by
  induction s generalizing b found with
  | nil => exact ⟨[], rfl, by simp, by simp⟩
  | cons c s ih =>
    by_cases hc : p c = true
    · obtain ⟨rest, hrest, -, hall⟩ := ih (b := c :: b) (place b (c :: s) :: found)
      refine ⟨rest ++ [place b (c :: s)], ?_, by simp, ?_⟩
      · rw [reach, if_pos hc, push_place, hrest, List.takeWhile_cons_of_pos hc,
          List.dropWhile_cons_of_pos hc, behind_cons, List.append_assoc, List.singleton_append]
      · intro e he
        rcases List.mem_append.1 he with he | he
        · obtain ⟨v, x, t, rfl, hv, hx, rfl⟩ := hall e he
          refine ⟨c :: v, x, t, rfl, ?_, hx, (behind_cons c).symm⟩
          exact List.forall_mem_cons.2 ⟨hc, hv⟩
        · rw [List.mem_singleton.1 he]
          exact ⟨[], c, s, rfl, by simp, hc, rfl⟩
    · exact ⟨[], by rw [reach, if_neg hc, List.takeWhile_cons_of_neg hc,
        List.dropWhile_cons_of_neg hc]; rfl, fun _ => List.takeWhile_cons_of_neg hc, by simp⟩

/-- A run leads to the place where it ends; from all other places that it leads to it goes on. -/
theorem run_place :
    ∃ rest, (place b s).run p = behind (s.takeWhile p) b (s.dropWhile p) :: rest ∧
      (rest = [] → s.takeWhile p = []) ∧
      ∀ e ∈ rest, ∃ v c t, s = v ++ c :: t ∧ (∀ x ∈ v, p x = true) ∧ p c = true ∧
        e = behind v b (c :: t) := by
  obtain ⟨rest, hrest, hnil, hall⟩ := reach_place (p := p) (b := b) (s := s) []
  exact ⟨rest, by simpa [run] using hrest, hnil, hall⟩

theorem run_of_not (h : ∀ c ∈ s.head?, p c = false) : (place b s).run p = [place b s] := by
  cases s with
  | nil => rfl
  | cons c s =>
    rw [run, place_after, reach, if_neg (by simp [h c rfl])]

theorem skipBlanks_place :
    (place b s).skipBlanks = behind (s.takeWhile isBlank) b (s.dropWhile isBlank) := by
  obtain ⟨rest, hrest, -, -⟩ := run_place (p := isBlank) (b := b) (s := s)
  rw [skipBlanks, blanks, hrest, List.headD_cons]

@[simp] theorem takeBytes_append (u s : List Char) :
    takeBytes (byteCount u) (u ++ s) = u := by
  induction u with
  | nil => cases s <;> simp [takeBytes]
  | cons c u ih =>
    have := c.utf8Size_pos
    have hsum : c.utf8Size + byteCount u ≠ 0 := by omega
    simp only [byteCount_cons, List.cons_append, takeBytes, hsum, if_false,
      Nat.add_sub_cancel_left, ih]

@[simp] theorem upTo_behind : (place b (u ++ s)).upTo (behind u b s) = u := by
  rw [upTo, offset_behind, show (place b (u ++ s)).offset = (place b s).offset from rfl,
    Nat.add_sub_cancel_left]
  exact takeBytes_append u s

theorem atBoundary_place :
    (place b s).atBoundary = (b.head?.any isWordChar != s.head?.any isWordChar) := by
  unfold atBoundary
  cases b <;> cases s <;> rfl

end Cursor

end Phraseology.Text
