import Phraseology.Proofs.Text.Hits
import Phraseology.Proofs.Text.Repeat

/-! Steps that never lead back, and where any number of them can lead. -/
namespace Phraseology.Text.Cursor

variable {p : Char → Bool} {b s u text : List Char} {c d e : Cursor} {cs : List Cursor}
  {step : Cursor → List Cursor} {n : Nat}

def On (text : List Char) (c : Cursor) : Prop := c.before.reverse ++ c.after = text

theorem on_behind {u b s : List Char} : On (b.reverse ++ (u ++ s)) (behind u b s) := by
  simp [On]

/-- Two places of one text with as many bytes before them are one. -/
theorem On.eq_of_offset_eq {text : List Char} {c d : Cursor} (hc : On text c) (hd : On text d)
    (h : c.offset = d.offset) : c = d := by
  have hnil {u : List Char} (hu : byteCount u = 0) : u = [] := by
    cases u with
    | nil => rfl
    | cons x u =>
      have := x.utf8Size_pos
      rw [byteCount_cons] at hu
      omega
  rw [c.offset_eq, d.offset_eq] at h
  rw [← place_eta c, ← place_eta d, place_inj]
  have hbefore : c.before.reverse = d.before.reverse := by
    rcases List.append_eq_append_iff.1 (hc.trans hd.symm) with ⟨x, hx, -⟩ | ⟨x, hx, -⟩
    · have hsum := congrArg byteCount hx
      simp only [byteCount_append, byteCount_reverse] at hsum
      rw [hx, hnil (u := x) (by omega), List.append_nil]
    · have hsum := congrArg byteCount hx
      simp only [byteCount_append, byteCount_reverse] at hsum
      rw [hx, hnil (u := x) (by omega), List.append_nil]
  have hb : c.before = d.before := by simpa using congrArg List.reverse hbefore
  refine ⟨hb, ?_⟩
  have hafter : d.before.reverse ++ c.after = d.before.reverse ++ d.after := by
    rw [← hb]
    exact hc.trans (hb ▸ hd.symm)
  exact List.append_cancel_left hafter

/-- The place `d` is not before `c` in the same text. -/
def Onward (c d : Cursor) : Prop := ∃ u s, c.after = u ++ s ∧ d = behind u c.before s

theorem onward_place (u b s : List Char) : (place b (u ++ s)).Onward (behind u b s) :=
  ⟨u, s, rfl, rfl⟩

theorem Onward.refl (c : Cursor) : c.Onward c := ⟨[], c.after, rfl, (place_eta c).symm⟩

theorem Onward.trans (h₁ : c.Onward d) (h₂ : d.Onward e) : c.Onward e := by
  obtain ⟨u, s, hc, rfl⟩ := h₁
  obtain ⟨v, t, hs, rfl⟩ := h₂
  rw [place_after] at hs
  refine ⟨u ++ v, t, ?_, ?_⟩
  · rw [hc, hs, List.append_assoc]
  · rw [behind_append]
    rfl

theorem Onward.on (h : c.Onward d) (hc : On text c) : On text d := by
  obtain ⟨u, s, hs, rfl⟩ := h
  rw [On, hs] at hc
  rw [← hc]
  exact on_behind

theorem Ahead.onward (h : c.Ahead d) : c.Onward d := by
  obtain ⟨u, s, -, hc, hd⟩ := h
  exact ⟨u, s, hc, hd⟩

theorem Ahead.trans_onward (h₁ : c.Ahead d) (h₂ : d.Onward e) : c.Ahead e := by
  obtain ⟨u, s, hu, hc, rfl⟩ := h₁
  obtain ⟨v, t, hs, rfl⟩ := h₂
  rw [place_after] at hs
  refine ⟨u ++ v, t, by simp [hu], ?_, ?_⟩
  · rw [hc, hs, List.append_assoc]
  · rw [behind_append]
    rfl

theorem Onward.trans_ahead (h₁ : c.Onward d) (h₂ : d.Ahead e) : c.Ahead e := by
  obtain ⟨u, s, hc, rfl⟩ := h₁
  obtain ⟨v, t, hv, hs, rfl⟩ := h₂
  rw [place_after] at hs
  refine ⟨u ++ v, t, by simp [hv], ?_, ?_⟩
  · rw [hc, hs, List.append_assoc]
  · rw [behind_append]
    rfl

theorem infix_of_on (h : On text c) : c.after <:+: text :=
  ⟨c.before.reverse, [], by rw [List.append_nil]; exact h⟩

/-- No hit is before the place from which hits are looked for. -/
theorem Advancing.onward_of_mem_hitsAt {α : Type} {hit? : Cursor → Option α} {stop : α → Cursor}
    (ha : Advancing hit? stop) {r : Cursor × α} (h : r ∈ hitsAt hit? stop c) : c.Onward r.1 := by
  induction hn : c.after.length using Nat.strong_induction_on generalizing c with
  | _ n ih =>
    subst hn
    cases hc : hit? c with
    | some a =>
      rw [ha.hitsAt_of_some hc] at h
      rcases List.mem_cons.1 h with rfl | h
      · exact .refl c
      · exact (ha c a hc).onward.trans (ih _ (ha c a hc).length_lt h rfl)
    | none =>
      rw [← place_eta c] at h hc ih ⊢
      cases hs : c.after with
      | nil =>
        rw [hs] at h hc
        rw [ha.hitsAt_nil hc] at h
        cases h
      | cons x s =>
        rw [hs] at h hc ih
        rw [ha.hitsAt_cons hc] at h
        have hnext : (place c.before (x :: s)).Onward (place (x :: c.before) s) :=
          onward_place [x] c.before s
        exact hnext.trans (ih _ (by simp) h rfl)

theorem exists_of_mem_run (h : d ∈ c.run p) :
    ∃ u t, c.after = u ++ t ∧ (∀ x ∈ u, p x = true) ∧ d = behind u c.before t := by
  rw [← place_eta c] at h
  obtain ⟨rest, hrest, -, hall⟩ := run_place (p := p) (b := c.before) (s := c.after)
  rw [hrest] at h
  rcases List.mem_cons.1 h with rfl | h
  · exact ⟨_, _, List.takeWhile_append_dropWhile.symm, fun x => List.mem_takeWhile_imp, rfl⟩
  · obtain ⟨v, x, t, hv, hall, -, rfl⟩ := hall d h
    exact ⟨v, x :: t, hv, hall, rfl⟩

theorem onward_of_mem_run (h : d ∈ c.run p) : c.Onward d := by
  obtain ⟨u, t, hc, -, rfl⟩ := exists_of_mem_run h
  exact ⟨u, t, hc, rfl⟩

/-- A step never leads back. -/
def Onwards (step : Cursor → List Cursor) : Prop := ∀ c, ∀ d ∈ step c, c.Onward d

theorem Onwards.exactly (hs : Onwards step) (hd : d ∈ Cursor.exactly step n cs) :
    ∃ c ∈ cs, c.Onward d := by
  induction n generalizing cs with
  | zero => exact ⟨d, hd, .refl d⟩
  | succ n ih =>
    have hnext : ∀ e ∈ distinct (cs.flatMap step), ∃ c ∈ cs, c.Onward e := by
      intro e he
      obtain ⟨c, hc, he⟩ := List.mem_flatMap.1 (mem_of_mem_distinctFrom he)
      exact ⟨c, hc, hs c e he⟩
    simp only [Cursor.exactly] at hd
    split_ifs at hd
    · exact hnext d hd
    · obtain ⟨e, he, hed⟩ := ih hd
      obtain ⟨c, hc, hce⟩ := hnext e he
      exact ⟨c, hc, hce.trans hed⟩

theorem Onwards.exactly_succ (hs : Onwards step) (hd : d ∈ Cursor.exactly step (n + 1) cs) :
    ∃ c ∈ cs, ∃ e ∈ step c, e.Onward d := by
  have hnext : ∀ e ∈ distinct (cs.flatMap step), ∃ c ∈ cs, e ∈ step c := by
    intro e he
    exact List.mem_flatMap.1 (mem_of_mem_distinctFrom he)
  simp only [Cursor.exactly] at hd
  split_ifs at hd
  · obtain ⟨c, hc, hd⟩ := hnext d hd
    exact ⟨c, hc, d, hd, .refl d⟩
  · obtain ⟨e, he, hed⟩ := hs.exactly hd
    obtain ⟨c, hc, he⟩ := hnext e he
    exact ⟨c, hc, e, he, hed⟩

theorem Onwards.atMost (hs : Onwards step) (n : Nat) (c : Cursor) :
    c.Onward (Cursor.atMost step n c) := by
  induction n generalizing c with
  | zero => exact .refl c
  | succ n ih =>
    simp only [Cursor.atMost]
    split
    · exact .refl c
    · rename_i d hd
      split_ifs
      · exact .refl c
      · exact (hs c d (List.mem_of_mem_head? hd)).trans (ih d)

/-- At least one step has been taken. -/
theorem Onwards.between? (hs : Onwards step) {min max : Nat} (hmin : 1 ≤ min)
    (h : Cursor.between? step min max c = some d) : ∃ e ∈ step c, e.Onward d := by
  obtain ⟨n, rfl⟩ := Nat.exists_eq_add_of_le' hmin
  obtain ⟨f, hf, rfl⟩ := Option.map_eq_some_iff.1 h
  obtain ⟨c', hc', e, he, hef⟩ := hs.exactly_succ (List.mem_of_mem_head? hf)
  rw [List.mem_singleton.1 hc'] at he
  exact ⟨e, he, hef.trans (hs.atMost _ f)⟩

theorem exists_of_distinctFrom {seen : Std.HashSet Nat} (hd : d ∈ cs)
    (hseen : d.offset ∉ seen) : ∃ e ∈ distinctFrom seen cs, e.offset = d.offset := by
  induction cs generalizing seen with
  | nil => cases hd
  | cons c cs ih =>
    simp only [distinctFrom]
    split_ifs with hc
    · rcases List.mem_cons.1 hd with rfl | hd
      · exact absurd (Std.HashSet.mem_iff_contains.2 hc) hseen
      · exact ih hd hseen
    · by_cases hcd : c.offset = d.offset
      · exact ⟨c, by simp, hcd⟩
      · rcases List.mem_cons.1 hd with rfl | hd
        · exact absurd rfl hcd
        · have hinsert : d.offset ∉ seen.insert c.offset := by simp [hcd, hseen]
          obtain ⟨e, he, hed⟩ := ih hd hinsert
          exact ⟨e, List.mem_cons_of_mem c he, hed⟩

end Phraseology.Text.Cursor
