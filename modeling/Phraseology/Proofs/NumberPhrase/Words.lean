import Phraseology.NumberPhrase
import Phraseology.Proofs.Text.Hits
import Phraseology.Proofs.Text.Item
import Phraseology.Proofs.Text.Repeat
import Phraseology.Proofs.Text.Search

/-! Number phrases whose words are plain: where the script is spaced, they are met only by a word of
the text as long as it is. -/
namespace Phraseology.NumberPhrase

open Text
open Text.Cursor

/-- The words to look for have no blanks in them, and there is at least one digit. -/
structure Plain (p : NumberPhrase) : Prop where
  script_eq : p.script = .spaced
  digits_ne : p.digits ≠ []
  digits : ∀ d ∈ p.digits, PlainWord d.word.toList
  leading : ∀ spellings ∈ p.leading, ∀ s ∈ spellings, PlainWord s.spoken.toList
  min_pos : 1 ≤ p.min
  min_le : p.min ≤ p.max

variable {p : NumberPhrase} {ws : List (List Char)} {b s t r u : List Char}

theorem mem_words_digits (hp : p.digits ≠ []) {w : List Char} :
    w ∈ p.words.digits ↔ ∃ d ∈ p.digits, d.word.toList = w := by
  rw [words, mem_alternativesOrEmpty (by simpa using hp)]
  simp

theorem Plain.of_mem_digits (hp : p.Plain) {w : List Char} (hw : w ∈ p.words.digits) :
    PlainWord w := by
  obtain ⟨d, hd, rfl⟩ := (mem_words_digits hp.digits_ne).1 hw
  exact hp.digits d hd

theorem mem_spokenWords {spellings : List Spelling} (h : spellings ≠ []) {w : List Char} :
    w ∈ spokenWords spellings ↔ ∃ x ∈ spellings, x.spoken.toList = w := by
  rw [spokenWords, mem_alternativesOrEmpty (by simpa using h)]
  simp

theorem anyWord_nil (hws : ∀ w ∈ ws, w ≠ []) : anyWord ws (place b []) = [] := by
  rw [List.eq_nil_iff_forall_not_mem]
  intro d hd
  obtain ⟨w, hw, v, t, hvt, hwv, -⟩ := mem_anyWord.1 hd
  exact hws w hw (hwv.eq_nil_iff.2 (List.append_eq_nil_iff.1 hvt.symm).1)

/-- A search for words that are not empty advances. -/
theorem advancing_anyWord (hws : ∀ w ∈ ws, w ≠ []) :
    Advancing (fun c => (anyWord ws c).head?) id := by
  intro c d hd
  rw [← place_eta c] at hd
  obtain ⟨w, hw, v, t, hvt, hwv, hdv⟩ := mem_anyWord.1 (List.mem_of_head? hd)
  exact ⟨v, t, mt hwv.eq_nil_iff.2 (hws w hw), hvt, hdv⟩

theorem wholeWord_of_not_run (hws : ∀ w ∈ ws, PlainWord w) (h : ¬ StartsWord s ∨ StartsWord b) :
    wholeWord .spaced ws (place b s) = [] := by
  have hs : (place b s).atBoundary = true → ¬ StartsWord s := by
    rw [atBoundary_eq]
    rcases h with h | h <;> simp [h]
  simp only [wholeWord]
  split_ifs with hboundary
  · have hnone : anyWord ws (place b s) = [] := by
      rw [anyWord, List.filterMap_eq_nil_iff]
      intro w hw
      rw [Option.eq_none_iff_forall_ne_some]
      intro d hd
      obtain ⟨u, t, rfl, hwu, -⟩ := word?_eq_some_iff.1 hd
      exact hs hboundary (((hws w hw).of_alike hwu).startsWord t)
    rw [hnone, List.filter_nil]
  · rfl

/-- A text that begins with a whole word has no longer or shorter one at its beginning. -/
theorem eq_of_whole {v q : List Char} (hr : PlainWord r) (hv : PlainWord v)
    (h : r ++ t = v ++ q) (ht : ¬ StartsWord t) (hq : ¬ StartsWord q) : v = r := by
  rcases List.append_eq_append_iff.1 h with ⟨x, rfl, hx⟩ | ⟨x, rfl, hx⟩
  · cases x with
    | nil => simp
    | cons c x =>
      rw [hx, List.cons_append, startsWord_cons_iff] at ht
      exact absurd (hv.all c (by simp)) ht
  · cases x with
    | nil => simp
    | cons c x =>
      rw [hx, List.cons_append, startsWord_cons_iff] at hq
      exact absurd (hr.all c (by simp)) hq

theorem wholeWord_of_run (hws : ∀ w ∈ ws, PlainWord w) (hr : PlainWord r) (ht : ¬ StartsWord t)
    (hb : ¬ StartsWord b) :
    wholeWord .spaced ws (place b (r ++ t)) =
      List.replicate (ws.countP fun w => decide (Alike w r)) (behind r b t) := by
  simp only [wholeWord, hr.atBoundary_place hb t, if_true]
  induction ws with
  | nil => rfl
  | cons w ws ih =>
    have ih := ih fun w hw => hws w (List.mem_cons_of_mem _ hw)
    by_cases hw : Alike w r
    · rw [anyWord_cons_some (word?_place hw), List.countP_cons_of_pos (by simpa using hw),
        List.replicate_succ,
        List.filter_cons_of_pos (by rw [hr.atBoundary_behind]; simpa using ht), ih]
    · rw [List.countP_cons_of_neg (by simpa using hw), ← ih]
      cases hd : word? w (place b (r ++ t)) with
      | none => rw [anyWord_cons_none hd]
      | some d =>
        obtain ⟨v, q, hvq, hwv, rfl⟩ := word?_eq_some_iff.1 hd
        have hv : PlainWord v := (hws w (by simp)).of_alike hwv
        have hq : StartsWord q := by
          by_contra hq
          rw [eq_of_whole hr hv hvq ht hq] at hwv
          exact hw hwv
        rw [anyWord_cons_some hd,
          List.filter_cons_of_neg (by rw [hv.atBoundary_behind]; simpa using hq)]

abbrev pastBlanks (r b t : List Char) : Cursor :=
  behind (t.takeWhile isBlank) (r.reverse ++ b) (t.dropWhile isBlank)

theorem digitEnds_of_not_run {ws : Words} (hws : ∀ w ∈ ws.digits, PlainWord w)
    (h : ¬ StartsWord s ∨ StartsWord b) : digitEnds .spaced ws (place b s) = [] := by
  rw [digitEnds, wholeWord_of_not_run hws h, List.flatMap_nil]

theorem blanks_behind (r b t : List Char) :
    ∃ rest, (behind r b t).blanks = pastBlanks r b t :: rest ∧
      ∀ e ∈ rest, ∃ b' s', e = place b' s' ∧ ¬ StartsWord s' := by
  obtain ⟨rest, hrest, -, hall⟩ := run_place (p := isBlank) (b := r.reverse ++ b) (s := t)
  refine ⟨rest, hrest, fun e he => ?_⟩
  obtain ⟨v, c, q, -, -, hc, rfl⟩ := hall e he
  exact ⟨_, _, rfl, not_startsWord_of_blank hc⟩

/-- Behind a word that stands here so many times only the place past all blanks counts. -/
theorem digitEnds_of_replicate {script : Script} {ws : Words} {n : Nat}
    (hwhole : wholeWord script ws.digits (place b (r ++ t)) = List.replicate n (behind r b t))
    (hdead : ∀ b s, ¬ StartsWord s → digitEnds script ws (place b s) = []) :
    n = 0 ∧ digitEnds script ws (place b (r ++ t)) = [] ∨
      n ≠ 0 ∧ ∃ rest, digitEnds script ws (place b (r ++ t)) = pastBlanks r b t :: rest ∧
        ∀ e ∈ rest, e = pastBlanks r b t ∨ digitEnds script ws e = [] := by
  rw [digitEnds, hwhole]
  cases n with
  | zero => exact .inl ⟨rfl, rfl⟩
  | succ n =>
    obtain ⟨rest, hrest, hblank⟩ := blanks_behind r b t
    have hall : ∀ e ∈ (behind r b t).blanks, e = pastBlanks r b t ∨ digitEnds script ws e = [] := by
      intro e he
      rw [hrest] at he
      rcases List.mem_cons.1 he with rfl | he
      · exact .inl rfl
      · obtain ⟨b', s', rfl, hs'⟩ := hblank e he
        exact .inr (hdead b' s' hs')
    refine .inr ⟨n.succ_ne_zero, rest ++ (List.replicate n (behind r b t)).flatMap blanks, ?_,
      fun e he => ?_⟩
    · rw [List.replicate_succ, List.flatMap_cons, hrest, List.cons_append]
    · rcases List.mem_append.1 he with he | he
      · exact hall e (by rw [hrest]; exact List.mem_cons_of_mem _ he)
      · obtain ⟨f, hf, he⟩ := List.mem_flatMap.1 he
        rw [List.eq_of_mem_replicate hf] at he
        exact hall e he

theorem digitEnds_of_run {ws : Words} (hws : ∀ w ∈ ws.digits, PlainWord w) (hr : PlainWord r)
    (ht : ¬ StartsWord t) (hb : ¬ StartsWord b) :
    (∀ w ∈ ws.digits, ¬ Alike w r) ∧ digitEnds .spaced ws (place b (r ++ t)) = [] ∨
      (∃ w ∈ ws.digits, Alike w r) ∧
        ∃ rest, digitEnds .spaced ws (place b (r ++ t)) = pastBlanks r b t :: rest ∧
          ∀ e ∈ rest, e = pastBlanks r b t ∨ digitEnds .spaced ws e = [] := by
  rcases digitEnds_of_replicate (wholeWord_of_run hws hr ht hb)
      (fun b s hs => digitEnds_of_not_run hws (.inl hs)) with ⟨hcount, hnil⟩ | ⟨hcount, hends⟩
  · refine .inl ⟨fun w hw hwr => ?_, hnil⟩
    exact List.countP_eq_zero.1 hcount w hw (decide_eq_true hwr)
  · obtain ⟨w, hw, hwr⟩ := List.countP_pos_iff.1 (Nat.pos_of_ne_zero hcount)
    exact .inr ⟨⟨w, hw, of_decide_eq_true hwr⟩, hends⟩

theorem straight_digitEnds {ws : Words} (hws : ∀ w ∈ ws.digits, PlainWord w) :
    Straight (digitEnds .spaced ws) := by
  intro c d cs h
  rw [← place_eta c] at h ⊢
  by_cases hc : StartsWord c.after ∧ ¬ StartsWord c.before
  · obtain ⟨r, t, hrt, hr, ht⟩ := exists_run hc.1
    rw [hrt] at h ⊢
    rcases digitEnds_of_run hws hr ht hc.2 with ⟨-, hnil⟩ | ⟨-, rest, hrest, hdead⟩
    · rw [hnil] at h
      cases h
    · rw [hrest] at h
      obtain ⟨rfl, rfl⟩ := List.cons.inj h
      refine ⟨?_, hdead⟩
      exact (offset_lt_of_ne_nil hr.ne_nil).trans_le (offset_le_behind t)
  · rw [digitEnds_of_not_run hws (by tauto)] at h
    cases h

end Phraseology.NumberPhrase
