import Phraseology.Proofs.NumberPhrase.Present
import Phraseology.Proofs.Text.Words
import Phraseology.Shorthand

/-! In a spaced script plain words with single spaces between them are the tokens of their text,
whatever plain words are known. -/
namespace Phraseology

open Text
open Text.Cursor

variable {b s t r : List Char} {known : List (List Char)}

/-- A run of at least one character ends, at first choice, where it can go no further. -/
theorem Text.Cursor.head?_run1 {p : Char → Bool} :
    ((place b s).run1 p).head? =
      if s.takeWhile p = [] then none else some (behind (s.takeWhile p) b (s.dropWhile p)) := by
  obtain ⟨rest, hrest, hnil, hall⟩ := run_place (p := p) (b := b) (s := s)
  rw [run1, hrest]
  cases rest with
  | nil => rw [if_pos (hnil rfl)]; rfl
  | cons e rest =>
    obtain ⟨v, c, t, rfl, hv, hc, -⟩ := hall e (by simp)
    have hne : (v ++ c :: t).takeWhile p ≠ [] := by
      rw [List.takeWhile_append_of_pos hv, List.takeWhile_cons_of_pos hc]
      simp
    rw [if_neg hne, List.dropLast_cons_of_ne_nil (by simp), List.head?_cons]

namespace Shorthand

theorem tokenEnd?_spaced (c : Cursor) :
    tokenEnd? .spaced known c =
      (NumberPhrase.wholeWord .spaced known c ++ c.run1 (!isBlank ·)).head? := rfl

theorem tokenEnd?_blank (hknown : ∀ w ∈ known, PlainWord w) (hs : ∀ c ∈ s.head?, isBlank c = true) :
    tokenEnd? .spaced known (place b s) = none := by
  have hword : ¬ StartsWord s := by
    cases s with
    | nil => exact not_startsWord_nil
    | cons c s => exact not_startsWord_of_blank (hs c rfl)
  have hrun : s.takeWhile (!isBlank ·) = [] := by
    cases s with
    | nil => rfl
    | cons c s => exact List.takeWhile_cons_of_neg (by simp [hs c rfl])
  rw [tokenEnd?_spaced, NumberPhrase.wholeWord_of_not_run hknown (.inl hword), List.nil_append,
    head?_run1, if_pos hrun]

/-- A plain word is a token, whether it is known or not. -/
theorem tokenEnd?_word (hknown : ∀ w ∈ known, PlainWord w) (hr : PlainWord r)
    (ht : ∀ c ∈ t.head?, isBlank c = true) (hb : ¬ StartsWord b) :
    tokenEnd? .spaced known (place b (r ++ t)) = some (behind r b t) := by
  have hword : ¬ StartsWord t := by
    cases t with
    | nil => exact not_startsWord_nil
    | cons c t => exact not_startsWord_of_blank (ht c rfl)
  have hsolid : ∀ c ∈ r, (!isBlank c) = true := fun c hc => by simp [hr.unbroken.not_blank c hc]
  have hstop : t.takeWhile (!isBlank ·) = [] ∧ t.dropWhile (!isBlank ·) = t := by
    cases t with
    | nil => exact ⟨rfl, rfl⟩
    | cons c t =>
      have hc : ¬ (!isBlank c) = true := by simp [ht c rfl]
      exact ⟨List.takeWhile_cons_of_neg hc, List.dropWhile_cons_of_neg hc⟩
  have hrun : ((place b (r ++ t)).run1 (!isBlank ·)).head? = some (behind r b t) := by
    rw [head?_run1, List.takeWhile_append_of_pos hsolid, List.dropWhile_append_of_pos hsolid,
      hstop.1, hstop.2, List.append_nil, if_neg hr.ne_nil]
  rw [tokenEnd?_spaced, NumberPhrase.wholeWord_of_run hknown hr hword hb]
  -- Every known word that stands here ends where the run does.
  cases known.countP fun w => decide (Alike w r) with
  | zero => exact hrun
  | succ n => rfl

theorem advancing_tokenEnd? (hknown : ∀ w ∈ known, PlainWord w) :
    Advancing (tokenEnd? .spaced known) id := by
  intro c d hd
  rw [tokenEnd?_spaced, List.head?_append, Option.or_eq_some_iff] at hd
  rcases hd with hd | ⟨-, hd⟩
  · obtain ⟨w, hw, u, t, hc, hwu, rfl⟩ := NumberPhrase.onward_of_mem_anyWord
      (NumberPhrase.mem_anyWord_of_mem_wholeWord (List.mem_of_head? hd))
    exact ⟨u, t, ((hknown w hw).of_alike hwu).ne_nil, hc, rfl⟩
  · rw [← place_eta c, head?_run1] at hd
    split_ifs at hd with hne
    obtain rfl := Option.some.inj hd
    exact ⟨_, _, hne, List.takeWhile_append_dropWhile.symm, rfl⟩

theorem map_upTo_hitsAt (hknown : ∀ w ∈ known, PlainWord w) {ws : List String}
    (hws : ∀ w ∈ ws, PlainWord w.toList) (hb : ¬ StartsWord b) :
    (hitsAt (tokenEnd? .spaced known) id (place b (" ".intercalate ws).toList)).map
      (fun h => String.ofList (h.1.upTo h.2)) = ws := by
  have ha := advancing_tokenEnd? hknown
  have hend (u : List Char) : hitsAt (tokenEnd? .spaced known) id (place u []) = [] :=
    ha.hitsAt_nil (tokenEnd?_blank hknown (by simp))
  induction ws generalizing b with
  | nil => exact congrArg _ (hend b)
  | cons w ws ih =>
    obtain ⟨hw, hws⟩ := List.forall_mem_cons.1 hws
    cases ws with
    | nil =>
      have hhit := tokenEnd?_word (t := []) hknown hw (by simp) hb
      rw [String.intercalate_singleton, ← List.append_nil w.toList, ha.hitsAt_of_some hhit, id,
        hend, List.map_singleton, upTo_behind, String.ofList_toList]
    | cons v ws =>
      have hspace : (" " : String).toList = [' '] := rfl
      have hblank : ∀ c ∈ (' ' :: (" ".intercalate (v :: ws)).toList).head?, isBlank c = true := by
        rintro c ⟨⟩
        decide
      rw [String.intercalate_cons_cons, String.toList_append, String.toList_append, hspace,
        List.append_assoc, List.singleton_append,
        ha.hitsAt_of_some (tokenEnd?_word hknown hw hblank hb), id,
        ha.hitsAt_cons (tokenEnd?_blank hknown hblank), List.map_cons, upTo_behind,
        String.ofList_toList, ih hws (not_startsWord_of_blank (by decide))]

variable {sh : Shorthand}

/-- The known words are plain if names, digit words and direction words are. -/
theorem plain_of_mem_known (hnames : ∀ a ∈ sh.airlines, PlainWord a.name.toList)
    (hdigits : ∀ d ∈ sh.lexicon.digits, PlainWord d.word.toList)
    (hdirections : ∀ x ∈ sh.lexicon.directions, PlainWord x.spoken.toList) :
    ∀ w ∈ sh.known, PlainWord w := by
  intro w hw
  obtain ⟨x, hx, rfl⟩ := List.mem_map.1 (mem_longestFirst.1 hw)
  simp only [List.mem_filter, List.mem_append, List.mem_map] at hx
  rcases hx.1 with (⟨a, ha, rfl⟩ | ⟨d, hd, rfl⟩) | ⟨y, hy, hyx⟩
  · exact hnames a ha
  · exact hdigits d hd
  · exact hyx ▸ hdirections y hy

theorem tokens_intercalate (hscript : sh.lexicon.script = .spaced)
    (hknown : ∀ w ∈ sh.known, PlainWord w) {ws : List String}
    (hws : ∀ w ∈ ws, PlainWord w.toList) : sh.tokens (" ".intercalate ws) = ws := by
  rw [tokens, hscript, (advancing_tokenEnd? hknown).hits_eq]
  exact map_upTo_hitsAt hknown hws not_startsWord_nil

end Shorthand

end Phraseology
