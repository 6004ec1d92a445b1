import Phraseology.Proofs.NumberPhrase.Behind

/-! What is found in a spaced script is what the scan over words finds. -/
namespace Phraseology.NumberPhrase

open Text
open Text.Cursor

variable {p : NumberPhrase} {b s t r u : List Char}

/-- The place between `b` and `s` is not inside a word. -/
def Between (b s : List Char) : Prop := ¬ (StartsWord b ∧ StartsWord s)

theorem between_of_not_right (h : ¬ StartsWord s) : Between b s := fun hbs => h hbs.2

theorem between_of_not_left (h : ¬ StartsWord b) : Between b s := fun hbs => h hbs.1

/-- Past the blanks behind a word there is a place between words. -/
theorem between_pastBlanks (ht : ¬ StartsWord t) :
    Between ((t.takeWhile isBlank).reverse ++ (r.reverse ++ b)) (t.dropWhile isBlank) := by
  cases hl : (t.takeWhile isBlank).reverse with
  | nil =>
    have hdrop : t.dropWhile isBlank = t := by
      have := List.takeWhile_append_dropWhile (p := isBlank) (l := t)
      rwa [List.reverse_eq_nil_iff.1 hl] at this
    rw [hdrop]
    exact between_of_not_right ht
  | cons c l =>
    have hc : c ∈ t.takeWhile isBlank := by
      rw [← List.mem_reverse, hl]
      exact List.mem_cons_self
    exact between_of_not_left (not_startsWord_of_blank (List.mem_takeWhile_imp hc))

theorem run_notMem_head?_items (hs : ¬ StartsWord s) (r : List Char) :
    Item.run r ∉ (items s).head? := by
  cases s with
  | nil => simp [items]
  | cons c s => simp [items_other (show isWordChar c = false by simpa using hs)]

theorem takeDigits_of_not_startsWord (hs : ¬ StartsWord s) (n : Nat) :
    p.takeDigits n (items s) = ([], items s) :=
  takeDigits_of_not_digit (fun r hr => absurd hr (run_notMem_head?_items hs r)) n

/-- Between words a digit word that stands at the place is the whole word there. -/
theorem Plain.digitAt_or_noDigitAt (hp : p.Plain) (hbs : Between b s) :
    p.NoDigitAt items b s ∨ ∃ r t, s = r ++ t ∧ p.DigitAt items b r t ∧
      Between ((t.takeWhile isBlank).reverse ++ (r.reverse ++ b)) (t.dropWhile isBlank) := by
  have hws : ∀ w ∈ p.words.digits, PlainWord w := fun w => hp.of_mem_digits
  by_cases hs : StartsWord s
  · have hb : ¬ StartsWord b := fun hb => hbs ⟨hb, hs⟩
    obtain ⟨r, t, rfl, hr, ht⟩ := exists_run hs
    have hitems := items_run hr ht
    rcases digitEnds_of_run hws hr ht hb with ⟨hno, hends⟩ | ⟨hyes, rest, hends, -⟩
    · refine .inl ⟨takeDigits_of_not_digit fun v hv => ?_, by rw [hp.script_eq, hends]⟩
      rw [hitems] at hv
      obtain rfl : r = v := by simpa using hv
      rw [Bool.eq_false_iff, Ne, isDigitWord_iff hp.digits_ne]
      rintro ⟨w, hw, hwr⟩
      exact hno w hw hwr
    · refine .inr ⟨r, t, rfl, ⟨(isDigitWord_iff hp.digits_ne).2 hyes, hitems, ?_,
        by rw [hp.script_eq, hends, List.head?_cons]⟩, between_pastBlanks ht⟩
      rintro w hw x y rfl hwr
      by_contra hx
      obtain ⟨c, x, rfl⟩ := List.exists_cons_of_ne_nil hx
      have hc : isWordChar c = true := ((hws w hw).of_alike hwr).all c (by simp)
      exact ht (startsWord_cons_iff.2 hc)
  · exact .inl ⟨takeDigits_of_not_startsWord hs,
      by rw [hp.script_eq, digitEnds_of_not_run hws (.inl hs)]⟩

theorem trailingWord_of_run (ws : List (List Char)) (hr : PlainWord r) (ht : ¬ StartsWord t)
    (hb : ¬ StartsWord b) :
    ∃ rest, trailingWord .spaced ws (place b (r ++ t)) = behind r b t :: rest := by
  have hstop : (behind r b t).atBoundary = true := by
    rw [hr.atBoundary_behind]
    simpa using ht
  have htake : (r ++ t).takeWhile isWordChar = r := by
    rw [List.takeWhile_append_of_pos hr.all]
    cases t with
    | nil => simp
    | cons c t => simp [List.takeWhile_cons_of_neg (show ¬ isWordChar c = true by simpa using ht)]
  have hdrop : (r ++ t).dropWhile isWordChar = t := by
    have := List.takeWhile_append_dropWhile (p := isWordChar) (l := r ++ t)
    rw [htake] at this
    exact List.append_cancel_left this
  obtain ⟨rest, hrest, hnil, -⟩ := run_place (p := isWordChar) (b := b) (s := r ++ t)
  rw [htake, hdrop] at hrest
  rw [htake] at hnil
  have hne : rest ≠ [] := fun h => hr.ne_nil (hnil h)
  refine ⟨rest.dropLast.filter atBoundary, ?_⟩
  simp only [trailingWord, hr.atBoundary_place hb t, if_true, run1, hrest]
  rw [List.dropLast_cons_of_ne_nil hne, List.filter_cons_of_pos hstop]

theorem trailingWord_of_not_run (ws : List (List Char)) (hs : ¬ StartsWord s) :
    trailingWord .spaced ws (place b s) = [] := by
  have hrun : (place b s).run isWordChar = [place b s] := by
    refine run_of_not fun c hc => ?_
    by_contra h
    exact hs ⟨c, hc, Bool.eq_true_of_not_eq_false h⟩
  simp only [trailingWord, run1, hrun, List.dropLast_singleton, List.filter_nil, ite_self]

/-- In a spaced script the items of a text are met between its words. -/
theorem Plain.cutting (hp : p.Plain) : p.Cutting items Between where
  solid := hp.solid
  straight := by
    rw [hp.script_eq]
    exact straight_digitEnds fun w => hp.of_mem_digits
  min_pos := hp.min_pos
  min_le := hp.min_le
  dropWhile_eq := items_dropWhile_blank
  digits := fun _ _ => hp.digitAt_or_noDigitAt
  trailing := by
    intro spellings _ b s hbs
    rw [hp.script_eq]
    by_cases hs : StartsWord s
    · obtain ⟨r, t, rfl, hr, ht⟩ := exists_run hs
      obtain ⟨rest, hrest⟩ := trailingWord_of_run (spokenWords spellings) hr ht
        (fun hb => hbs ⟨hb, hs⟩)
      exact .inr ⟨r, t, rfl, items_run hr ht, between_of_not_right ht, by rw [hrest]; rfl⟩
    · exact .inl ⟨run_notMem_head?_items hs, by rw [trailingWord_of_not_run _ hs]; rfl⟩

theorem Plain.hitBehind?_of_not_startsWord (hp : p.Plain) (leading : Option (List Char))
    (hs : ¬ StartsWord s) : p.hitBehind? leading (place b s) = none :=
  hp.cutting.hitBehind?_eq_none leading (between_of_not_right hs)
    (takeDigits_of_not_startsWord hs)

theorem hitAt?_of_inside (hp : p.Plain) (hb : StartsWord b)
    (hne : p.leading ≠ some []) : p.hitAt? p.words (place b s) = none := by
  have hws : ∀ w ∈ p.words.digits, PlainWord w := fun w => hp.of_mem_digits
  rw [hitAt?_eq]
  cases hleading : p.leading with
  | none =>
    have hends : digitEnds .spaced p.words (place b s) = [] := digitEnds_of_not_run hws (.inr hb)
    have hwalk : walk? (digitEnds .spaced p.words) p.min (place b s) = none := by
      obtain ⟨m, hm⟩ := Nat.exists_eq_succ_of_ne_zero (Nat.one_le_iff_ne_zero.1 hp.min_pos)
      rw [hm, walk?, hends]
      rfl
    rw [leadingEnds_of_none hleading, List.findSome?_singleton, hitBehind?, hp.script_eq,
      (straight_digitEnds hws).between?_eq, hwalk]
    rfl
  | some spellings =>
    have hls : ∀ w ∈ spokenWords spellings, PlainWord w := by
      intro w hw
      obtain ⟨x, hx, rfl⟩ := (mem_spokenWords fun h => hne (by rw [hleading, h])).1 hw
      exact hp.leading spellings hleading x hx
    rw [leadingEnds_of_some hleading, hp.script_eq, wholeWord_of_not_run hls (.inr hb)]
    rfl

theorem countP_spokenWords_eq_zero_iff {spellings : List Spelling} (h : spellings ≠ []) :
    (spokenWords spellings).countP (fun w => decide (Alike w r)) = 0 ↔
      ∀ x ∈ spellings, ¬ Alike x.spoken.toList r := by
  simp [List.countP_eq_zero, mem_spokenWords h]

/-- What begins at a place between words is the number that the words from there begin with. -/
theorem hitAt?_items (hp : p.Plain) (hne : p.leading ≠ some []) (hbs : Between b s) :
    p.foundAt? (items s) = none ∧ p.hitAt? p.words (place b s) = none ∨
      ∃ f h u t, p.foundAt? (items s) = some f ∧ p.hitAt? p.words (place b s) = some h ∧
        s = u ++ t ∧ h.Is p items Between f b u t := by
  rw [hitAt?_eq, foundAt?_eq]
  cases hleading : p.leading with
  | none =>
    rw [leadingEnds_of_none hleading, List.findSome?_singleton, takeLeading?_of_none hleading]
    exact hp.cutting.hitBehind?_cut none hbs
  | some spellings =>
    have hspellings : spellings ≠ [] := fun h => hne (by rw [hleading, h])
    have hls : ∀ w ∈ spokenWords spellings, PlainWord w := by
      intro w hw
      obtain ⟨x, hx, rfl⟩ := (mem_spokenWords hspellings).1 hw
      exact hp.leading spellings hleading x hx
    rw [leadingEnds_of_some hleading, hp.script_eq]
    by_cases hs : StartsWord s
    · have hb : ¬ StartsWord b := fun hb => hbs ⟨hb, hs⟩
      obtain ⟨r, t, rfl, hr, ht⟩ := exists_run hs
      rw [wholeWord_of_run hls hr ht hb, items_run hr ht]
      by_cases hmet : ∃ x ∈ spellings, Alike x.spoken.toList r
      · have hcount : (spokenWords spellings).countP (fun w => decide (Alike w r)) ≠ 0 := by
          simpa [countP_spokenWords_eq_zero_iff hspellings] using hmet
        rw [findSome?_leadingEnds hcount fun b s => hp.hitBehind?_of_not_startsWord (some r),
          takeLeading?_run hleading hmet, Option.bind_some, ← items_dropWhile_blank]
        exact hp.cutting.hitBehind?_pastBlanks (some r) hr.ne_nil (between_pastBlanks ht)
      · have hnot : ∀ x ∈ spellings, ¬ Alike x.spoken.toList r := by simpa using hmet
        refine .inl ⟨?_, ?_⟩
        · rw [takeLeading?_eq_none hleading (by rintro v ⟨⟩; exact hnot), Option.bind_none]
        · rw [(countP_spokenWords_eq_zero_iff hspellings).2 hnot]
          rfl
    · refine .inl ⟨?_, ?_⟩
      · rw [takeLeading?_eq_none hleading, Option.bind_none]
        exact fun r hr => absurd hr (run_notMem_head?_items hs r)
      · rw [wholeWord_of_not_run hls (.inl hs)]
        rfl

theorem advancing_hitAt? (hp : p.Plain) (hne : p.leading ≠ some []) :
    Advancing (p.hitAt? p.words) Hit.stop := by
  intro c h hh
  rw [← place_eta c] at hh
  by_cases hc : StartsWord c.before ∧ StartsWord c.after
  · rw [hitAt?_of_inside hp hc.1 hne] at hh
    cases hh
  · rcases hitAt?_items hp hne hc with ⟨-, hno⟩ | ⟨f, h', u, t, -, hyes, hut, his⟩
    · rw [hno] at hh
      cases hh
    · rw [hyes] at hh
      obtain rfl := Option.some.inj hh
      exact ⟨u, t, his.ne_nil, hut, his.stop_eq⟩

theorem Hit.Is.size_eq {h : Hit} {f : Found} (his : h.Is p items Between f b u t) :
    Item.size (items (u ++ t)) - Item.size f.rest = byteCount u := by
  rw [his.rest_eq, size_items, size_items, byteCount_append, Nat.add_sub_cancel]

theorem Hit.Is.match?_eq {h : Hit} {f : Found} (his : h.Is p items Between f b u t)
    (s : List Char) :
    h.match? p p.words (place b s) =
      f.match? p (place b s).offset
        ((place b s).offset + (Item.size (items (u ++ t)) - Item.size f.rest)) := by
  have hstop : h.stop.offset =
      (place b s).offset + (Item.size (items (u ++ t)) - Item.size f.rest) := by
    rw [his.size_eq, his.stop_eq, offset_behind]
    rfl
  unfold Hit.match? Found.match?
  rw [his.leading_eq, his.trailing_eq, his.numerals_eq]
  cases f.leading with
  | none => rw [hstop]
  | some w => rw [hstop]

/-- Where no number begins with a word, the whole word is passed: none begins inside it. -/
theorem hitsAt_run (hp : p.Plain) (hne : p.leading ≠ some []) (hr : PlainWord r)
    (hno : p.hitAt? p.words (place b (r ++ t)) = none) :
    hitsAt (p.hitAt? p.words) Hit.stop (place b (r ++ t)) =
      hitsAt (p.hitAt? p.words) Hit.stop (behind r b t) := by
  refine (advancing_hitAt? hp hne).hitsAt_append fun v w hvw hw => ?_
  subst hvw
  cases hv : v.reverse with
  | nil =>
    obtain rfl : v = [] := List.reverse_eq_nil_iff.1 hv
    exact hno
  | cons c v' =>
    have hc : isWordChar c = true :=
      hr.all c (List.mem_append_left _ (List.mem_reverse.1 (by simp [hv])))
    rw [behind, hv]
    exact hitAt?_of_inside hp (startsWord_cons_iff.2 hc) hne

theorem matches_hitsAt (hp : p.Plain) (hne : p.leading ≠ some []) (hbs : Between b s) :
    (hitsAt (p.hitAt? p.words) Hit.stop (place b s)).filterMap
        (fun q => q.2.match? p p.words q.1) = p.scan (place b s).offset (items s) := by
  have ha := advancing_hitAt? hp hne
  induction hn : s.length using Nat.strong_induction_on generalizing b s with
  | _ n ih =>
    subst hn
    rcases hitAt?_items hp hne hbs with ⟨hnot, hno⟩ | ⟨f, h, u, t, hf, hh, rfl, his⟩
    · by_cases hs : StartsWord s
      · obtain ⟨r, t, rfl, hr, ht⟩ := exists_run hs
        have hlt : t.length < (r ++ t).length := by
          have := List.length_pos_of_ne_nil hr.ne_nil
          rw [List.length_append]
          omega
        rw [items_run hr ht] at hnot
        rw [hitsAt_run hp hne hr hno, ih _ hlt (between_of_not_right ht) rfl, items_run hr ht,
          scan_of_none _ hnot, offset_behind, Item.size_run]
        rfl
      · cases s with
        | nil =>
          rw [ha.hitsAt_nil hno]
          simp [items, scan]
        | cons c s =>
          have hc : isWordChar c = false := by simpa using hs
          rw [items_other hc] at hnot
          rw [ha.hitsAt_cons hno, ih _ (by simp) (between_of_not_left (by simp [hc])) rfl,
            items_other hc, scan_of_none _ hnot]
          simp [place, Nat.add_comm]
    · have hlt : t.length < (u ++ t).length := by
        have := List.length_pos_of_ne_nil his.ne_nil
        rw [List.length_append]
        omega
      have hoffset : (behind u b t).offset = (place b (u ++ t)).offset +
          (Item.size (items (u ++ t)) - Item.size f.rest) := by
        rw [his.size_eq, offset_behind]
        rfl
      rw [ha.hitsAt_of_some hh, List.filterMap_cons, his.match?_eq, scan_of_some _ hf,
        his.stop_eq, ih _ hlt his.starts rfl, ← his.rest_eq, hoffset]
      cases f.match? p (place b (u ++ t)).offset _ <;> rfl

/-- In a spaced script, the numbers in a text are those of the scan over its words. -/
theorem find_eq_scan (hp : p.Plain) (text : List Char) : p.find text = p.scan 0 (items text) := by
  unfold find
  split_ifs with hnever
  · -- With no leading words the scan finds nothing either.
    have hleading : p.leading = some [] := by
      unfold neverMet at hnever
      split at hnever
      · assumption
      · cases hnever
    have hnot (is : List Item) : p.foundAt? is = none := foundAt?_eq_none hleading (by simp)
    have hscan (n : Nat) (is : List Item) : p.scan n is = [] := by
      induction is generalizing n with
      | nil => simp [scan]
      | cons i is ih => rw [scan_of_none n (hnot _), ih]
    rw [hscan]
  · have hne : p.leading ≠ some [] := by
      intro h
      simp [neverMet, h] at hnever
    have hmatches := matches_hitsAt hp hne (between_of_not_left (s := text) not_startsWord_nil)
    rw [← (advancing_hitAt? hp hne).hits_eq] at hmatches
    exact hmatches

end Phraseology.NumberPhrase
