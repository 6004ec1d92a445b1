import Phraseology.Proofs.NumberPhrase.Scan

/-! What the search finds behind a leading word is what the items of the text have there, in
whatever way the text is cut into items. -/
namespace Phraseology.NumberPhrase

open Text
open Text.Cursor

variable {p : NumberPhrase} {b s t r u v x : List Char}

def hitBehind? (p : NumberPhrase) (leading : Option (List Char)) (d : Cursor) : Option Hit := do
  let e ← between? (digitEnds p.script p.words) p.min p.max d
  let (trailing, f) ← (trailingEnds p.script p.words e).head?
  return ⟨leading, d.upTo e, trailing, f⟩

theorem hitAt?_eq (p : NumberPhrase) (c : Cursor) :
    p.hitAt? p.words c =
      (leadingEnds p.script p.words c).findSome? fun q => p.hitBehind? q.1 q.2 := rfl

/-- The number that begins behind the leading word, in the words of the text. -/
def foundBehind? (p : NumberPhrase) (leading : Option (List Char)) (is : List Item) :
    Option Found :=
  let q := p.takeDigits p.max is
  if q.1 = [] ∨ q.1.length < p.min then none
  else some ⟨leading, q.1, (p.takeTrailing q.2).1, (p.takeTrailing q.2).2⟩

theorem foundAt?_eq (p : NumberPhrase) (is : List Item) :
    p.foundAt? is = (p.takeLeading? is).bind fun q => p.foundBehind? q.1 q.2 := rfl

theorem foundAt?_of_none (h : p.leading = none) (is : List Item) :
    p.foundAt? is = p.foundBehind? none is := by
  rw [foundAt?_eq, takeLeading?_of_none h, Option.bind_some]

theorem foundAt?_run {spellings : List Spelling} {r : List Char} (h : p.leading = some spellings)
    (hr : ∃ x ∈ spellings, Alike x.spoken.toList r) (is : List Item) :
    p.foundAt? (.run r :: is) = p.foundBehind? (some r) (is.dropWhile Item.isBlank) := by
  rw [foundAt?_eq, takeLeading?_run h hr, Option.bind_some]

theorem foundAt?_eq_none {spellings : List Spelling} {is : List Item}
    (h : p.leading = some spellings)
    (hnot : ∀ r, .run r ∈ is.head? → ∀ x ∈ spellings, ¬ Alike x.spoken.toList r) :
    p.foundAt? is = none := by
  rw [foundAt?_eq, takeLeading?_eq_none h hnot, Option.bind_none]

theorem foundBehind?_eq_none {is : List Item} (h : ∀ n, p.takeDigits n is = ([], is))
    (leading : Option (List Char)) : p.foundBehind? leading is = none := by
  simp [foundBehind?, h]

section Taken

variable {is js : List Item} {ds : List (List Char)}

theorem foundBehind?_of_takeDigits (h : p.takeDigits p.max is = (ds, js)) (hne : ds ≠ [])
    (hmin : p.min ≤ ds.length) (leading : Option (List Char)) :
    p.foundBehind? leading is =
      some ⟨leading, ds, (p.takeTrailing js).1, (p.takeTrailing js).2⟩ := by
  simp [foundBehind?, h, hne, hmin.not_gt]

theorem foundBehind?_of_few (h : p.takeDigits p.max is = (ds, js)) (hfew : ds.length < p.min)
    (leading : Option (List Char)) : p.foundBehind? leading is = none := by
  simp [foundBehind?, h, hfew]

end Taken

theorem leadingEnds_of_none (h : p.leading = none) (c : Cursor) :
    leadingEnds p.script p.words c = [(none, c)] := by
  simp only [leadingEnds, words, h, Option.map_none]

theorem leadingEnds_of_some {spellings : List Spelling} (h : p.leading = some spellings)
    (c : Cursor) :
    leadingEnds p.script p.words c =
      (wholeWord p.script (spokenWords spellings) c).flatMap fun d =>
        d.blanks.map fun e => (some (c.upTo d), e) := by
  simp only [leadingEnds, words, h, Option.map_some]

theorem trailingEnds_of_none (h : p.trailing = none) (c : Cursor) :
    trailingEnds p.script p.words c = [(none, c)] := by
  simp only [trailingEnds, words, h, Option.map_none]

theorem head?_trailingEnds_of_some {spellings : List Spelling} (h : p.trailing = some spellings)
    (hblank : ∀ c ∈ s.head?, isBlank c = false) :
    (trailingEnds p.script p.words (place b s)).head? =
      some ((trailingWord p.script (spokenWords spellings) (place b s)).head?.elim
        (none, place b s) fun e => (some ((place b s).upTo e), e)) := by
  have hblanks : (place b s).blanks = [place b s] := run_of_not hblank
  simp only [trailingEnds, words, h, Option.map_some, hblanks, List.flatMap_cons,
    List.flatMap_nil, List.append_nil, List.head?_append, List.head?_map, List.head?_cons]
  cases (trailingWord p.script (spokenWords spellings) (place b s)).head? <;> rfl

theorem findSome?_cons_of_forall {α β : Type} {f : α → Option β} {a : α} {as : List α}
    (h : ∀ x ∈ as, f x = f a ∨ f x = none) : (a :: as).findSome? f = f a := by
  rw [List.findSome?_cons]
  cases ha : f a with
  | some b => rfl
  | none =>
    rw [List.findSome?_eq_none_iff]
    intro x hx
    rcases h x hx with hx | hx
    · rw [hx, ha]
    · exact hx

/-- Of all places behind the leading word, only the one past all blanks counts. -/
theorem findSome?_leadingEnds {n : Nat} (hn : n ≠ 0)
    (hdead : ∀ b s, ¬ StartsWord s → p.hitBehind? (some r) (place b s) = none) :
    ((List.replicate n (behind r b t)).flatMap fun d =>
        d.blanks.map fun e => (some ((place b (r ++ t)).upTo d), e)).findSome?
        (fun q => p.hitBehind? q.1 q.2) = p.hitBehind? (some r) (pastBlanks r b t) := by
  obtain ⟨n, rfl⟩ := Nat.exists_eq_succ_of_ne_zero hn
  have hword : (place b (r ++ t)).upTo (behind r b t) = r := upTo_behind
  obtain ⟨rest, hrest, hblank⟩ := blanks_behind r b t
  have hall : ∀ q ∈ (behind r b t).blanks.map fun e => (some r, e),
      p.hitBehind? q.1 q.2 = p.hitBehind? (some r) (pastBlanks r b t) ∨
        p.hitBehind? q.1 q.2 = none := by
    intro q hq
    obtain ⟨e, he, rfl⟩ := List.mem_map.1 hq
    rw [hrest] at he
    rcases List.mem_cons.1 he with rfl | he
    · exact .inl rfl
    · obtain ⟨b', s', rfl, hs'⟩ := hblank e he
      exact .inr (hdead b' s' hs')
  rw [List.replicate_succ, List.flatMap_cons, hword, hrest, List.map_cons, List.cons_append]
  refine findSome?_cons_of_forall fun q hq => ?_
  rcases List.mem_append.1 hq with hq | hq
  · exact hall q (by rw [hrest]; exact List.mem_cons_of_mem _ hq)
  · obtain ⟨d, hd, hq⟩ := List.mem_flatMap.1 hq
    rw [List.eq_of_mem_replicate hd, hword] at hq
    exact hall q hq

/-- A digit word begins at the place. It is an item, and no longer one stands here. -/
structure DigitAt (p : NumberPhrase) (cut : List Char → List Item) (b r t : List Char) : Prop where
  digit : p.isDigitWord r = true
  cut_eq : cut (r ++ t) = .run r :: cut t
  longest : ∀ w ∈ p.words.digits, ∀ x y, t = x ++ y → Alike w (r ++ x) → x = []
  ends_eq : (digitEnds p.script p.words (place b (r ++ t))).head? = some (pastBlanks r b t)

structure NoDigitAt (p : NumberPhrase) (cut : List Char → List Item) (b s : List Char) : Prop where
  take_eq : ∀ n, p.takeDigits n (cut s) = ([], cut s)
  ends_eq : digitEnds p.script p.words (place b s) = []

/-- Wherever words start, the items of a text begin with a digit word if the search meets one, and
with a word if it meets a trailing word. -/
structure Cutting (p : NumberPhrase) (cut : List Char → List Item)
    (Starts : List Char → List Char → Prop) : Prop where
  solid : p.Solid
  straight : Straight (digitEnds p.script p.words)
  min_pos : 1 ≤ p.min
  min_le : p.min ≤ p.max
  dropWhile_eq : ∀ s, cut (s.dropWhile isBlank) = (cut s).dropWhile Item.isBlank
  digits : ∀ b s, Starts b s → p.NoDigitAt cut b s ∨ ∃ r t, s = r ++ t ∧ p.DigitAt cut b r t ∧
    Starts ((t.takeWhile isBlank).reverse ++ (r.reverse ++ b)) (t.dropWhile isBlank)
  trailing : ∀ spellings ∈ p.trailing, ∀ b s, Starts b s →
    (∀ r, .run r ∉ (cut s).head?) ∧
        (trailingWord p.script (spokenWords spellings) (place b s)).head? = none ∨
      ∃ r t, s = r ++ t ∧ cut s = .run r :: cut t ∧ Starts (r.reverse ++ b) t ∧
        (trailingWord p.script (spokenWords spellings) (place b s)).head? = some (behind r b t)

variable {cut : List Char → List Item} {Starts : List Char → List Char → Prop}
  {q : List (List Char) × List Item}

/-- The text `u` between `b` and `t` is what has been taken. -/
structure Taken (p : NumberPhrase) (cut : List Char → List Item)
    (Starts : List Char → List Char → Prop) (q : List (List Char) × List Item)
    (b u t : List Char) : Prop where
  words : Cut p.words.digits q.1 u
  rest_eq : q.2 = cut t
  starts : Starts (u.reverse ++ b) t
  not_blank : q.1 ≠ [] → ∀ c ∈ t.head?, isBlank c = false

theorem taken_nil (hs : Starts b s) : p.Taken cut Starts ([], cut s) b [] s where
  words := .nil
  rest_eq := rfl
  starts := hs
  not_blank := fun h => absurd rfl h

/-- One more digit word before what has been taken. -/
theorem Taken.cons (hp : p.Solid) (hr : p.DigitAt cut b r t)
    (hvx : t.dropWhile isBlank = v ++ x)
    (h : p.Taken cut Starts q ((t.takeWhile isBlank).reverse ++ (r.reverse ++ b)) v x) :
    p.Taken cut Starts (r :: q.1, q.2) b (r ++ (t.takeWhile isBlank ++ v)) x where
  words := by
    refine .cons ((isDigitWord_iff hp.digits_ne).1 hr.digit) (fun w hw y z hyz => ?_)
      (fun c => List.mem_takeWhile_imp) h.words
    refine hr.longest w hw y (z ++ x) ?_
    rw [← List.append_assoc, ← hyz, List.append_assoc, ← hvx, List.takeWhile_append_dropWhile]
  rest_eq := h.rest_eq
  starts := by simpa using h.starts
  not_blank := by
    intro _ c hc
    by_cases hnil : q.1 = []
    · have hwords := h.words
      rw [hnil] at hwords
      cases hwords
      have := List.head?_dropWhile_not isBlank t
      rw [hvx, List.nil_append, Option.mem_def.1 hc] at this
      exact this
    · exact h.not_blank hnil c hc

/-- What `takeDigits` takes of the items of a text is what a repetition runs over. -/
theorem Cutting.between?_cut (hp : p.Cutting cut Starts) {min max : Nat} (hle : min ≤ max)
    (hs : Starts b s) :
    (p.takeDigits max (cut s)).1.length < min ∧
        between? (digitEnds p.script p.words) min max (place b s) = none ∨
      min ≤ (p.takeDigits max (cut s)).1.length ∧ ∃ u t, s = u ++ t ∧
        p.Taken cut Starts (p.takeDigits max (cut s)) b u t ∧
        between? (digitEnds p.script p.words) min max (place b s) = some (behind u b t) := by
  induction max generalizing min b s with
  | zero =>
    obtain rfl : min = 0 := by omega
    exact .inr ⟨Nat.zero_le _, [], s, rfl, taken_nil hs, rfl⟩
  | succ max ih =>
    rw [hp.straight.between?_succ]
    rcases hp.digits b s hs with hno | ⟨r, t, rfl, hr, hpast⟩
    · -- Without a digit word here the repetition ends before it has begun.
      rw [hno.take_eq, hno.ends_eq]
      cases min with
      | zero => exact .inr ⟨le_rfl, [], s, rfl, taken_nil hs, rfl⟩
      | succ min => exact .inl ⟨by simp, rfl⟩
    · have htake : p.takeDigits (max + 1) (cut (r ++ t)) =
          (r :: (p.takeDigits max (cut (t.dropWhile isBlank))).1,
            (p.takeDigits max (cut (t.dropWhile isBlank))).2) := by
        rw [hr.cut_eq, takeDigits, if_pos hr.digit, hp.dropWhile_eq]
      rw [htake, hr.ends_eq, List.length_cons]
      have hmin : min - 1 ≤ max := by omega
      rcases ih hmin hpast with ⟨hlt, hno⟩ | ⟨hge, v, x, hvx, htaken, hv⟩
      · exact .inl ⟨by omega, hno⟩
      · refine .inr ⟨by omega, r ++ (t.takeWhile isBlank ++ v), x, ?_,
          htaken.cons hp.solid hr hvx, ?_⟩
        · rw [List.append_assoc, List.append_assoc, ← hvx, List.takeWhile_append_dropWhile]
        · exact hv.trans (by rw [behind_append, behind_append])

/-- What `takeTrailing` takes of the items of a text is the trailing word that the search meets. -/
theorem Cutting.head?_trailingEnds (hp : p.Cutting cut Starts) (hs : Starts b s)
    (hblank : ∀ c ∈ s.head?, isBlank c = false) :
    ∃ v t, s = v ++ t ∧
      (trailingEnds p.script p.words (place b s)).head? =
        some ((p.takeTrailing (cut s)).1, behind v b t) ∧
      (p.takeTrailing (cut s)).2 = cut t ∧ Starts (v.reverse ++ b) t := by
  cases htrailing : p.trailing with
  | none =>
    have htake : p.takeTrailing (cut s) = (none, cut s) := by simp only [takeTrailing, htrailing]
    refine ⟨[], s, rfl, ?_, by rw [htake], hs⟩
    rw [trailingEnds_of_none htrailing, htake]
    rfl
  | some spellings =>
    rw [head?_trailingEnds_of_some htrailing hblank]
    rcases hp.trailing spellings htrailing b s hs with
      ⟨hnot, hword⟩ | ⟨r, t, rfl, hcut, hstarts, hword⟩
    · rw [hword, takeTrailing_of_not_run hnot]
      exact ⟨[], s, rfl, rfl, rfl, hs⟩
    · have hupTo : (place b (r ++ t)).upTo (behind r b t) = r := upTo_behind
      rw [hword, hcut, takeTrailing_run htrailing, Option.elim_some, hupTo]
      exact ⟨r, t, rfl, rfl, rfl, hstarts⟩

structure Hit.Tells (p : NumberPhrase) (h : Hit) (f : Found) : Prop where
  leading_eq : h.leading = f.leading
  trailing_eq : h.trailing = f.trailing
  numerals_eq : p.numerals p.words h.run = p.values f.digits

/-- The hit is the number found in the items, and it takes up the text `u` between `b` and `t`. -/
structure Hit.Is (p : NumberPhrase) (cut : List Char → List Item)
    (Starts : List Char → List Char → Prop) (h : Hit) (f : Found) (b u t : List Char) : Prop
    extends h.Tells p f where
  ne_nil : u ≠ []
  stop_eq : h.stop = behind u b t
  rest_eq : f.rest = cut t
  starts : Starts (u.reverse ++ b) t

theorem Cutting.hitBehind?_cut (hp : p.Cutting cut Starts) (leading : Option (List Char))
    (hs : Starts b s) :
    p.foundBehind? leading (cut s) = none ∧ p.hitBehind? leading (place b s) = none ∨
      ∃ f h u t, p.foundBehind? leading (cut s) = some f ∧
        p.hitBehind? leading (place b s) = some h ∧ s = u ++ t ∧ h.Is p cut Starts f b u t := by
  have hmin := hp.min_pos
  unfold foundBehind? hitBehind?
  rcases hp.between?_cut hp.min_le hs with ⟨hlt, hno⟩ | ⟨hge, u, t, rfl, htaken, hu⟩
  · exact .inl ⟨by simp [hlt], by rw [hno]; rfl⟩
  · have hne : (p.takeDigits p.max (cut (u ++ t))).1 ≠ [] := by
      rw [← List.length_pos_iff]
      omega
    have hune : u ≠ [] := htaken.words.ne_nil hp.solid.digit_ne_nil hne
    obtain ⟨v, x, rfl, htrailing, hrest, hstarts⟩ :=
      hp.head?_trailingEnds htaken.starts (htaken.not_blank hne)
    rw [← htaken.rest_eq] at htrailing hrest
    have hrun : (place b (u ++ (v ++ x))).upTo (behind u b (v ++ x)) = u := upTo_behind
    refine .inr ⟨_, ⟨leading, u, _, behind v (u.reverse ++ b) x⟩, u ++ v, x,
      if_neg (not_or.2 ⟨hne, hge.not_gt⟩), ?_, by rw [List.append_assoc],
      ⟨rfl, rfl, hp.solid.numerals_of_cut htaken.words⟩, by simp [hune], behind_append.symm, hrest,
      by simpa using hstarts⟩
    rw [hu, Option.bind_eq_bind, Option.bind_some, htrailing, Option.bind_eq_bind,
      Option.bind_some]
    simp only [hrun]
    rfl

/-- The same behind a leading word and blanks. -/
theorem Cutting.hitBehind?_pastBlanks (hp : p.Cutting cut Starts) (leading : Option (List Char))
    (hr : r ≠ [])
    (hs : Starts ((t.takeWhile isBlank).reverse ++ (r.reverse ++ b)) (t.dropWhile isBlank)) :
    p.foundBehind? leading (cut (t.dropWhile isBlank)) = none ∧
        p.hitBehind? leading (pastBlanks r b t) = none ∨
      ∃ f h u x, p.foundBehind? leading (cut (t.dropWhile isBlank)) = some f ∧
        p.hitBehind? leading (pastBlanks r b t) = some h ∧ r ++ t = u ++ x ∧
        h.Is p cut Starts f b u x := by
  rcases hp.hitBehind?_cut leading hs with hnone | ⟨f, h, u, x, hf, hh, hux, his⟩
  · exact .inl hnone
  · refine .inr ⟨f, h, r ++ (t.takeWhile isBlank ++ u), x, hf, hh, ?_, his.toTells,
      by simp [hr], ?_, his.rest_eq, by simpa using his.starts⟩
    · rw [List.append_assoc, List.append_assoc, ← hux, List.takeWhile_append_dropWhile]
    · rw [his.stop_eq, behind_append, behind_append]

theorem Cutting.hitBehind?_eq_none (hp : p.Cutting cut Starts) (leading : Option (List Char))
    (hs : Starts b s) (h : ∀ n, p.takeDigits n (cut s) = ([], cut s)) :
    p.hitBehind? leading (place b s) = none := by
  rcases hp.hitBehind?_cut leading hs with ⟨-, hno⟩ | ⟨f, -, -, -, hf, -⟩
  · exact hno
  · rw [foundBehind?_eq_none h] at hf
    cases hf

end Phraseology.NumberPhrase
