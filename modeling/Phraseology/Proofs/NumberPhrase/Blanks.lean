import Phraseology.Proofs.NumberPhrase.Glyphs

/-! Blanks make no difference to what the numbers of a text in an ideographic script say, except
inside a leading word. -/
namespace Phraseology

open Text
open Text.Cursor

namespace NumberPhrase

variable {p : NumberPhrase} {is : List Item} {b s t u : List Char} {c : Char}

/-- The items do not begin with a blank. -/
def Begun (is : List Item) : Prop := ∀ i ∈ is.head?, i.isBlank = false

theorem begun_dropWhile (is : List Item) : Begun (is.dropWhile Item.isBlank) := by
  intro i hi
  have := List.head?_dropWhile_not Item.isBlank is
  rw [Option.mem_def.1 hi] at this
  exact this

theorem begun_filter (is : List Item) : Begun (is.filter (!·.isBlank)) := by
  intro i hi
  simpa using (List.mem_filter.1 (List.mem_of_mem_head? hi)).2

theorem Begun.dropWhile_eq (h : Begun is) : is.dropWhile Item.isBlank = is := by
  cases is with
  | nil => rfl
  | cons i is => rw [List.dropWhile_cons_of_neg (by simp [h i rfl])]

theorem filter_dropWhile (is : List Item) :
    (is.dropWhile Item.isBlank).filter (!·.isBlank) = is.filter (!·.isBlank) := by
  induction is with
  | nil => rfl
  | cons i is ih =>
    rw [List.dropWhile_cons]
    split_ifs with hi
    · rw [ih, List.filter_cons_of_neg (by simp [hi])]
    · rfl

theorem Begun.takeDigits (h : Begun is) (n : Nat) : Begun (p.takeDigits n is).2 := by
  induction n generalizing is with
  | zero => exact h
  | succ n ih =>
    match is with
    | [] | .other _ :: _ => exact h
    | .run r :: is =>
      rw [NumberPhrase.takeDigits]
      split_ifs
      · exact ih (begun_dropWhile is)
      · exact h

theorem Begun.takeDigits_filter (h : Begun is) (n : Nat) :
    p.takeDigits n (is.filter (!·.isBlank)) =
      ((p.takeDigits n is).1, (p.takeDigits n is).2.filter (!·.isBlank)) := by
  induction n generalizing is with
  | zero => rfl
  | succ n ih =>
    match is with
    | [] => rfl
    | .other c :: is =>
      have hc : (Item.other c).isBlank = false := h _ rfl
      rw [List.filter_cons_of_pos (by simp [hc])]
      change _ = ([], List.filter _ (Item.other c :: is))
      rw [List.filter_cons_of_pos (by simp [hc])]
      rfl
    | .run r :: is =>
      rw [List.filter_cons_of_pos rfl, NumberPhrase.takeDigits, NumberPhrase.takeDigits,
        (begun_filter is).dropWhile_eq, ← filter_dropWhile, ih (begun_dropWhile is)]
      split_ifs
      · rfl
      · rw [filter_dropWhile, List.filter_cons_of_pos rfl]

theorem Begun.takeTrailing_filter (h : Begun is) :
    p.takeTrailing (is.filter (!·.isBlank)) =
      ((p.takeTrailing is).1, (p.takeTrailing is).2.filter (!·.isBlank)) := by
  unfold takeTrailing
  match is with
  | [] => cases p.trailing <;> rfl
  | .other c :: is =>
    have hc : (Item.other c).isBlank = false := h _ rfl
    cases p.trailing <;> simp [hc]
  | .run r :: is => cases p.trailing <;> simp [Item.isBlank]

/-- The number that items begin with is the same without the blanks among them. -/
theorem Begun.foundBehind?_filter (h : Begun is) (leading : Option (List Char)) :
    p.foundBehind? leading (is.filter (!·.isBlank)) =
      (p.foundBehind? leading is).map fun f => { f with rest := f.rest.filter (!·.isBlank) } := by
  simp only [foundBehind?, h.takeDigits_filter, (h.takeDigits p.max).takeTrailing_filter]
  split_ifs
  · rfl
  · rfl

theorem dropWhile_of_not_blank (h : ∀ c ∈ s.head?, isBlank c = false) :
    s.dropWhile isBlank = s := by
  have := dropWhile_blanks (List.forall_mem_nil _) h
  rwa [List.nil_append] at this

/-- Wherever the text has a leading word and a digit behind it, blanks apart, the leading word is in
one piece. -/
def Whole (p : NumberPhrase) (s : List Char) : Prop :=
  ∀ spellings ∈ p.leading, ∀ x ∈ spellings, ∀ d ∈ p.digits, ∀ v ∈ s.tails,
    x.spoken.toList ++ d.word.toList <+: v.filter (!isBlank ·) →
      x.spoken.toList <+: v.dropWhile isBlank

theorem Whole.tail (h : p.Whole (c :: s)) : p.Whole s :=
  fun spellings hspellings x hx d hd v hv =>
    h spellings hspellings x hx d hd v (by rw [List.tails]; exact List.mem_cons_of_mem _ hv)

theorem Whole.of_append {u : List Char} (h : p.Whole (u ++ s)) : p.Whole s := by
  intro spellings hspellings x hx d hd v hv
  refine h spellings hspellings x hx d hd v ?_
  rw [List.mem_tails] at hv ⊢
  exact hv.trans (List.suffix_append u s)

/-- A number has a digit behind its leading word. -/
theorem digit_of_foundBehind? {leading : Option (List Char)} {f : Found}
    (h : p.foundBehind? leading (glyphs s) = some f) :
    ∃ c t, s = c :: t ∧ p.isDigitWord [c] = true := by
  by_contra hnone
  have hdigit : ∀ c ∈ s.head?, p.isDigitWord [c] = false := by
    intro c hc
    obtain ⟨t, rfl⟩ := List.head?_eq_some_iff.1 hc
    exact Bool.eq_false_iff.2 fun hc => hnone ⟨c, t, rfl, hc⟩
  simp [foundBehind?, takeDigits_glyphs hdigit] at h

theorem begun_glyphs (hs : ∀ c ∈ s.head?, isBlank c = false) : Begun (glyphs s) := by
  cases s with
  | nil => simp [Begun, glyphs]
  | cons c s =>
    rintro i ⟨⟩
    rw [isBlank_glyph, hs c rfl]

/-- Where a number has its leading word in front of the text without blanks, the text itself begins
with this word. -/
theorem Glyphic.prefix_of_compact (hp : p.Glyphic) (hs : ∀ c ∈ s.head?, isBlank c = false)
    {spellings : List Spelling} (hleading : p.leading = some spellings) {x : Spelling}
    (hx : x ∈ spellings) (hwhole : p.Whole s) {leading : Option (List Char)} {f : Found}
    (hcompact : x.spoken.toList ++ t = s.filter (!isBlank ·))
    (hf : p.foundBehind? leading ((glyphs t).dropWhile Item.isBlank) = some f) :
    x.spoken.toList <+: s := by
  have ht : ∀ c ∈ t.head?, isBlank c = false := by
    intro c hc
    have hmem : c ∈ s.filter (!isBlank ·) := by
      rw [← hcompact]
      exact List.mem_append_right _ (List.mem_of_mem_head? hc)
    simpa using (List.mem_filter.1 hmem).2
  rw [(begun_glyphs ht).dropWhile_eq] at hf
  obtain ⟨c, t, rfl, hdigit⟩ := digit_of_foundBehind? hf
  obtain ⟨d, hd, hdc, -⟩ := hp.exists_digit hdigit
  have hfront : x.spoken.toList ++ d.word.toList <+: s.filter (!isBlank ·) := by
    rw [hdc, ← hcompact]
    exact ⟨t, by simp⟩
  have hword :=
    hwhole spellings hleading x hx d hd s ((List.mem_tails _ _).2 (List.suffix_refl s)) hfront
  rwa [dropWhile_of_not_blank hs] at hword

/-- The number that a text begins with is the same without the blanks of the text. -/
theorem Glyphic.glyphsAt?_filter (hp : p.Glyphic) (hs : ∀ c ∈ s.head?, isBlank c = false)
    (hwhole : p.Whole s) :
    p.glyphsAt? (s.filter (!isBlank ·)) =
      (p.glyphsAt? s).map fun f => { f with rest := f.rest.filter (!·.isBlank) } := by
  cases hleading : p.leading with
  | none =>
    rw [glyphsAt?_of_none hleading, glyphsAt?_of_none hleading, glyphs_filter,
      (begun_glyphs hs).foundBehind?_filter]
  | some spellings =>
    obtain ⟨x, rfl, -, hideographic⟩ := hp.leading spellings hleading
    rw [glyphsAt?_of_single hleading, glyphsAt?_of_single hleading]
    by_cases hw : x.spoken.toList <+: s
    · obtain ⟨t, rfl⟩ := hw
      have hnot : x.spoken.toList.filter (!isBlank ·) = x.spoken.toList :=
        filter_not_blank fun c hc => (hideographic c hc).not_blank
      rw [List.filter_append, hnot, isPrefixOf?_append, isPrefixOf?_append, Option.bind_some,
        Option.bind_some, glyphs_dropWhile, glyphs_dropWhile, glyphs_filter,
        (begun_filter _).dropWhile_eq, ← filter_dropWhile,
        (begun_dropWhile _).foundBehind?_filter]
    · rw [isPrefixOf?_eq_none hw, Option.bind_none, Option.map_none]
      refine Option.eq_none_iff_forall_ne_some.2 fun f hf => ?_
      obtain ⟨t, ht, hf⟩ := Option.bind_eq_some_iff.1 hf
      rw [glyphs_dropWhile] at hf
      exact hw (hp.prefix_of_compact hs hleading (List.mem_singleton_self x) hwhole
        (List.isPrefixOf?_eq_some_iff_append_eq.1 ht) hf)

/-- No number begins with a blank. -/
theorem Glyphic.glyphsAt?_blank (hp : p.Glyphic) (hc : isBlank c = true) (s : List Char) :
    p.glyphsAt? (c :: s) = none := by
  cases hleading : p.leading with
  | none =>
    rw [glyphsAt?_of_none hleading]
    refine Option.eq_none_iff_forall_ne_some.2 fun f hf => ?_
    obtain ⟨d, t, hdt, hdigit⟩ := digit_of_foundBehind? hf
    obtain ⟨rfl, -⟩ := List.cons.inj hdt
    rw [(hp.ideograph_of_digit hdigit).not_blank] at hc
    cases hc
  | some spellings =>
    obtain ⟨x, rfl, hne, hideographic⟩ := hp.leading spellings hleading
    rw [glyphsAt?_of_single hleading, isPrefixOf?_eq_none]
    · rfl
    · obtain ⟨g, w, hw⟩ := List.exists_cons_of_ne_nil hne
      rw [hw] at hideographic ⊢
      intro hfront
      rw [← (List.cons_prefix_cons.1 hfront).1, (hideographic g (by simp)).not_blank] at hc
      cases hc

def saidFrom (p : NumberPhrase) (c : Cursor) : List (Option String × String × Option String) :=
  (hitsAt (p.hitAt? p.words) Hit.stop c).filterMap fun q =>
    (q.2.match? p p.words q.1).map Match.said

theorem Hit.Tells.said_match? {h : Hit} {f : Found} (htells : h.Tells p f) (d : Cursor) :
    (h.match? p p.words d).map Match.said = (f.match? p 0 0).map Match.said := by
  unfold Hit.match? Found.match?
  rw [htells.leading_eq, htells.trailing_eq, htells.numerals_eq]
  cases f.leading with
  | none => rfl
  | some word =>
    simp only [Option.map_map]
    rfl

theorem Glyphic.said_find (hp : p.Glyphic) (s : List Char) :
    (p.find s).map Match.said = p.saidFrom (place [] s) := by
  have hmet : p.neverMet = false := by
    unfold neverMet
    split
    · rename_i hleading
      obtain ⟨x, hx, -⟩ := hp.leading [] hleading
      cases hx
    · rfl
  simp only [find, saidFrom, hmet, Bool.false_eq_true, if_false, hp.usable.advancing.hits_eq,
    List.map_filterMap]

theorem Glyphic.hitAt?_eq_none (hp : p.Glyphic) (h : p.glyphsAt? s = none) (b : List Char) :
    p.hitAt? p.words (place b s) = none := by
  rcases hp.hitAt?_glyphs b s with ⟨-, hno⟩ | ⟨f, -, -, -, hf, -⟩
  · exact hno
  · rw [h] at hf
    cases hf

theorem Glyphic.saidFrom_of_none (hp : p.Glyphic) (h : p.glyphsAt? (c :: s) = none)
    (b : List Char) : p.saidFrom (place b (c :: s)) = p.saidFrom (place (c :: b) s) := by
  rw [saidFrom, hp.usable.advancing.hitsAt_cons (hp.hitAt?_eq_none h b), saidFrom]

theorem Glyphic.saidFrom_of_some (hp : p.Glyphic) {f : Found} (h : p.glyphsAt? s = some f)
    (b : List Char) :
    ∃ u t, s = u ++ t ∧ u ≠ [] ∧ f.rest = glyphs t ∧ p.saidFrom (place b s) =
      ((f.match? p 0 0).map Match.said).toList ++ p.saidFrom (behind u b t) := by
  rcases hp.hitAt?_glyphs b s with ⟨hno, -⟩ | ⟨g, hit, u, t, hg, hhit, rfl, his⟩
  · rw [h] at hno
    cases hno
  · obtain rfl : f = g := Option.some.inj (h.symm.trans hg)
    refine ⟨u, t, rfl, his.ne_nil, his.rest_eq, ?_⟩
    rw [saidFrom, hp.usable.advancing.hitsAt_of_some hhit, List.filterMap_cons,
      his.said_match?, his.stop_eq]
    cases (f.match? p 0 0).map Match.said <;> rfl

theorem Glyphic.glyphsAt?_nil (hp : p.Glyphic) : p.glyphsAt? [] = none := by
  refine Option.eq_none_iff_forall_ne_some.2 fun f hf => ?_
  obtain ⟨u, t, hut, hu, -⟩ := hp.saidFrom_of_some hf []
  exact hu (List.append_eq_nil_iff.1 hut.symm).1

theorem Glyphic.saidFrom_nil (hp : p.Glyphic) (b : List Char) : p.saidFrom (place b []) = [] := by
  rw [saidFrom, hp.usable.advancing.hitsAt_nil (hp.hitAt?_eq_none hp.glyphsAt?_nil b)]
  rfl

/-- Characters with which no number begins are passed over. -/
theorem Glyphic.saidFrom_append (hp : p.Glyphic)
    (h : ∀ v ∈ u.tails, v ≠ [] → (p.glyphsAt? (v ++ s)).isNone) (b : List Char) :
    p.saidFrom (place b (u ++ s)) = p.saidFrom (behind u b s) := by
  rw [saidFrom, hp.usable.advancing.hitsAt_append, saidFrom]
  intro v w hvw hw
  have hnone := h w ((List.mem_tails w u).2 ⟨v, hvw⟩) hw
  exact hp.hitAt?_eq_none (Option.isNone_iff_eq_none.1 hnone) _

theorem Glyphic.saidFrom_filter (hp : p.Glyphic) (h : p.Whole s) (b b' : List Char) :
    p.saidFrom (place b' (s.filter (!isBlank ·))) = p.saidFrom (place b s) := by
  induction hn : s.length using Nat.strong_induction_on generalizing s b b' with
  | _ n ih =>
    subst hn
    cases s with
    | nil => rw [List.filter_nil, hp.saidFrom_nil, hp.saidFrom_nil]
    | cons c s =>
      by_cases hc : isBlank c = true
      · rw [List.filter_cons_of_neg (by simp [hc]), hp.saidFrom_of_none (hp.glyphsAt?_blank hc s)]
        exact ih _ (by simp) h.tail _ _ rfl
      · have hfilter := hp.glyphsAt?_filter (s := c :: s) (by rintro d ⟨⟩; simpa using hc) h
        rw [List.filter_cons_of_pos (by simpa using hc)] at hfilter ⊢
        cases hf : p.glyphsAt? (c :: s) with
        | none =>
          rw [hf] at hfilter
          rw [hp.saidFrom_of_none hf, hp.saidFrom_of_none hfilter]
          exact ih _ (by simp) h.tail _ _ rfl
        | some f =>
          rw [hf] at hfilter
          obtain ⟨u, t, hut, hu, hrest, hsaid⟩ := hp.saidFrom_of_some hf b
          obtain ⟨v, y, -, -, hrest', hsaid'⟩ := hp.saidFrom_of_some hfilter b'
          -- What is left without blanks is what is left of the text, without its blanks.
          obtain rfl : t.filter (!isBlank ·) = y := by
            refine glyphs_injective ?_
            rw [← hrest', glyphs_filter, ← hrest]
          have hlt : t.length < (c :: s).length := by
            have := List.length_pos_of_ne_nil hu
            rw [hut, List.length_append]
            omega
          rw [hut] at h
          rw [hsaid, hsaid', behind, behind, ih _ hlt h.of_append _ _ rfl]
          rfl

/-- Blanks make no difference to what the numbers of a text say, except inside a leading word. -/
theorem Glyphic.said_find_filter (hp : p.Glyphic) (h : p.Whole s) :
    (p.find (s.filter (!isBlank ·))).map Match.said = (p.find s).map Match.said := by
  rw [hp.said_find, hp.said_find, hp.saidFrom_filter h]

end NumberPhrase

end Phraseology
