import Phraseology.Proofs.Text.Laid

/-! Words that are not run together: there are blanks between any two of them. -/
namespace Phraseology.Text

/-- The words one after another, up to case, with blanks between any two and any number of them
behind the last. -/
inductive Apart : List (List Char) → List Char → Prop where
  | nil : Apart [] []
  | cons {w v bl u : List Char} {ws : List (List Char)} (alike : Alike w v)
      (blank : ∀ c ∈ bl, isBlank c = true) (gap : u ≠ [] → bl ≠ []) (rest : Apart ws u) :
      Apart (w :: ws) (v ++ (bl ++ u))

variable {us ws : List (List Char)} {t u v w : List Char}

theorem Apart.laid (h : Apart ws t) : Laid ws t := by
  induction h with
  | nil => exact .nil
  | cons alike blank gap rest ih => exact .cons alike blank ih

/-- Where words that stand apart are cut in two, either the cut is at an end or blanks are before
it. -/
theorem Apart.of_append (h : Apart (us ++ ws) t) :
    ∃ u v, t = u ++ v ∧ Apart us u ∧ Apart ws v ∧
      (v ≠ [] → ∀ c ∈ u.getLast?, isBlank c = true) := by
  induction us generalizing t with
  | nil => exact ⟨[], t, rfl, .nil, h, by simp⟩
  | cons w us ih =>
    cases h with
    | @cons _ v bl u _ alike blank gap rest =>
      obtain ⟨y, z, rfl, hy, hz, hlast⟩ := ih rest
      refine ⟨v ++ (bl ++ y), z, by simp, .cons alike blank (fun hne => gap (by simp [hne])) hy, hz,
        fun hne c hc => ?_⟩
      have hbl : bl ≠ [] := gap (by simp [hne])
      rw [List.getLast?_append_of_ne_nil _ (by simp [hbl])] at hc
      cases y with
      | nil =>
        rw [List.append_nil] at hc
        exact blank c (List.mem_of_mem_getLast? hc)
      | cons d y =>
        rw [List.getLast?_append_of_ne_nil _ (by simp)] at hc
        exact hlast hne c hc

/-- The text begins and ends with a word character. -/
def Edged (w : List Char) : Prop := StartsWord w ∧ StartsWord w.reverse

theorem StartsWord.ne_nil (h : StartsWord w) : w ≠ [] := by
  rintro rfl
  exact not_startsWord_nil h

theorem StartsWord.append (h : StartsWord w) (t : List Char) : StartsWord (w ++ t) := by
  obtain ⟨c, w, rfl⟩ := List.exists_cons_of_ne_nil h.ne_nil
  exact h

theorem StartsWord.of_alike (h : StartsWord w) (hwv : Alike w v) : StartsWord v := by
  obtain ⟨c, w, rfl⟩ := List.exists_cons_of_ne_nil h.ne_nil
  obtain ⟨d, v, rfl⟩ := List.exists_cons_of_ne_nil (mt hwv.eq_nil_iff.2 h.ne_nil)
  rw [startsWord_cons_iff] at h ⊢
  rwa [← isWordChar_eq_of_alike (alike_cons_iff.1 hwv).1]

theorem Alike.reverse (h : Alike u v) : Alike u.reverse v.reverse := by
  rw [Alike, List.map_reverse, List.map_reverse, h]

theorem Edged.of_alike (h : Edged w) (hwv : Alike w v) : Edged v :=
  ⟨h.1.of_alike hwv, h.2.of_alike hwv.reverse⟩

theorem StartsWord.not_blank (h : StartsWord w) : ∀ c ∈ w.head?, isBlank c = false := by
  obtain ⟨c, w, rfl⟩ := List.exists_cons_of_ne_nil h.ne_nil
  rintro d hd
  obtain rfl := Option.some.inj hd
  exact not_blank_of_isWordChar (startsWord_cons_iff.1 h)

theorem Edged.trimmed (h : Edged w) : Trimmed w :=
  ⟨h.1.not_blank, fun c hc => h.2.not_blank c (by rwa [List.head?_reverse])⟩

theorem Apart.eq_nil_iff (h : Apart ws u) (hws : ∀ w ∈ ws, Edged w) : u = [] ↔ ws = [] := by
  cases h with
  | nil => simp
  | cons alike blank gap rest =>
    have hv := ((hws _ (by simp)).of_alike alike).1.ne_nil
    simp [hv]

/-- The words of a name stand somewhere in the text, whatever blanks there are between them. -/
def HasWords (name t : List Char) : Prop := ∃ v, v <:+: t ∧ Laid (wordChars name) v

theorem HasWords.of_alike (h : Alike w v) (hv : v <:+: t) : HasWords w t := by
  obtain ⟨bl, u, rfl, -, hu⟩ := (spread_wordChars w).of_alike h
  exact ⟨u, List.IsInfix.trans ⟨bl, [], List.append_nil _⟩ hv, hu⟩

/-- Wherever the words of a name stand in the text, the same blanks are between them as in the
name. -/
def StandsWhole (name t : List Char) : Prop :=
  ∀ v, v <:+: t → Trimmed v → Laid (wordChars name) v → Alike (trimChars name) v

/-- A name stands in one piece where its words do, and blanks are around it. -/
theorem Apart.exists_whole {b : List Char} (h : Apart (wordChars w) u) (hu : u <:+: t)
    (hw : StandsWhole w t) (hbehind : b ≠ [] → ∀ c ∈ u.getLast?, isBlank c = true) :
    ∃ v bl, u = v ++ bl ∧ (∀ c ∈ bl, isBlank c = true) ∧ Alike (trimChars w) v ∧
      (v ≠ [] → b ≠ [] → bl ≠ []) := by
  obtain ⟨v, bl, rfl, hbl, hlaid, htrimmed, -⟩ :=
    h.laid.exists_trimmed fun _ => unbroken_of_mem_wordChars
  refine ⟨v, bl, rfl, hbl, hw v (List.IsInfix.trans ⟨[], bl, rfl⟩ hu) htrimmed hlaid, ?_⟩
  rintro hv hb rfl
  rw [List.append_nil] at hbehind
  have hlast := List.getLast?_eq_some_getLast hv
  have hblank := hbehind hb _ hlast
  rw [htrimmed.last _ hlast] at hblank
  cases hblank

/-- Words that stand apart go on where blanks are before the next word. -/
theorem Apart.append (hu : Apart us u) (hv : Apart ws v) (hus : ∀ w ∈ us, Edged w)
    (hgap : v ≠ [] → ∀ c ∈ u.getLast?, isBlank c = true) : Apart (us ++ ws) (u ++ v) := by
  induction hu with
  | nil => exact hv
  | @cons w y bl u us alike blank gap rest ih =>
    obtain ⟨hw, hus⟩ := List.forall_mem_cons.1 hus
    rw [List.append_assoc, List.append_assoc]
    refine .cons alike blank ?_ (ih hus fun hne c hc => hgap hne c ?_)
    · rintro hne rfl
      obtain rfl : u = [] := by simpa using gap
      have hlast := List.getLast?_eq_some_getLast (hw.of_alike alike).1.ne_nil
      have hblank := hgap hne _ (by simpa using hlast)
      rw [(hw.of_alike alike).trimmed.last _ hlast] at hblank
      cases hblank
    · have hu : u ≠ [] := by
        rintro rfl
        cases hc
      rwa [List.getLast?_append_of_ne_nil _ (by simp [hu]), List.getLast?_append_of_ne_nil _ hu]

/-- A name with a word character at each end stands apart where its words do. -/
theorem Apart.singleton (h : Apart (wordChars w) u) (hu : u <:+: t) (hw : StandsWhole w t)
    (hedged : Edged w) : Apart [w] u := by
  obtain ⟨v, bl, rfl, hbl, halike, -⟩ := h.exists_whole (b := []) hu hw (by simp)
  rw [hedged.trimmed.trimChars_eq] at halike
  simpa using Apart.cons halike hbl (fun h => absurd rfl h) .nil

end Phraseology.Text
