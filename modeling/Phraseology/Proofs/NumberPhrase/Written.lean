import Phraseology.NumberPhrase
import Phraseology.Proofs.Regex.Flaw

/-! The written form of a number phrase can be read whatever its words are, so nothing but a limit
can stand in its way. -/
namespace Phraseology.NumberPhrase

open Automaton (boundFits fits_of_boundFits)
open Regex (Parts ofWords parts_empty parts_blanks parts_boundary alternatives_renderWords depth_ofWords_le
  depth_choice_le depth_sequence_le)

variable {l : Lexicon} {leading trailing : Option (List Spelling)} {min max : Nat}

/-- A word and the blanks behind it. In a spaced script it has to be a whole word. -/
def aroundWord (s : Script) (word : Regex) : List Regex :=
  match s with
  | .spaced => [.boundary, word, .boundary, .star .blank]
  | .ideographic => [word, .star .blank]

def leadingParts (p : NumberPhrase) : List Regex :=
  match p.words.leading with
  | none => []
  | some ws => aroundWord p.script (.capture "lead" (.choice (ofWords ws)))

def runPart (p : NumberPhrase) : Regex :=
  let copy := aroundWord p.script (.choice (ofWords p.words.digits))
  .capture "digits" (.choice [.sequence [.counted (.choice [.sequence copy]) p.min p.max]])

def trailingParts (p : NumberPhrase) : List Regex :=
  match p.script, p.words.trailing with
  | _, none => []
  | .spaced, some _ =>
    let word := Regex.capture "trail" (.choice [.sequence [.plus .wordChar]])
    [.optional (.choice [.sequence [.star .blank, .boundary, word, .boundary]])]
  | .ideographic, some ws =>
    let word := Regex.capture "trail" (.choice (ofWords ws ++ [.sequence [.wordChar]]))
    [.optional (.choice [.sequence [.star .blank, word]])]

def regex (p : NumberPhrase) : Regex :=
  .choice [.sequence (p.leadingParts ++ [p.runPart] ++ p.trailingParts)]

def digitRegex (p : NumberPhrase) : Regex := .choice (ofWords p.words.digits)

def renderAround (s : Script) (word : String) : String :=
  match s with
  | .spaced => "\\b" ++ word ++ "\\b" ++ "\\s*"
  | .ideographic => word ++ "\\s*"

theorem parts_renderAround (s : Script) {t : String} {r : Regex} (h : Parts t [r]) :
    Parts (renderAround s t) (aroundWord s r) := by
  cases s with
  | spaced => exact ((parts_boundary.append h).append parts_boundary).append parts_blanks
  | ideographic => exact h.append parts_blanks

theorem exists_renderRun (p : NumberPhrase) : ∃ t, Parts t p.leadingParts ∧
    p.renderRun = "(?i)" ++ (t ++ ("(?P<digits>" ++ ("(?:" ++
      renderAround p.script ("(?:" ++ Regex.renderWords p.words.digits ++ ")") ++ ")"))) := by
  obtain hnone | ⟨ws, hws⟩ := Option.eq_none_or_eq_some p.words.leading
  · refine ⟨"", by rw [leadingParts, hnone]; exact parts_empty, ?_⟩
    cases hs : p.script <;> simp [renderRun, renderAround, hs, hnone, ← String.toList_inj]
  · have hword := (alternatives_renderWords ws).capture "lead" (by simp) (List.all_eq_true.1 rfl)
    refine ⟨_, by rw [leadingParts, hws]; exact parts_renderAround p.script hword, ?_⟩
    cases hs : p.script <;> simp [renderRun, renderAround, hs, hws, ← String.toList_inj]

theorem exists_renderTrailing (p : NumberPhrase) : ∃ t, Parts t p.trailingParts ∧
    p.renderTrailing = ")" ++ t := by
  obtain hnone | ⟨ws, hws⟩ := Option.eq_none_or_eq_some p.words.trailing
  · refine ⟨"", by rw [trailingParts, hnone]; exact parts_empty, ?_⟩
    rw [renderTrailing, hnone]
    rfl
  · cases hs : p.script with
    | spaced =>
      have hchar : Parts "\\w" [.wordChar] := fun _ _ => rfl
      have hword := hchar.plus.alternatives.capture "trail" (by simp) (List.all_eq_true.1 rfl)
      have hparts := (parts_blanks.append parts_boundary).append (hword.append parts_boundary)
      refine ⟨_, by rw [trailingParts, hs, hws]; exact hparts.alternatives.group.optional, ?_⟩
      simp [renderTrailing, hs, hws]
    | ideographic =>
      have hchar : Parts "\\w" [.wordChar] := fun _ _ => rfl
      have hword := ((alternatives_renderWords ws).bar hchar.alternatives).capture "trail" (by simp)
        (List.all_eq_true.1 rfl)
      have hparts := parts_blanks.append hword
      refine ⟨_, by rw [trailingParts, hs, hws]; exact hparts.alternatives.group.optional, ?_⟩
      simp [renderTrailing, hs, hws, ← String.toList_inj]

theorem namesAmong_aroundWord (s : Script) (r : Regex) :
    Regex.namesAmong (aroundWord s r) = r.names := by
  cases s <;> simp [aroundWord]

/-- Each group has a name of its own, and none is read in a word. -/
theorem nodup_names_regex (p : NumberPhrase) : p.regex.names.Nodup := by
  have hlead : (Regex.namesAmong p.leadingParts).Sublist ["lead"] := by
    unfold leadingParts
    split <;> simp [namesAmong_aroundWord]
  have hrun : p.runPart.names = ["digits"] := by simp [runPart, namesAmong_aroundWord]
  have htrail : (Regex.namesAmong p.trailingParts).Sublist ["trail"] := by
    unfold trailingParts
    split <;> simp
  have hall : p.regex.names.Sublist ["lead", "digits", "trail"] := by
    have := (hlead.append (List.Sublist.refl ["digits"])).append htrail
    simpa [regex, hrun] using this
  exact hall.nodup (by decide)

theorem read?_renderDigit (p : NumberPhrase) :
    Regex.read? p.renderDigit.toList = some ⟨true, p.digitRegex⟩ :=
  Regex.read?_caseless (alternatives_renderWords p.words.digits) (by simp)

/-- The words that are looked for are read as they are, whatever characters stand in them. -/
theorem read?_render (p : NumberPhrase) :
    Regex.read? p.render.toList = some ⟨true, p.regex⟩ := by
  obtain ⟨before, hbefore, hrun⟩ := p.exists_renderRun
  obtain ⟨behind, hbehind, htrailing⟩ := p.exists_renderTrailing
  have hcopy := parts_renderAround p.script (alternatives_renderWords p.words.digits).group
  have hcopies := (hcopy.alternatives.group.counted p.min p.max).alternatives
  have hcaptured := hcopies.capture "digits" (by simp) (List.all_eq_true.1 rfl)
  have hread := Regex.read?_caseless ((hbefore.append hcaptured).append hbehind).alternatives
    p.nodup_names_regex
  refine Eq.trans (congrArg _ ?_) hread
  rw [render, hrun, htrailing]
  simp

theorem depth_aroundWord_le (s : Script) {r : Regex} {n : Nat} (h : r.depth ≤ n) (hn : 1 ≤ n) :
    ∀ q ∈ aroundWord s r, q.depth ≤ n := by
  cases s <;> simp [aroundWord, Regex.depth, h, hn]

theorem depth_leadingParts_le (p : NumberPhrase) : ∀ r ∈ p.leadingParts, r.depth ≤ 10 := by
  unfold leadingParts
  split
  · simp
  · rename_i ws _
    have hwords := depth_choice_le (depth_ofWords_le ws)
    exact depth_aroundWord_le p.script (r := .capture "lead" _) (hwords.trans (by decide)) (by decide)

theorem depth_runPart_le (p : NumberPhrase) : p.runPart.depth ≤ 10 := by
  have hwords := depth_choice_le (depth_ofWords_le p.words.digits)
  have hcopy := depth_sequence_le (depth_aroundWord_le p.script hwords (by decide))
  have hcopies := depth_choice_le (List.forall_mem_singleton.2 hcopy)
  have hcounted : (Regex.counted _ p.min p.max).depth ≤ 7 := Nat.succ_le_succ hcopies
  exact depth_choice_le (List.forall_mem_singleton.2
    (depth_sequence_le (List.forall_mem_singleton.2 hcounted)))

theorem depth_trailingParts_le (p : NumberPhrase) : ∀ r ∈ p.trailingParts, r.depth ≤ 10 := by
  unfold trailingParts
  split
  · simp
  · exact List.forall_mem_singleton.2 (by simp [Regex.depth, Regex.depths])
  · rename_i ws _ _
    have hwords : ∀ r ∈ ofWords ws ++ [.sequence [.wordChar]], r.depth ≤ 1 :=
      List.forall_mem_append.2 ⟨depth_ofWords_le ws, by simp [Regex.depth, Regex.depths]⟩
    have hparts : ∀ r ∈ [Regex.star .blank, .capture "trail" (.choice _)], r.depth ≤ 3 :=
      List.forall_mem_cons.2 ⟨by simp [Regex.depth], List.forall_mem_singleton.2 (depth_choice_le hwords)⟩
    have hgroup := depth_choice_le (List.forall_mem_singleton.2 (depth_sequence_le hparts))
    exact List.forall_mem_singleton.2 ((Nat.succ_le_succ hgroup).trans (by decide))

/-- Groups and repetitions are far from being nested too deep. -/
theorem depth_regex_le (p : NumberPhrase) : p.regex.depth ≤ 13 := by
  refine depth_choice_le (List.forall_mem_singleton.2 (depth_sequence_le ?_))
  exact List.forall_mem_append.2 ⟨List.forall_mem_append.2 ⟨p.depth_leadingParts_le,
    List.forall_mem_singleton.2 p.depth_runPart_le⟩, p.depth_trailingParts_le⟩

/-- A number phrase that is small enough and, unless it is met nowhere, can be counted. -/
structure Fits (p : NumberPhrase) : Prop where
  digits : Regex.Small false p.renderDigit
  count : p.neverMet = false → p.max ≤ Repetition.countLimit
  size : p.neverMet = false → Regex.Small false p.render

theorem fits_of_small {p : NumberPhrase} (hcount : p.max ≤ Repetition.countLimit)
    (hdigits : boundFits (p.digitRegex.expr true)) (hall : boundFits (p.regex.expr true)) : p.Fits :=
  ⟨(Regex.small_iff p.read?_renderDigit).2 (fits_of_boundFits false hdigits), fun _ => hcount,
    fun _ => (Regex.small_iff p.read?_render).2 (fits_of_boundFits false hall)⟩

/-- Bounds that are in order leave nothing but the limits to be wrong. -/
theorem flaw?_eq_none_iff {p : NumberPhrase} (hle : p.min ≤ p.max) : p.flaw? = none ↔ p.Fits := by
  have hdigit : p.digitRegex.tooDeep? p.renderDigit = none :=
    Regex.tooDeep?_eq_none ((depth_choice_le (depth_ofWords_le _)).trans (by decide))
  have hall : p.regex.tooDeep? p.render = none :=
    Regex.tooDeep?_eq_none (p.depth_regex_le.trans (by decide))
  rw [flaw?, Option.or_eq_none_iff, Regex.flaw?_eq_none_iff p.read?_renderDigit]
  cases hnever : p.neverMet with
  | true =>
    rw [if_pos rfl]
    exact ⟨fun h => ⟨h.1.2, by simp [hnever], by simp [hnever]⟩, fun h => ⟨⟨hdigit, h.digits⟩, rfl⟩⟩
  | false =>
    rw [if_neg (by simp), Regex.flaw?_eq_none_iff p.read?_render, Option.or_eq_none_iff,
      Option.map_eq_none_iff, Repetition.flaw?_eq_none_iff]
    exact ⟨fun h => ⟨h.1.2, fun _ => h.2.1.1.2, fun _ => h.2.2⟩,
      fun h => ⟨⟨hdigit, h.digits⟩, ⟨⟨hle, h.count hnever⟩, hall⟩, h.size hnever⟩⟩

theorem make_eq_ok_iff {p : NumberPhrase} (hle : min ≤ max) :
    make l leading min max trailing = .ok p ↔
      p = ⟨l.script, l.digits, leading, min, max, trailing⟩ ∧ p.Fits := by
  simp only [make]
  split
  · rename_i hflaw
    have hfits := (flaw?_eq_none_iff hle).1 hflaw
    constructor
    · intro h
      obtain rfl := Except.ok.inj h
      exact ⟨rfl, hfits⟩
    · rintro ⟨rfl, -⟩
      rfl
  · rename_i flaw hflaw
    refine iff_of_false (by simp) ?_
    rintro ⟨rfl, hfits⟩
    rw [(flaw?_eq_none_iff hle).2 hfits] at hflaw
    cases hflaw

/-- A number phrase whose bound is within the limit can be made. -/
theorem make_eq_ok (hle : min ≤ max) (hcount : max ≤ Repetition.countLimit)
    (hdigits : boundFits
      ((NumberPhrase.mk l.script l.digits leading min max trailing).digitRegex.expr true))
    (hall : boundFits
      ((NumberPhrase.mk l.script l.digits leading min max trailing).regex.expr true)) :
    make l leading min max trailing = .ok ⟨l.script, l.digits, leading, min, max, trailing⟩ :=
  (make_eq_ok_iff hle).2 ⟨rfl, fits_of_small hcount hdigits hall⟩

end Phraseology.NumberPhrase
