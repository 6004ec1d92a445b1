import Phraseology.Phrase.Pattern
import Phraseology.Proofs.Text.Laid
import Phraseology.Proofs.Text.Onward

/-! A text that a pattern accepts is made of words that the pattern spells, with blanks between
them. -/
namespace Phraseology

open Text

namespace Text.Cursor

/-- From one place over words and the blanks behind them to another. -/
def Lays (c : Cursor) (ws : List (List Char)) (d : Cursor) : Prop :=
  ∃ u s, c.after = u ++ s ∧ Laid ws u ∧ d = behind u c.before s

theorem Lays.refl (c : Cursor) : c.Lays [] c :=
  ⟨[], c.after, rfl, .nil, (place_eta c).symm⟩

theorem Lays.trans {c d e : Cursor} {us ws : List (List Char)} (h₁ : c.Lays us d)
    (h₂ : d.Lays ws e) : c.Lays (us ++ ws) e := by
  obtain ⟨u, s, hc, hu, rfl⟩ := h₁
  obtain ⟨v, t, hs, hv, rfl⟩ := h₂
  rw [place_after] at hs
  refine ⟨u ++ v, t, ?_, hu.append hv, ?_⟩
  · rw [hc, hs, List.append_assoc]
  · rw [behind_append]
    rfl

theorem Lays.on {c d : Cursor} {ws : List (List Char)} {text : List Char} (h : c.Lays ws d)
    (hc : On text c) : On text d := by
  obtain ⟨u, s, hs, -, hd⟩ := h
  exact Onward.on ⟨u, s, hs, hd⟩ hc

end Text.Cursor

namespace Pattern

open Text.Cursor

/-- The lists of words that a pattern is a pattern of. -/
inductive Spells : Pattern → List (List Char) → Prop where
  | word (w : List Char) : Spells (.word w) [w]
  | nil : Spells (.spaced []) []
  | cons {p : Pattern} {rest : List Pattern} {us ws : List (List Char)} (first : Spells p us)
      (others : Spells (.spaced rest) ws) : Spells (.spaced (p :: rest)) (us ++ ws)
  | choice {alternatives : List Pattern} {p : Pattern} {ws : List (List Char)}
      (mem : p ∈ alternatives) (spells : Spells p ws) : Spells (.choice alternatives) ws
  | repeated {body : Pattern} {min max : Nat} (wss : List (List (List Char)))
      (copies : ∀ ws ∈ wss, Spells body ws) (lower : min ≤ wss.length)
      (upper : wss.length ≤ min + (max - min)) : Spells (.repeated body min max) wss.flatten

/-- From one place over so many copies to another. -/
def Copies (body : Pattern) (n : Nat) (c d : Cursor) : Prop :=
  ∃ wss : List (List (List Char)), wss.length = n ∧ (∀ ws ∈ wss, body.Spells ws) ∧
    c.Lays wss.flatten d

variable {body : Pattern} {text : List Char} {step : List Cursor → List Cursor}
  {cs : List Cursor} {c d e : Cursor} {m n : Nat}

theorem Copies.refl (body : Pattern) (c : Cursor) : Copies body 0 c c := ⟨[], rfl, by simp, .refl c⟩

theorem Copies.trans (h₁ : Copies body m c d) (h₂ : Copies body n d e) :
    Copies body (m + n) c e := by
  obtain ⟨us, rfl, hus, hcd⟩ := h₁
  obtain ⟨ws, rfl, hws, hde⟩ := h₂
  refine ⟨us ++ ws, List.length_append, List.forall_mem_append.2 ⟨hus, hws⟩, ?_⟩
  rw [List.flatten_append]
  exact hcd.trans hde

theorem Copies.on (h : Copies body n c d) (hc : On text c) : On text d := by
  obtain ⟨ws, -, -, hcd⟩ := h
  exact hcd.on hc

/-- A step leads over one copy. -/
def Sound (text : List Char) (body : Pattern) (step : List Cursor → List Cursor) : Prop :=
  ∀ cs, (∀ c ∈ cs, On text c) → ∀ d ∈ step cs, ∃ c ∈ cs, Copies body 1 c d

theorem Sound.on (hs : Sound text body step) (hcs : ∀ c ∈ cs, On text c) :
    ∀ d ∈ step cs, On text d := by
  intro d hd
  obtain ⟨c, hc, hcd⟩ := hs cs hcs d hd
  exact hcd.on (hcs c hc)

theorem Sound.closure (hs : Sound text body step) {seen : Std.HashSet Nat}
    (hcs : ∀ c ∈ cs, On text c) (hd : d ∈ closure step n seen cs) :
    ∃ c ∈ cs, ∃ k ≤ n, Copies body k c d := by
  induction n generalizing seen cs with
  | zero => exact ⟨d, hd, 0, le_rfl, .refl body d⟩
  | succ n ih =>
    have hnext : ∀ e ∈ distinctFrom seen (step cs), e ∈ step cs := fun e => mem_of_mem_distinctFrom
    simp only [Pattern.closure] at hd
    split_ifs at hd
    · exact ⟨d, hd, 0, Nat.zero_le _, .refl body d⟩
    · rcases List.mem_append.1 hd with hd | hd
      · exact ⟨d, hd, 0, Nat.zero_le _, .refl body d⟩
      · obtain ⟨e, he, k, hk, hed⟩ := ih (fun e he => hs.on hcs e (hnext e he)) hd
        obtain ⟨c, hc, hce⟩ := hs cs hcs e (hnext e he)
        exact ⟨c, hc, 1 + k, by omega, hce.trans hed⟩

theorem exists_of_allAmong {ds : List Cursor} (h : allAmong cs ds = true) (hc : c ∈ cs) :
    ∃ d ∈ ds, d.offset = c.offset := by
  have := List.all_eq_true.1 h c hc
  rw [Std.HashSet.contains_ofList] at this
  simpa [offsets] using this

/-- Where a step leads back to all places that it was taken from, any number of steps does. -/
theorem Sound.back (hs : Sound text body step) (hcs : ∀ c ∈ cs, On text c)
    (h : allAmong cs (step cs) = true) (hc : c ∈ cs) (n : Nat) :
    ∃ c' ∈ cs, Copies body n c' c := by
  induction n generalizing c with
  | zero => exact ⟨c, hc, .refl body c⟩
  | succ n ih =>
    obtain ⟨d, hd, hoffset⟩ := exists_of_allAmong h hc
    obtain rfl : d = c := (hs.on hcs d hd).eq_of_offset_eq (hcs c hc) hoffset
    obtain ⟨e, he, hed⟩ := hs cs hcs d hd
    obtain ⟨c', hc', hce⟩ := ih he
    exact ⟨c', hc', hce.trans hed⟩

theorem Sound.exactly (hs : Sound text body step) (hcs : ∀ c ∈ cs, On text c)
    (hd : d ∈ exactly step n cs) : ∃ c ∈ cs, Copies body n c d := by
  induction n generalizing cs with
  | zero => exact ⟨d, hd, .refl body d⟩
  | succ n ih =>
    simp only [Pattern.exactly] at hd
    split_ifs at hd with hback
    · obtain ⟨c, hc, k, hk, hcd⟩ := hs.closure hcs hd
      obtain ⟨c', hc', hcc⟩ := hs.back hcs hback hc (n + 1 - k)
      refine ⟨c', hc', ?_⟩
      rw [show n + 1 = n + 1 - k + k by omega]
      exact hcc.trans hcd
    · obtain ⟨e, he, hed⟩ := ih (hs.on hcs) hd
      obtain ⟨c, hc, hce⟩ := hs cs hcs e he
      refine ⟨c, hc, ?_⟩
      rw [Nat.add_comm]
      exact hce.trans hed

theorem lays_word {w : List Char} (h : word? w c = some d) : c.Lays [w] d.skipBlanks := by
  rw [← place_eta c] at h
  obtain ⟨u, s, hs, hwu, rfl⟩ := word?_eq_some_iff.1 h
  refine ⟨u ++ (s.takeWhile isBlank ++ []), s.dropWhile isBlank, ?_,
    .cons hwu (fun c => List.mem_takeWhile_imp) .nil, ?_⟩
  · rw [List.append_nil, List.append_assoc, List.takeWhile_append_dropWhile, hs]
  · rw [skipBlanks_place, List.append_nil, behind_append]

mutual

theorem lays_of_mem_after (text : List Char) : (p : Pattern) → (cs : List Cursor) →
    (∀ c ∈ cs, On text c) → ∀ d ∈ p.after cs, ∃ c ∈ cs, ∃ ws, p.Spells ws ∧ c.Lays ws d
  | .word w, cs, _, d, hd => by
    simp only [after, List.mem_map, List.mem_filterMap] at hd
    obtain ⟨e, ⟨c, hc, he⟩, rfl⟩ := hd
    exact ⟨c, hc, [w], .word w, lays_word he⟩
  | .spaced parts, cs, hcs, d, hd => lays_of_mem_afterAll text parts cs hcs d hd
  | .choice alternatives, cs, hcs, d, hd => by
    simp only [after] at hd
    obtain ⟨c, hc, p, hp, ws, hws, hcd⟩ :=
      lays_of_mem_afterAny text alternatives cs hcs d (mem_of_mem_distinctFrom hd)
    exact ⟨c, hc, ws, .choice hp hws, hcd⟩
  | .repeated body min max, cs, hcs, d, hd => by
    have hsound : Sound text body (after body) := by
      intro cs hcs d hd
      obtain ⟨c, hc, ws, hws, hcd⟩ := lays_of_mem_after text body cs hcs d hd
      exact ⟨c, hc, [ws], rfl, by simpa using hws, by simpa using hcd⟩
    have hexactly : ∀ e ∈ Pattern.exactly (after body) min cs, On text e := by
      intro e he
      obtain ⟨c, hc, hce⟩ := hsound.exactly hcs he
      exact hce.on (hcs c hc)
    simp only [after] at hd
    obtain ⟨e, he, k, hk, hed⟩ := hsound.closure hexactly hd
    obtain ⟨c, hc, hce⟩ := hsound.exactly hcs he
    obtain ⟨wss, hlength, hwss, hcd⟩ := hce.trans hed
    exact ⟨c, hc, _, .repeated wss hwss (by omega) (by omega), hcd⟩

theorem lays_of_mem_afterAll (text : List Char) : (ps : List Pattern) → (cs : List Cursor) →
    (∀ c ∈ cs, On text c) → ∀ d ∈ afterAll ps cs, ∃ c ∈ cs, ∃ ws,
      (Pattern.spaced ps).Spells ws ∧ c.Lays ws d
  | [], _, _, d, hd => ⟨d, hd, [], .nil, .refl d⟩
  | p :: rest, cs, hcs, d, hd => by
    have hp := lays_of_mem_after text p cs hcs
    have hon : ∀ e ∈ p.after cs, On text e := by
      intro e he
      obtain ⟨c, hc, ws, -, hce⟩ := hp e he
      exact hce.on (hcs c hc)
    obtain ⟨e, he, ws, hws, hed⟩ := lays_of_mem_afterAll text rest (p.after cs) hon d hd
    obtain ⟨c, hc, us, hus, hce⟩ := hp e he
    exact ⟨c, hc, us ++ ws, .cons hus hws, hce.trans hed⟩

theorem lays_of_mem_afterAny (text : List Char) : (ps : List Pattern) → (cs : List Cursor) →
    (∀ c ∈ cs, On text c) → ∀ d ∈ afterAny ps cs, ∃ c ∈ cs, ∃ p ∈ ps, ∃ ws,
      p.Spells ws ∧ c.Lays ws d
  | [], _, _, d, hd => by cases hd
  | p :: rest, cs, hcs, d, hd => by
    rcases List.mem_append.1 hd with hd | hd
    · obtain ⟨c, hc, ws, hws, hcd⟩ := lays_of_mem_after text p cs hcs d hd
      exact ⟨c, hc, p, by simp, ws, hws, hcd⟩
    · obtain ⟨c, hc, q, hq, ws, hws, hcd⟩ := lays_of_mem_afterAny text rest cs hcs d hd
      exact ⟨c, hc, q, List.mem_cons_of_mem p hq, ws, hws, hcd⟩

end

/-- A text that is accepted is made of words that the pattern spells. -/
theorem exists_spread_of_accepts {p : Pattern} {text : String} (h : p.accepts text = true) :
    ∃ ws, p.Spells ws ∧ Spread ws text.toList := by
  obtain ⟨d, hd, hend⟩ := List.any_eq_true.1 h
  have hstart : (start text.toList).skipBlanks =
      behind (text.toList.takeWhile isBlank) [] (text.toList.dropWhile isBlank) := by
    rw [start_eq, skipBlanks_place]
  have hon : ∀ c ∈ [(start text.toList).skipBlanks], On text.toList c := by
    intro c hc
    rw [List.mem_singleton.1 hc, hstart, On, place_before, place_after, List.append_nil,
      List.reverse_reverse, List.takeWhile_append_dropWhile]
  obtain ⟨c, hc, ws, hws, u, s, hs, hu, rfl⟩ := lays_of_mem_after text.toList p _ hon d hd
  rw [List.mem_singleton.1 hc, hstart, place_after] at hs
  obtain rfl : s = [] := by simpa using hend
  refine ⟨ws, hws, text.toList.takeWhile isBlank, u, ?_, fun c => List.mem_takeWhile_imp, hu⟩
  rw [← List.append_nil u, ← hs, List.takeWhile_append_dropWhile]

end Pattern

end Phraseology
