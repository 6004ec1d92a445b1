import Phraseology.Proofs.Template.Elements
import Phraseology.Proofs.Text.Laid

/-! Templates that are written from tokens: reading one gives the tokens back. -/
namespace Phraseology.Template

open Text (Trimmed isBlank)

def Token.write : Token → String
  | .literal text => text
  | .element kind => String.ofList kind.marker
  | .choice alternatives => "<" ++ "|".intercalate alternatives ++ ">"
  | .optional text => "[" ++ text ++ "]"

def render (ts : List Token) : String := " ".intercalate (ts.map Token.write)

/-- Something is written, and no blank at either end. -/
structure Neat (s : List Char) : Prop where
  ne_nil : s ≠ []
  trimmed : Trimmed s

def openings : List Char := ['{', '<', '[']

/-- Nothing in the token would be read as the beginning or the end of something else. -/
def Token.Writable : Token → Prop
  | .literal text => Neat text.toList ∧ ∀ c ∈ text.toList, c ∉ openings
  | .element _ => True
  | .choice alternatives => alternatives ≠ [] ∧
      ∀ a ∈ alternatives, Neat a.toList ∧ '|' ∉ a.toList ∧ '>' ∉ a.toList
  | .optional text => Neat text.toList ∧ ']' ∉ text.toList

def Token.isLiteral : Token → Bool
  | .literal _ => true
  | _ => false

variable {c close : Char} {s u bl content rest : List Char} {t : Token} {ts : List Token}

/-- The tokens after the first come after at most a space. -/
theorem exists_toList_render_cons (t : Token) (ts : List Token) :
    ∃ bl, (∀ c ∈ bl, c = ' ') ∧
      (render (t :: ts)).toList = t.write.toList ++ (bl ++ (render ts).toList) := by
  unfold render
  cases ts with
  | nil => exact ⟨[], by simp, by simp⟩
  | cons u ts =>
    refine ⟨[' '], by simp, ?_⟩
    rw [List.map_cons, List.map_cons, String.intercalate_cons_cons, String.toList_append,
      String.toList_append, List.append_assoc]
    rfl

def tokensIn (s : List Char) : List Token := (pieces s).filterMap Piece.token?

theorem tokens_eq (template : String) : tokens template = tokensIn template.toList := rfl

theorem span?_of_not_opening (hc : c ∉ openings) (s : List Char) : span? (c :: s) = none := by
  unfold span?
  split
  all_goals simp_all [openings]

/-- The text begins with a span, if there is any of it. -/
def AtSpan (s : List Char) : Prop := s = [] ∨ ∃ p rest, span? s = some (p, rest)

/-- Plain text goes on to the next span. -/
theorem pieces_append (hne : u ≠ []) (hu : ∀ c ∈ u, c ∉ openings) (hs : AtSpan s) :
    pieces (u ++ s) = .plain u :: pieces s := by
  induction u with
  | nil => exact absurd rfl hne
  | cons c u ih =>
    obtain ⟨hc, hu⟩ := List.forall_mem_cons.1 hu
    rw [List.cons_append, pieces_plain (span?_of_not_opening hc _)]
    by_cases hnil : u = []
    · subst hnil
      rcases hs with rfl | ⟨p, rest, hspan⟩
      · rw [List.nil_append, pieces_nil]
        rfl
      · rw [List.nil_append, pieces_span hspan]
        -- A span is not plain text, so the character makes a piece of its own.
        cases p with
        | plain v =>
          obtain ⟨-, _, _, _, hclose, -⟩ := eq_of_span? hspan
          cases hclose
        | braces v | angles v | brackets v => rfl
    · rw [ih hnil hu]
      rfl

theorem tokensIn_append (hu : ∀ c ∈ u, c ∉ openings) (hs : AtSpan s) :
    tokensIn (u ++ s) = ((trimmed? u).map Token.literal).toList ++ tokensIn s := by
  unfold tokensIn
  by_cases hne : u = []
  · subst hne
    rfl
  · rw [pieces_append hne hu hs, List.filterMap_cons, Piece.token?]
    cases trimmed? u <;> rfl

theorem trimmed?_eq_none (h : ∀ c ∈ s, isBlank c = true) : trimmed? s = none := by
  rw [trimmed?, Text.trimChars_eq_nil_iff.2 (List.all_eq_true.2 h)]
  rfl

theorem neat_iff : Neat s ↔
    s ≠ [] ∧ (∀ c ∈ s.head?, isBlank c = false) ∧ ∀ c ∈ s.getLast?, isBlank c = false :=
  ⟨fun h => ⟨h.ne_nil, h.trimmed.head, h.trimmed.last⟩, fun h => ⟨h.1, h.2.1, h.2.2⟩⟩

theorem Neat.trimmed?_append {text : String} (h : Neat text.toList) {bl' : List Char}
    (hbl : ∀ c ∈ bl, isBlank c = true) (hbl' : ∀ c ∈ bl', isBlank c = true) :
    trimmed? (bl ++ (text.toList ++ bl')) = some text := by
  rw [trimmed?, h.trimmed.trimChars_append hbl hbl', if_neg (by simpa using h.ne_nil),
    String.ofList_toList]

theorem Neat.trimmed?_eq {text : String} (h : Neat text.toList) :
    trimmed? text.toList = some text := by
  have := h.trimmed?_append (List.forall_mem_nil _) (List.forall_mem_nil _)
  rwa [List.nil_append, List.append_nil] at this

theorem upTo?_append (hne : content ≠ []) (hclose : close ∉ content) (rest : List Char) :
    upTo? close (content ++ close :: rest) = some (content, rest) := by
  have hall : ∀ c ∈ content, (c != close) = true := by
    intro c hc
    rw [bne_iff_ne]
    rintro rfl
    exact hclose hc
  have htake : (content ++ close :: rest).takeWhile (· != close) = content := by
    rw [List.takeWhile_append_of_pos hall, List.takeWhile_cons_of_neg (by simp), List.append_nil]
  have hdrop : (content ++ close :: rest).dropWhile (· != close) = close :: rest := by
    rw [List.dropWhile_append_of_pos hall, List.dropWhile_cons_of_neg (by simp)]
  obtain ⟨c, content, rfl⟩ := List.exists_cons_of_ne_nil hne
  rw [upTo?, htake, hdrop]

theorem splitAt_eq_splitOn (separator : Char) (s : List Char) :
    splitAt separator s = s.splitOn separator := by
  induction s with
  | nil => rw [splitAt, List.splitOn_nil]
  | cons c s ih =>
    rw [splitAt, List.splitOn_cons_eq_if_modifyHead, ih]
    split_ifs
    · rfl
    · cases hsplit : s.splitOn separator with
      | nil => exact absurd hsplit (List.splitOn_ne_nil _ _)
      | cons part parts => rfl

theorem alternatives_intercalate {as : List String} (hne : as ≠ [])
    (has : ∀ a ∈ as, Neat a.toList ∧ '|' ∉ a.toList) :
    alternatives ("|".intercalate as).toList = as := by
  have hsplit : splitAt '|' ("|".intercalate as).toList = as.map String.toList := by
    have hbar : ("|" : String).toList = ['|'] := rfl
    rw [splitAt_eq_splitOn, String.toList_intercalate, hbar, List.splitOn_intercalate]
    · simpa using fun a ha => (has a ha).2
    · simpa using hne
  have htrim : (as.map String.toList).map Text.trimChars = as.map String.toList := by
    rw [List.map_map]
    exact List.map_congr_left fun a ha => (has a ha).1.trimmed.trimChars_eq
  have hfilter : (as.map String.toList).filter (!·.isEmpty) = as.map String.toList := by
    rw [List.filter_eq_self]
    simpa using fun a ha => (has a ha).1.ne_nil
  rw [alternatives, hsplit, htrim, hfilter, List.map_map]
  simp [Function.comp_def]

/-- A token that is not plain text is written as a span that says it. -/
theorem Token.Writable.exists_span (h : t.Writable) (hspan : t.isLiteral = false) :
    ∃ p, p.token? = some t ∧ ∀ rest, span? (t.write.toList ++ rest) = some (p, rest) := by
  cases t with
  | literal text => cases hspan
  | element kind =>
    refine ⟨.braces kind.name.toList, ?_, fun rest => ?_⟩
    · exact Piece.token?_eq_element_iff.2 ⟨_, rfl, trimChars_name kind⟩
    · rw [write, String.toList_ofList, span?_marker]
  | choice as =>
    obtain ⟨hne, has⟩ := h
    have halternatives := alternatives_intercalate hne fun a ha => ⟨(has a ha).1, (has a ha).2.1⟩
    have hcontent : ("|".intercalate as).toList ≠ [] := by
      obtain ⟨a, as, rfl⟩ := List.exists_cons_of_ne_nil hne
      intro hnil
      rw [hnil] at halternatives
      cases halternatives
    have hclose : '>' ∉ ("|".intercalate as).toList := by
      intro hmem
      rcases Text.exists_of_mem_intercalate hmem with hbar | ⟨a, ha, hmem⟩
      · exact absurd hbar (by decide)
      · exact (has a ha).2.2 hmem
    refine ⟨.angles ("|".intercalate as).toList, ?_, fun rest => ?_⟩
    · rw [Piece.token?, halternatives, if_neg (by simpa using hne)]
    · have hwrite : (Token.choice as).write.toList ++ rest =
          '<' :: (("|".intercalate as).toList ++ '>' :: rest) := by
        simp [write]
      rw [hwrite, span?, upTo?_append hcontent hclose]
      rfl
  | optional text =>
    obtain ⟨htext, hclose⟩ := h
    refine ⟨.brackets text.toList, ?_, fun rest => ?_⟩
    · rw [Piece.token?, htext.trimmed?_eq, Option.map_some]
    · have hwrite : (Token.optional text).write.toList ++ rest =
          '[' :: (text.toList ++ ']' :: rest) := by
        simp [write]
      rw [hwrite, span?, upTo?_append htext.ne_nil hclose]
      rfl

theorem atSpan_render (hts : ∀ t ∈ ts, t.Writable)
    (hfirst : ∀ t ∈ ts.head?, t.isLiteral = false) : AtSpan (render ts).toList := by
  cases ts with
  | nil => exact .inl rfl
  | cons t ts =>
    obtain ⟨bl, -, hrender⟩ := exists_toList_render_cons t ts
    obtain ⟨p, -, hspan⟩ := (hts t (by simp)).exists_span (hfirst t rfl)
    rw [hrender]
    exact .inr ⟨p, _, hspan _⟩

def Apart (t u : Token) : Prop := ¬ (t.isLiteral = true ∧ u.isLiteral = true)

instance : DecidableRel Apart := fun _ _ => inferInstanceAs (Decidable (¬ _))

theorem isBlank_of_spaces (hbl : ∀ c ∈ bl, c = ' ') : ∀ c ∈ bl, isBlank c = true := by
  intro c hc
  rw [hbl c hc]
  decide

theorem not_opening_of_spaces (hbl : ∀ c ∈ bl, c = ' ') : ∀ c ∈ bl, c ∉ openings := by
  intro c hc
  rw [hbl c hc]
  decide

/-- Spaces before a span are no token. -/
theorem tokensIn_span {t : Token} (ht : t.Writable) (hspan : t.isLiteral = false)
    (hbl : ∀ c ∈ bl, c = ' ') (rest : List Char) :
    tokensIn (bl ++ (t.write.toList ++ rest)) = t :: tokensIn rest := by
  obtain ⟨p, hp, hwrite⟩ := ht.exists_span hspan
  rw [tokensIn_append (not_opening_of_spaces hbl) (.inr ⟨p, _, hwrite _⟩),
    trimmed?_eq_none (isBlank_of_spaces hbl), tokensIn, pieces_span (hwrite _),
    List.filterMap_cons, hp]
  rfl

/-- Plain text and the spaces around it are one piece, up to the next span. -/
theorem tokensIn_literal {text : String} (ht : (Token.literal text).Writable)
    {bl' rest : List Char} (hbl : ∀ c ∈ bl, c = ' ') (hbl' : ∀ c ∈ bl', c = ' ')
    (hnext : AtSpan rest) :
    tokensIn (bl ++ ((Token.literal text).write.toList ++ (bl' ++ rest))) =
      .literal text :: tokensIn rest := by
  obtain ⟨htext, hopening⟩ := ht
  have hu : ∀ c ∈ bl ++ (text.toList ++ bl'), c ∉ openings :=
    List.forall_mem_append.2 ⟨not_opening_of_spaces hbl,
      List.forall_mem_append.2 ⟨hopening, not_opening_of_spaces hbl'⟩⟩
  have hsplit : bl ++ ((Token.literal text).write.toList ++ (bl' ++ rest)) =
      bl ++ (text.toList ++ bl') ++ rest := by
    simp [Token.write]
  rw [hsplit, tokensIn_append hu hnext,
    htext.trimmed?_append (isBlank_of_spaces hbl) (isBlank_of_spaces hbl')]
  rfl

theorem tokensIn_render (hts : ∀ t ∈ ts, t.Writable) (hapart : ts.IsChain Apart)
    (hbl : ∀ c ∈ bl, c = ' ') : tokensIn (bl ++ (render ts).toList) = ts := by
  induction ts generalizing bl with
  | nil =>
    have hnil : (render []).toList = [] := rfl
    rw [hnil, tokensIn_append (not_opening_of_spaces hbl) (.inl rfl),
      trimmed?_eq_none (isBlank_of_spaces hbl)]
    simp [tokensIn]
  | cons t ts ih =>
    obtain ⟨bl', hbl', hrender⟩ := exists_toList_render_cons t ts
    obtain ⟨ht, hts⟩ := List.forall_mem_cons.1 hts
    rw [hrender]
    cases hliteral : t.isLiteral with
    | false => rw [tokensIn_span ht hliteral hbl, ih hts hapart.tail hbl']
    | true =>
      have hnext : AtSpan (render ts).toList := by
        refine atSpan_render hts fun u hu => ?_
        have hboth : Apart t u := hapart.rel_head? hu
        simpa [Apart, hliteral] using hboth
      have hrest : tokensIn ([] ++ (render ts).toList) = ts :=
        ih hts hapart.tail (List.forall_mem_nil _)
      rw [List.nil_append] at hrest
      cases t with
      | literal text => rw [tokensIn_literal ht hbl hbl' hnext, hrest]
      | element | choice | optional => cases hliteral

/-- Reading a template that is written from tokens gives these tokens, if each can be written and no
two next to each other are plain text. -/
theorem tokens_render (hts : ∀ t ∈ ts, t.Writable) (hapart : ts.IsChain Apart) :
    tokens (render ts) = ts := by
  rw [tokens_eq, ← List.nil_append (render ts).toList]
  exact tokensIn_render hts hapart (List.forall_mem_nil _)

/-- In which what opens or closes one kind of span stands in another, and so does a line break. -/
def cleared : List Token :=
  [.element .aircraft, .literal "cleared] to", .choice ["\x7bland", "take\noff [now"],
    .optional "on <a|b", .element .runway]

theorem tokens_render_cleared :
    render cleared =
      "\x7bAircraft\x7d cleared] to <\x7bland|take\noff [now> [on <a|b] \x7bRunway\x7d" ∧
    tokens "\x7bAircraft\x7d cleared] to <\x7bland|take\noff [now> [on <a|b] \x7bRunway\x7d" =
      cleared := by
  have hrender : render cleared =
      "\x7bAircraft\x7d cleared] to <\x7bland|take\noff [now> [on <a|b] \x7bRunway\x7d" := by
    decide +kernel
  have hwritable : ∀ t ∈ cleared, t.Writable := by
    simp [cleared, Token.Writable, neat_iff, openings]
    decide
  exact ⟨hrender, hrender ▸ tokens_render hwritable (by decide)⟩

end Phraseology.Template
