import Phraseology.Proofs.Template.Rendered

/-! Templates of any form: of what is written in one, only blanks and the delimiters of choices and
optional parts are missing from its tokens. -/
namespace Phraseology.Template

open Text (isBlank trimChars trimmed_trimChars)

/-- The characters that part a choice or an optional part from the rest and the alternatives from
each other. -/
def delimiters : List Char := ['<', '>', '[', ']', '|']

/-- A character that says something wherever it stands. -/
def isKept (c : Char) : Bool := !isBlank c && !delimiters.contains c

/-- What a token says, without the delimiters that it is written with. -/
def Token.content : Token → List Char
  | .literal text => text.toList
  | .element kind => kind.marker
  | .choice alternatives => alternatives.flatMap String.toList
  | .optional text => text.toList

/-- Nothing in a token is empty, has blanks at its ends or closes what it stands in. -/
def Token.WellFormed : Token → Prop
  | .literal text => Neat text.toList
  | .element _ => True
  | .choice alternatives => alternatives ≠ [] ∧
      ∀ a ∈ alternatives, Neat a.toList ∧ '|' ∉ a.toList ∧ '>' ∉ a.toList
  | .optional text => Neat text.toList ∧ ']' ∉ text.toList

variable {c : Char} {s rest part : List Char} {p : Piece} {t : Token} {text : String}

theorem filter_isKept_blanks (h : ∀ c ∈ s, isBlank c = true) : s.filter isKept = [] :=
  List.filter_eq_nil_iff.2 fun c hc => by simp [isKept, h c hc]

/-- Trimming takes nothing away but blanks. -/
theorem filter_isKept_trimChars (s : List Char) :
    (trimChars s).filter isKept = s.filter isKept := by
  obtain ⟨bl, bl', hs, hbl, hbl'⟩ := Text.exists_trimChars s
  conv_rhs => rw [hs, List.filter_append, List.filter_append, filter_isKept_blanks hbl,
    filter_isKept_blanks hbl', List.nil_append, List.append_nil]

theorem mem_of_mem_trimChars (h : c ∈ trimChars s) : c ∈ s := by
  obtain ⟨bl, bl', hs, -, -⟩ := Text.exists_trimChars s
  rw [hs]
  exact List.mem_append_right _ (List.mem_append_left _ h)

/-- What closes a piece does not stand in it. -/
def Piece.Closed : Piece → Prop
  | .plain _ => True
  | .braces s => '}' ∉ s
  | .angles s => '>' ∉ s
  | .brackets s => ']' ∉ s

theorem closed_of_span? (h : span? s = some (p, rest)) : p.Closed := by
  unfold span? at h
  split at h
  all_goals first
    | cases h
    | obtain ⟨⟨content, rest'⟩, hq, he⟩ := Option.map_eq_some_iff.1 h
      cases he
      exact (eq_of_upTo? hq).2

theorem closed_of_mem_pieces (h : p ∈ pieces s) : p.Closed := by
  induction s using piece_induction with
  | nil =>
    rw [pieces_nil] at h
    cases h
  | span s q rest hspan ih =>
    rw [pieces_span hspan] at h
    rcases List.mem_cons.1 h with rfl | h
    · exact closed_of_span? hspan
    · exact ih h
  | plain c t hspan ih =>
    rw [pieces_plain hspan] at h
    obtain ⟨u, rest, hcons, hpieces⟩ := plainCons_cases c (pieces t)
    rw [hcons] at h
    rcases List.mem_cons.1 h with rfl | h
    · exact trivial
    · rcases hpieces with hpieces | ⟨-, hpieces⟩
      · exact ih (hpieces ▸ List.mem_cons_of_mem _ h)
      · exact ih (hpieces ▸ h)

/-- Only the separators are missing from the parts. -/
theorem flatten_splitAt (separator : Char) (s : List Char) :
    (splitAt separator s).flatten = s.filter (· != separator) := by
  induction s with
  | nil => rfl
  | cons c s ih =>
    rw [splitAt]
    split_ifs with hc
    · rw [List.flatten_cons, List.nil_append, ih, List.filter_cons_of_neg (by simpa using hc)]
    · rw [List.filter_cons_of_pos (by simpa using hc), ← ih]
      cases splitAt separator s <;> rfl

theorem mem_of_mem_splitAt {separator : Char} (hpart : part ∈ splitAt separator s) (hc : c ∈ part) :
    c ∈ s ∧ c ≠ separator := by
  have hflatten : c ∈ (splitAt separator s).flatten := List.mem_flatten.2 ⟨part, hpart, hc⟩
  rw [flatten_splitAt] at hflatten
  simpa using List.mem_filter.1 hflatten

theorem exists_of_mem_alternatives (h : text ∈ alternatives s) :
    Neat text.toList ∧ ∃ part ∈ splitAt '|' s, text.toList = trimChars part := by
  obtain ⟨a, ha, rfl⟩ := List.mem_map.1 h
  obtain ⟨ha, hne⟩ := List.mem_filter.1 ha
  obtain ⟨part, hpart, rfl⟩ := List.mem_map.1 ha
  rw [String.toList_ofList]
  exact ⟨⟨by simpa using hne, trimmed_trimChars part⟩, part, hpart, rfl⟩

/-- Of what stands between the angles, the alternatives lack nothing but blanks and separators. -/
theorem filter_isKept_alternatives (s : List Char) :
    ((alternatives s).flatMap String.toList).filter isKept = s.filter isKept := by
  have hparts (parts : List (List Char)) :
      ((((parts.map trimChars).filter (!·.isEmpty)).map String.ofList).flatMap
        String.toList).filter isKept = parts.flatten.filter isKept := by
    induction parts with
    | nil => rfl
    | cons part parts ih =>
      rw [List.flatten_cons, List.filter_append, ← ih, ← filter_isKept_trimChars part,
        List.map_cons]
      cases htrim : trimChars part with
      | nil => rfl
      | cons c u =>
        rw [List.filter_cons_of_pos (by rfl), List.map_cons, List.flatMap_cons,
          String.toList_ofList, List.filter_append]
  have hbar (c : Char) : (isKept c && (c != '|')) = isKept c := by
    by_cases hc : c = '|'
    · subst hc
      decide
    · simp [hc]
  rw [alternatives, hparts, flatten_splitAt, List.filter_filter]
  simp only [hbar]

theorem neat_of_trimmed? (h : trimmed? s = some text) :
    Neat text.toList ∧ text.toList = trimChars s := by
  unfold trimmed? at h
  split_ifs at h with hempty
  obtain rfl := Option.some.inj h
  rw [String.toList_ofList]
  exact ⟨⟨by simpa using hempty, trimmed_trimChars s⟩, rfl⟩

theorem neat_braces (s : List Char) : Neat (Piece.braces s).chars := by
  have hopening : isBlank '{' = false := by decide
  have hclosing : isBlank '}' = false := by decide
  refine ⟨List.cons_ne_nil _ _, ⟨by simp [Piece.chars, hopening], fun c hc => ?_⟩⟩
  rw [Piece.chars, ← List.cons_append, List.getLast?_concat] at hc
  rw [← Option.some.inj hc, hclosing]

theorem wellFormed_of_token? (hp : p.Closed) (h : p.token? = some t) : t.WellFormed := by
  cases p with
  | plain s =>
    obtain ⟨text, htext, rfl⟩ := Option.map_eq_some_iff.1 h
    exact (neat_of_trimmed? htext).1
  | braces s =>
    rw [Piece.token?] at h
    split at h
    · obtain rfl := Option.some.inj h
      exact trivial
    · obtain rfl := Option.some.inj h
      rw [Token.WellFormed, String.toList_ofList]
      exact neat_braces s
  | angles s =>
    rw [Piece.token?] at h
    split_ifs at h with hempty
    obtain rfl := Option.some.inj h
    refine ⟨by simpa using hempty, fun a ha => ?_⟩
    obtain ⟨hneat, part, hpart, ha⟩ := exists_of_mem_alternatives ha
    rw [ha] at hneat ⊢
    have hmem {c : Char} (hc : c ∈ trimChars part) : c ∈ s ∧ c ≠ '|' :=
      mem_of_mem_splitAt hpart (mem_of_mem_trimChars hc)
    exact ⟨hneat, fun hc => (hmem hc).2 rfl, fun hc => hp (hmem hc).1⟩
  | brackets s =>
    obtain ⟨text, htext, rfl⟩ := Option.map_eq_some_iff.1 h
    obtain ⟨hneat, htrim⟩ := neat_of_trimmed? htext
    exact ⟨hneat, fun hc => hp (mem_of_mem_trimChars (htrim ▸ hc))⟩

theorem filter_isKept_trimmed? (s : List Char) :
    ((trimmed? s).toList.flatMap String.toList).filter isKept = s.filter isKept := by
  rw [← filter_isKept_trimChars s, trimmed?]
  split_ifs with hempty
  · rw [List.isEmpty_iff.1 hempty]
    rfl
  · simp

theorem filter_isKept_span {opening closing : Char} (h : isKept opening = false)
    (h' : isKept closing = false) (s : List Char) :
    (opening :: (s ++ [closing])).filter isKept = s.filter isKept := by
  rw [List.filter_cons_of_neg (by simp [h]), List.filter_append,
    List.filter_cons_of_neg (by simp [h']), List.filter_nil, List.append_nil]

/-- A piece that says nothing has nothing in it that is kept. -/
theorem filter_isKept_token? (p : Piece) :
    (p.token?.toList.flatMap Token.content).filter isKept = p.chars.filter isKept := by
  cases p with
  | plain s =>
    rw [Piece.chars, ← filter_isKept_trimmed? s, Piece.token?]
    cases trimmed? s <;> rfl
  | braces s =>
    rw [Piece.token?]
    split
    · rename_i kind hkind
      have hname : trimChars s = kind.name.toList := by
        rw [← ElementKind.ofName?_eq_some_iff.1 hkind, String.toList_ofList]
      have htrim := filter_isKept_trimChars s
      rw [hname] at htrim
      simp [Token.content, ElementKind.marker, Piece.chars, List.filter_cons, htrim]
    · simp [Token.content]
  | angles s =>
    rw [Piece.chars, filter_isKept_span (by decide) (by decide), ← filter_isKept_alternatives s,
      Piece.token?]
    split_ifs with hempty
    · rw [List.isEmpty_iff.1 hempty]
      rfl
    · simp [Token.content]
  | brackets s =>
    rw [Piece.chars, filter_isKept_span (by decide) (by decide), ← filter_isKept_trimmed? s,
      Piece.token?]
    cases trimmed? s <;> rfl

/-- Whatever the template, its tokens are well formed, and apart from blanks and delimiters they say
what is written in it, character by character. -/
theorem content_tokens (template : String) :
    (∀ t ∈ tokens template, t.WellFormed) ∧
      ((tokens template).flatMap Token.content).filter isKept = template.toList.filter isKept := by
  constructor
  · intro t ht
    obtain ⟨p, hp, htoken⟩ := List.mem_filterMap.1 ht
    exact wellFormed_of_token? (closed_of_mem_pieces hp) htoken
  · have hpieces (ps : List Piece) :
        ((ps.filterMap Piece.token?).flatMap Token.content).filter isKept =
          (ps.flatMap Piece.chars).filter isKept := by
      induction ps with
      | nil => rfl
      | cons p ps ih =>
        rw [List.flatMap_cons, List.filter_append, ← ih, ← filter_isKept_token? p,
          List.filterMap_cons, ← List.filter_append]
        cases p.token? <;> simp
    rw [tokens, hpieces, flatMap_chars_pieces]

end Phraseology.Template
