import Phraseology.Proofs.Decoder.English
import Phraseology.Proofs.Grammar
import Phraseology.Proofs.NumberPhrase.Groups

/-! What is spoken from a template around one of its elements, and when the words before the element
are not taken for it. -/
namespace Phraseology

open Text
open Template (Token)

/-- The items go on with so many digit words, blanks apart. -/
def DigitsNext (digits : List DigitWord) : Nat → List Item → Prop
  | 0, _ => True
  | n + 1, is => ∃ r js, is.dropWhile Item.isBlank = .run r :: js ∧
      (∃ d ∈ digits, Alike d.word.toList r) ∧ DigitsNext digits n js

theorem digitsNext_iff {digits : List DigitWord} {n : Nat} {is : List Item} :
    DigitsNext digits n is ↔ n ≤ digitsFirst digits is := by
  induction n generalizing is with
  | zero => simp [DigitsNext]
  | succ n ih =>
    constructor
    · rintro ⟨r, js, hdrop, hdigit, hjs⟩
      have hr : (Item.run r).isDigitWord digits = true := by
        simpa [Item.isDigitWord] using hdigit
      rw [← digitsFirst_dropWhile, hdrop, digitsFirst_cons_digit hr]
      exact Nat.succ_le_succ (ih.1 hjs)
    · intro h
      obtain ⟨bs, r, js, rfl, hbs, hr⟩ := exists_digit_of_digitsFirst (Nat.zero_lt_of_lt h)
      have hdrop := NumberPhrase.dropWhile_append_run hbs r js
      rw [← digitsFirst_dropWhile, hdrop, digitsFirst_cons_digit hr] at h
      exact ⟨r, js, hdrop, by simpa [Item.isDigitWord] using hr, ih.2 (Nat.le_of_succ_le_succ h)⟩

instance (digits : List DigitWord) (n : Nat) (is : List Item) :
    Decidable (DigitsNext digits n is) := decidable_of_iff' _ digitsNext_iff

def IsSpelling (spellings : List Spelling) (r : List Char) : Prop :=
  ∃ x ∈ spellings, Alike x.spoken.toList r

instance (spellings : List Spelling) : DecidablePred (IsSpelling spellings) := fun r =>
  inferInstanceAs (Decidable (∃ x ∈ spellings, Alike x.spoken.toList r))

/-- The items begin with one of the spoken forms, and right behind it come so many digit words. -/
def NumberNext (spellings : List Spelling) (digits : List DigitWord) (n : Nat) (is : List Item) :
    Prop :=
  ∃ r js, is = .run r :: js ∧ IsSpelling spellings r ∧ DigitsNext digits n js

/-- Nowhere in the words before does such a number begin, whatever of the words behind it takes
in. -/
def Foremost (spellings : List Spelling) (digits : List DigitWord) (n : Nat)
    (before behind : List String) : Prop :=
  ∀ us vs, spacedItems before = us ++ vs → vs ≠ [] →
    ¬ NumberNext spellings digits n (vs ++ spacedItems behind)

/-- None of the spoken forms is in the words before, so no number begins there. -/
theorem foremost_of_lacks {spellings : List Spelling} {digits : List DigitWord} {n : Nat}
    {before behind : List String} (h : ∀ w ∈ before, Template.Lacks (IsSpelling spellings) w) :
    Foremost spellings digits n before behind := by
  rintro us vs hvs hne ⟨r, js, hr, hspelling, -⟩
  obtain ⟨i, vs, rfl⟩ := List.exists_cons_of_ne_nil hne
  obtain ⟨rfl, -⟩ := List.cons.inj hr
  exact Template.not_mem_spacedItems h (by rw [hvs]; simp) hspelling

namespace NumberPhrase

variable {p : NumberPhrase}

theorem digitsNext_of_le {m n : Nat} {is : List Item}
    (h : n ≤ (p.takeDigits m (is.dropWhile Item.isBlank)).1.length) :
    DigitsNext p.digits n is := by
  rw [length_fst_takeDigits] at h
  exact digitsNext_iff.2 (h.trans (Nat.min_le_right _ _))

/-- Digits do not go on where no digit word comes next. -/
theorem stops_of_not_digitsNext {is : List Item} (h : ¬ DigitsNext p.digits 1 is) :
    p.Stops is := by
  intro n
  by_contra hne
  exact h (digitsNext_of_le (List.length_pos_iff.2 hne))

/-- Where no leading word is asked for, a number begins with as many digits as it needs. -/
theorem digitsNext_of_foundAt? (hleading : p.leading = none) {is : List Item} {f : Found}
    (h : p.foundAt? is = some f) : DigitsNext p.digits p.min is :=
  digitsNext_iff.2 (le_digitsFirst_of_foundAt? hleading h)

/-- Where no leading word stands right before enough digit words, no number begins. -/
theorem passes_of_foremost {spellings : List Spelling} (hleading : p.leading = some spellings)
    {before behind : List String} (h : Foremost spellings p.digits p.min before behind) :
    p.Passes (spacedItems before) (spacedItems behind) := by
  intro us vs hvs hne
  by_contra hfound
  obtain ⟨f, hf⟩ := Option.ne_none_iff_exists'.1 hfound
  rw [foundAt?_eq] at hf
  obtain ⟨⟨leading, is⟩, htake, hf⟩ := Option.bind_eq_some_iff.1 hf
  simp only [foundBehind?] at hf
  split_ifs at hf with hfew
  unfold takeLeading? at htake
  split at htake
  · rename_i hnone
    cases hnone.symm.trans hleading
  · rename_i spellings' r js hspellings hitems
    obtain rfl := Option.some.inj (hspellings.symm.trans hleading)
    split_ifs at htake with hany
    obtain ⟨rfl, rfl⟩ := Prod.mk.inj (Option.some.inj htake)
    refine h us vs hvs hne ⟨r, js, hitems, by simpa [IsSpelling] using hany, ?_⟩
    exact digitsNext_of_le (m := p.max) (by omega)
  · cases htake

end NumberPhrase

structure Call (e : Elements) (kind : ElementKind) (template : String) where
  before : List Token
  after : List Token
  tokens_eq : Template.tokens template = before ++ .element kind :: after
  wordsBefore : List String
  wordsAfter : List String
  spoken_before : (Phrase.sequence (before.map (Grammar.phraseOf e))).Spoken wordsBefore
  spoken_after : (Phrase.sequence (after.map (Grammar.phraseOf e))).Spoken wordsAfter

namespace Call

variable {e : Elements} {kind : ElementKind} {template : String}

/-- Whatever a grammar is spoken with, it is spoken around each element. -/
theorem spoken_iff {locale : String} {c : Category} {index : Nat} {ws : List String}
    (hmem : .element kind ∈ Template.tokens template) :
    (Grammar.compile e locale c template index).phrase.Spoken ws ↔
      ∃ (call : Call e kind template) (vs : List String), (e.phrase kind).Spoken vs ∧
        ws = call.wordsBefore ++ (vs ++ call.wordsAfter) := by
  change (Phrase.sequence ((Template.tokens template).map (Grammar.phraseOf e))).Spoken ws ↔ _
  constructor
  · intro hws
    obtain ⟨before, after, htokens⟩ := List.append_of_mem hmem
    rw [htokens, List.map_append, List.map_cons] at hws
    obtain ⟨us, xs, rfl, hus, hxs⟩ := hws.of_append
    cases hxs with
    | cons first others =>
      cases first with
      | element uttered => exact ⟨⟨before, after, htokens, us, _, hus, others⟩, _, uttered, rfl⟩
  · rintro ⟨call, vs, hvs, rfl⟩
    rw [call.tokens_eq, List.map_append, List.map_cons]
    exact call.spoken_before.append (.cons (.element hvs) call.spoken_after)

end Call

/-- The words of a flight of the single airline. -/
theorem Decoder.spoken_delta :
    Decoder.deltaElements.aircraft.Spoken ["Delta", "one", "two", "three"] :=
  (Elements.uttered_aircraft_iff words_of_english).2
    ⟨⟨"Delta", "DLT"⟩, by simp [Decoder.delta], [⟨"one", 1⟩, ⟨"two", 2⟩, ⟨"three", 3⟩], by decide,
      rfl, rfl⟩

def spokenText (ws : List String) : String := " ".intercalate ws

theorem items_spokenText {us vs xs : List String} (h : vs ≠ []) :
    .other ' ' :: items (spokenText (us ++ (vs ++ xs))).toList =
      spacedItems us ++ (spacedItems vs ++ spacedItems xs) := by
  rw [spokenText, items_join (by simp [h]), spacedItems_append, spacedItems_append]

end Phraseology
