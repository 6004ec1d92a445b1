import Phraseology.Proofs.Decoder.Complete
import Phraseology.Proofs.Decoder.ProceduralRunway

/-! The words that a runway is spelled with, from which its name can be told. -/
namespace Phraseology

open Text

namespace Lexicon

def runwayWords (l : Lexicon) (r : Runway) : List String :=
  r.digits.filterMap (fun n => l.canonicalDigit? n.val) ++
    r.side.toList.filterMap fun s => l.directionWord? s.letter

def runwaySpoken (l : Lexicon) (r : Runway) : String := l.join (l.runwayKeyword :: l.runwayWords r)

/-- The numeral of a digit word or the letter of a direction. -/
def letterOf? (l : Lexicon) (word : String) : Option Char :=
  ((l.digitValue? word).map numeral).or ((l.directionCode? word).bind fun code => code.toList.head?)

/-- A lexicon that has a word for each digit and each side, and none of them stands for another.
Where nothing comes between words, they are single characters. -/
structure Spells (l : Lexicon) : Prop where
  digit : ∀ n : Fin 10, ∃ d ∈ l.digits, l.canonicalDigit? n.val = some d.word ∧ d.value = n.val ∧
    l.letterOf? d.word = some (digitChar n)
  side : ∀ s : Side, ∃ x ∈ l.directions, l.directionWord? s.letter = some x.spoken ∧
    x.code = String.ofList [s.letter] ∧ l.letterOf? x.spoken = some s.letter
  keyword : Unbroken l.runwayKeyword.toList
  digits : ∀ d ∈ l.digits, Unbroken d.word.toList
  directions : ∀ x ∈ l.directions, Unbroken x.spoken.toList
  single : l.script = .ideographic → (∀ d ∈ l.digits, d.word.toList.length = 1) ∧
    ∀ x ∈ l.directions, x.spoken.toList.length = 1

variable {l : Lexicon} {r r' : Runway} {w : String}

theorem Spells.spellRunway_eq (hl : l.Spells) (r : Runway) :
    l.spellRunway r = .ok (l.runwaySpoken r) := by
  rw [spellRunway, mapM_eq_ok_filterMap (g := fun n => l.canonicalDigit? n.val) fun n _ => ?digit,
    mapM_eq_ok_filterMap (g := fun s => l.directionWord? s.letter) fun s _ => ?side]
  · rfl
  case digit =>
    obtain ⟨d, -, hd, -⟩ := hl.digit n
    exact ⟨d.word, hd, by rw [hd]⟩
  case side =>
    obtain ⟨x, -, hx, -⟩ := hl.side s
    exact ⟨x.spoken, hx, by rw [hx]⟩

theorem Spells.mem_runwayWords (hl : l.Spells) (h : w ∈ l.runwayWords r) :
    (∃ d ∈ l.digits, d.word = w) ∨ ∃ x ∈ l.directions, x.spoken = w := by
  rcases List.mem_append.1 h with h | h
  · obtain ⟨n, -, hn⟩ := List.mem_filterMap.1 h
    obtain ⟨d, hd, hword, -⟩ := hl.digit n
    exact .inl ⟨d, hd, Option.some.inj (hword.symm.trans hn)⟩
  · obtain ⟨s, -, hs⟩ := List.mem_filterMap.1 h
    obtain ⟨x, hx, hspoken, -⟩ := hl.side s
    exact .inr ⟨x, hx, Option.some.inj (hspoken.symm.trans hs)⟩

theorem Spells.unbroken (hl : l.Spells) (h : w ∈ l.runwayWords r) : Unbroken w.toList := by
  rcases hl.mem_runwayWords h with ⟨d, hd, rfl⟩ | ⟨x, hx, rfl⟩
  · exact hl.digits d hd
  · exact hl.directions x hx

theorem Spells.unbroken_spoken (hl : l.Spells) (r : Runway) :
    ∀ w ∈ l.runwayKeyword :: l.runwayWords r, Unbroken w.toList :=
  List.forall_mem_cons.2 ⟨hl.keyword, fun _ => hl.unbroken⟩

/-- The words of a runway are those of its name, letter by letter. -/
theorem Spells.filterMap_letterOf? (hl : l.Spells) (r : Runway) :
    (l.runwayWords r).filterMap l.letterOf? = r.chars := by
  have hdigits (ns : List (Fin 10)) :
      (ns.filterMap fun n => l.canonicalDigit? n.val).filterMap l.letterOf? = ns.map digitChar := by
    induction ns with
    | nil => rfl
    | cons n ns ih =>
      obtain ⟨d, -, hword, -, hletter⟩ := hl.digit n
      simp only [List.filterMap_cons, hword, hletter, ih, List.map_cons]
  rw [runwayWords, List.filterMap_append, hdigits, Runway.chars]
  cases r.side with
  | none => rfl
  | some s =>
    obtain ⟨x, -, hspoken, -, hletter⟩ := hl.side s
    simp [hspoken, hletter]

theorem join_of_unbroken {ws : List String} (h : ∀ w ∈ ws, Unbroken w.toList) :
    l.join ws = l.separator.intercalate ws := by
  have htrim : ∀ w ∈ ws, trim w = w := fun w hw => by
    rw [trim, (h w hw).trimmed.trimChars_eq, String.ofList_toList]
  have hnonempty : ∀ w ∈ ws, (!w.isEmpty) = true := fun w hw => by
    have := (h w hw).ne_nil
    simpa using this
  rw [join, List.map_congr_left htrim, List.map_id', List.filter_eq_self.2 hnonempty]

/-- Runways that are spelled alike have one name. -/
theorem Spells.name_eq_of_spoken_eq (hl : l.Spells) (h : l.runwaySpoken r = l.runwaySpoken r') :
    r.name = r'.name := by
  have hwords := hl.unbroken_spoken
  have hsame : l.runwayWords r = l.runwayWords r' := by
    rw [runwaySpoken, runwaySpoken, join_of_unbroken (hwords r), join_of_unbroken (hwords r'),
      separator] at h
    cases hscript : l.script with
    | spaced =>
      rw [hscript] at h
      exact (List.cons.inj (eq_of_intercalate_space (hwords r) (hwords r') h)).2
    | ideographic =>
      have hsingle (r : Runway) : ∀ w ∈ l.runwayWords r, w.toList.length = 1 := fun w hw => by
        obtain ⟨hdigits, hdirections⟩ := hl.single hscript
        rcases hl.mem_runwayWords hw with ⟨d, hd, rfl⟩ | ⟨x, hx, rfl⟩
        · exact hdigits d hd
        · exact hdirections x hx
      rw [hscript] at h
      have htext := congrArg String.toList h
      rw [toList_intercalate_empty, toList_intercalate_empty, List.flatMap_cons,
        List.flatMap_cons] at htext
      exact eq_of_flatMap_toList (hsingle r) (hsingle r') (List.append_cancel_left htext)
  rw [Runway.name, Runway.name, ← hl.filterMap_letterOf?, hsame, hl.filterMap_letterOf?]

/-- Nothing in the spelling is left out where blanks do not count. -/
theorem Spells.kept_runwaySpoken (hl : l.Spells) (r : Runway) :
    l.kept (l.runwaySpoken r) = (l.runwaySpoken r).toList := by
  have hwords := hl.unbroken_spoken r
  rw [kept, runwaySpoken, join_of_unbroken hwords, separator, compactChars]
  cases l.script with
  | spaced => exact (trimmed_intercalate hwords).trimChars_eq
  | ideographic =>
    rw [toList_intercalate_empty]
    refine filter_not_blank fun g hg => ?_
    obtain ⟨w, hw, hg⟩ := List.mem_flatMap.1 hg
    exact (hwords w hw).not_blank g hg

theorem spells_english : english.Spells where
  digit := by decide +kernel
  side := by rintro (_ | _ | _) <;> decide +kernel
  keyword := Decoder.plainWord_runway.unbroken
  digits := fun d hd => (plainWord_of_english d hd).unbroken
  directions := fun x hx =>
    (plainWord_of_english_vocabulary _ (direction_mem_vocabulary hx)).unbroken
  single := nofun

theorem spells_mandarin : mandarin.Spells where
  digit := by decide +kernel
  side := by rintro (_ | _ | _) <;> decide +kernel
  keyword := glyphs_mandarin.keyword.1.unbroken glyphs_mandarin.keyword.2
  digits := glyphs_mandarin.unbroken
  directions := fun x hx => by
    have hlength : ∀ x ∈ mandarin.directions, x.spoken.toList.length = 1 := by decide
    exact (glyphs_mandarin.directions x hx).unbroken
      (List.ne_nil_of_length_pos (by rw [hlength x hx]; decide))
  single := fun _ => ⟨fun d hd => (glyphs_mandarin.digits d hd).1, by decide⟩

end Lexicon

end Phraseology
