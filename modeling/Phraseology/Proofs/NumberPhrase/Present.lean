import Phraseology.Proofs.NumberPhrase.Words
import Phraseology.Proofs.Text.Apart
import Phraseology.Proofs.Text.Ascii
import Phraseology.Proofs.Text.Lowercase
import Phraseology.Proofs.Text.Onward

/-! A number that stands in a text is found, in whatever script, and all that is found has digits
and a code. -/
namespace Phraseology

open Text
open Text.Cursor

/-- The words stand one after another, up to case, with any blanks behind each; in a spaced script
each stands between word boundaries. -/
inductive Text.Cursor.Reads (s : Script) : List (List Char) → Cursor → Prop where
  | nil (c : Cursor) : Reads s [] c
  | cons {w v bl b t : List Char} {ws : List (List Char)} (alike : Alike w v)
      (blank : ∀ c ∈ bl, isBlank c = true)
      (begins : s = .spaced → (place b (v ++ (bl ++ t))).atBoundary = true)
      (ends : s = .spaced → (behind v b (bl ++ t)).atBoundary = true)
      (rest : Reads s ws (behind bl (v.reverse ++ b) t)) :
      Reads s (w :: ws) (place b (v ++ (bl ++ t)))

theorem Text.Cursor.Reads.left {s : Script} {us ws : List (List Char)} {c : Cursor}
    (h : Reads s (us ++ ws) c) : Reads s us c := by
  induction us generalizing c with
  | nil => exact .nil c
  | cons w us ih =>
    cases h with
    | cons alike blank begins ends rest => exact .cons alike blank begins ends (ih rest)

/-- Where the script is not spaced, words with blanks behind them are enough. -/
theorem Text.Laid.reads {ws : List (List Char)} {u : List Char} (h : Laid ws u)
    (b t : List Char) : Reads .ideographic ws (place b (u ++ t)) := by
  induction h generalizing b with
  | nil => exact .nil _
  | @cons w v bl u ws alike blank rest ih =>
    rw [List.append_assoc, List.append_assoc]
    refine .cons alike blank (by simp) (by simp) ?_
    exact ih (bl.reverse ++ (v.reverse ++ b))

/-- In a spaced script, words that stand apart and end where words do are enough. -/
theorem Text.Apart.reads {ws : List (List Char)} {b t u : List Char} (h : Apart ws u)
    (hws : ∀ w ∈ ws, Edged w) (hb : ¬ StartsWord b)
    (ht : (∀ c ∈ u.getLast?, isBlank c = false) → ¬ StartsWord t) :
    Reads .spaced ws (place b (u ++ t)) := by
  induction h generalizing b with
  | nil => exact .nil _
  | @cons w v bl u ws alike blank gap rest ih =>
    obtain ⟨hw, hws⟩ := List.forall_mem_cons.1 hws
    have hv := hw.of_alike alike
    have hstop : ¬ StartsWord (bl ++ (u ++ t)) := by
      cases bl with
      | cons c bl => exact not_startsWord_of_blank (blank c (by simp))
      | nil =>
        obtain rfl : u = [] := by simpa using gap
        refine ht fun c hc => ?_
        rw [List.append_nil, List.append_nil] at hc
        exact hv.trimmed.last c hc
    rw [List.append_assoc, List.append_assoc]
    refine .cons alike blank (fun _ => ?_) (fun _ => ?_) ?_
    · rw [atBoundary_eq, decide_eq_false hb, decide_eq_true (hv.1.append _)]
      rfl
    · rw [atBoundary_eq, decide_eq_false hstop, decide_eq_true (hv.2.append _)]
      rfl
    · cases rest with
      | nil => exact .nil _
      | @cons w' v' bl' u' ws' alike' blank' gap' rest' =>
        have hv' := ((hws w' (by simp)).of_alike alike').1.ne_nil
        have hu : v' ++ (bl' ++ u') ≠ [] := by simp [hv']
        obtain ⟨bl, c, rfl⟩ := (List.eq_nil_or_concat' bl).resolve_left (gap hu)
        refine ih hws ?_ fun hlast => ht fun c hc => hlast c ?_
        · rw [List.reverse_append]
          exact not_startsWord_of_blank (blank c (by simp))
        · rwa [List.getLast?_append_of_ne_nil _ (by simp),
            List.getLast?_append_of_ne_nil _ hu] at hc

/-- Where the text has one of the words up to case folding, it has it in lowercase, too. -/
def Text.Faithful (words : List String) (text : List Char) : Prop :=
  ∀ w ∈ words, ∀ v, v <:+: text → Alike w.toList v → lowerChars w.toList = lowerChars v

def Text.isAscii (t : List Char) : Bool := t.all fun c => c.toNat < 128

/-- No word of ASCII is lost in a text of ASCII when its case is. -/
theorem Text.faithful_of_ascii {words : List String} {text : List Char}
    (hwords : words.all (isAscii ·.toList) = true) (htext : isAscii text = true) :
    Faithful words text := by
  intro w hw v hv halike
  have hlower {t : List Char} (ht : ∀ c ∈ t, c.toNat < 128) : lowerChars t = t.map fold := by
    rw [lowerChars, lowerAfter_ascii [] ht]
    exact List.map_congr_left fun c hc => by rw [fold, if_pos (ht c hc)]
  have hascii {t : List Char} (ht : isAscii t = true) : ∀ c ∈ t, c.toNat < 128 := by
    simpa [isAscii] using ht
  rw [hlower (hascii (List.all_eq_true.1 hwords w hw)),
    hlower fun c hc => hascii htext c (hv.subset hc)]
  exact halike

namespace NumberPhrase

variable {p : NumberPhrase} {s : Script} {b t u v w text : List Char} {ws : Words}
  {c d e : Cursor} {words : List (List Char)}

/-- The words for digits, and those that come before the digits. -/
def vocabulary (p : NumberPhrase) : List String :=
  p.digits.map DigitWord.word ++ (p.leading.getD []).map Spelling.spoken

/-- What comes before the digits: nothing, or one word of the set. -/
def Leads (p : NumberPhrase) (words : List (List Char)) : Prop :=
  match p.leading with
  | none => words = []
  | some spellings => ∃ x ∈ spellings, words = [x.spoken.toList]

/-- At least one digit is asked for, and there is a word for one. -/
structure Usable (p : NumberPhrase) : Prop where
  min_pos : 1 ≤ p.min
  digits_ne : p.digits ≠ []
  digits : ∀ d ∈ p.digits, d.word.toList ≠ []

theorem Usable.digit_ne_nil (hp : p.Usable) : ∀ w ∈ p.words.digits, w ≠ [] := by
  intro w hw
  obtain ⟨d, hd, rfl⟩ := (mem_words_digits hp.digits_ne).1 hw
  exact hp.digits d hd

theorem onward_of_mem_anyWord (h : d ∈ anyWord words c) :
    ∃ w ∈ words, ∃ u t, c.after = u ++ t ∧ Alike w u ∧ d = behind u c.before t := by
  rw [← place_eta c] at h
  exact mem_anyWord.1 h

theorem upTo_of_after (hc : c.after = u ++ t) : c.upTo (behind u c.before t) = u := by
  rw [← place_eta c, hc]
  exact upTo_behind

theorem mem_anyWord_of_mem_wholeWord (h : d ∈ wholeWord s words c) : d ∈ anyWord words c := by
  cases s with
  | ideographic => exact h
  | spaced =>
    simp only [wholeWord] at h
    split_ifs at h
    · exact List.mem_of_mem_filter h
    · cases h

theorem exists_of_mem_digitEnds (h : e ∈ digitEnds s ws c) :
    ∃ w ∈ ws.digits, ∃ u t, c.after = u ++ t ∧ Alike w u ∧ (behind u c.before t).Onward e := by
  obtain ⟨d, hd, he⟩ := List.mem_flatMap.1 h
  obtain ⟨w, hw, u, t, hc, hwu, rfl⟩ := onward_of_mem_anyWord (mem_anyWord_of_mem_wholeWord hd)
  exact ⟨w, hw, u, t, hc, hwu, onward_of_mem_run he⟩

theorem onwards_digitEnds (s : Script) (ws : Words) : Onwards (digitEnds s ws) := by
  intro c e he
  obtain ⟨w, -, u, t, hc, -, hue⟩ := exists_of_mem_digitEnds he
  exact Onward.trans ⟨u, t, hc, rfl⟩ hue

theorem exists_of_mem_leadingEnds {l : Option (List Char)} (h : (l, e) ∈ leadingEnds s ws c) :
    c.Onward e ∧ (ws.leading = none → l = none) ∧
      ∀ leading, ws.leading = some leading →
        ∃ w ∈ leading, ∃ u t, l = some u ∧ c.after = u ++ t ∧ Alike w u := by
  unfold leadingEnds at h
  split at h
  · rename_i hnone
    obtain ⟨rfl, rfl⟩ := Prod.mk.inj (List.mem_singleton.1 h)
    exact ⟨.refl e, fun _ => rfl, fun leading hsome => by simp [hnone] at hsome⟩
  · rename_i leading hsome
    obtain ⟨d, hd, he⟩ := List.mem_flatMap.1 h
    obtain ⟨f, hf, hfe⟩ := List.mem_map.1 he
    obtain ⟨rfl, rfl⟩ := Prod.mk.inj hfe
    obtain ⟨w, hw, u, t, hc, hwu, rfl⟩ := onward_of_mem_anyWord (mem_anyWord_of_mem_wholeWord hd)
    refine ⟨Onward.trans ⟨u, t, hc, rfl⟩ (onward_of_mem_run hf), fun hnone => ?_, ?_⟩
    · rw [hnone] at hsome
      cases hsome
    · intro leading' hsome'
      obtain rfl : leading = leading' := Option.some.inj (hsome.symm.trans hsome')
      exact ⟨w, hw, u, t, congrArg some (upTo_of_after hc), hc, hwu⟩

theorem onward_of_mem_trailingEnds {l : Option (List Char)} (h : (l, e) ∈ trailingEnds s ws c) :
    c.Onward e := by
  have hword {words : List (List Char)} {d e : Cursor} (he : e ∈ trailingWord s words d) :
      d.Onward e := by
    cases s with
    | spaced =>
      simp only [trailingWord] at he
      split_ifs at he
      · exact onward_of_mem_run (List.mem_of_mem_dropLast (List.mem_of_mem_filter he))
      · cases he
    | ideographic =>
      rcases List.mem_append.1 he with he | he
      · obtain ⟨w, -, u, t, hc, -, rfl⟩ := onward_of_mem_anyWord he
        exact ⟨u, t, hc, rfl⟩
      · unfold one at he
        split at he
        · cases he
        · rename_i x t hafter
          split_ifs at he
          · rw [List.mem_singleton.1 he, ← place_eta d, hafter, push_place]
            exact ⟨[x], t, rfl, rfl⟩
          · cases he
  unfold trailingEnds at h
  split at h
  · obtain ⟨-, rfl⟩ := Prod.mk.inj (List.mem_singleton.1 h)
    exact .refl e
  · rcases List.mem_append.1 h with h | h
    · obtain ⟨d, hd, h⟩ := List.mem_flatMap.1 h
      obtain ⟨f, hf, hfe⟩ := List.mem_map.1 h
      obtain ⟨-, rfl⟩ := Prod.mk.inj hfe
      exact (onward_of_mem_run hd).trans (hword hf)
    · obtain ⟨-, rfl⟩ := Prod.mk.inj (List.mem_singleton.1 h)
      exact .refl e

/-- A hit takes up characters, begins with a leading word if one is asked for, and its run begins
with a digit. -/
structure Sound (p : NumberPhrase) (c : Cursor) (h : Hit) : Prop where
  ahead : c.Ahead h.stop
  leading_none : p.leading = none → h.leading = none
  leading : ∀ spellings, p.leading = some spellings → spellings ≠ [] →
    ∃ x ∈ spellings, ∃ v, h.leading = some v ∧ Alike x.spoken.toList v ∧ v <:+: c.after
  run : ∃ d ∈ p.digits, ∃ v t, h.run = v ++ t ∧ Alike d.word.toList v
  infix_run : h.run <:+: c.after

theorem Usable.sound (hp : p.Usable) {h : Hit} (hh : p.hitAt? p.words c = some h) :
    p.Sound c h := by
  obtain ⟨⟨l, d⟩, hld, hh⟩ := List.exists_of_findSome?_eq_some hh
  obtain ⟨e, he, hh⟩ := Option.bind_eq_some_iff.1 hh
  obtain ⟨⟨trailing, f⟩, hf, hh⟩ := Option.bind_eq_some_iff.1 hh
  obtain rfl := Option.some.inj hh
  obtain ⟨hcd, hnone, hsome⟩ := exists_of_mem_leadingEnds hld
  have hef : e.Onward f := onward_of_mem_trailingEnds (List.mem_of_mem_head? hf)
  obtain ⟨g, hg, hge⟩ := (onwards_digitEnds p.script p.words).between? hp.min_pos he
  obtain ⟨w, hw, v, t, hd, hwv, hvg⟩ := exists_of_mem_digitEnds hg
  obtain ⟨x, hx, rfl⟩ := (mem_words_digits hp.digits_ne).1 hw
  have hv : v ≠ [] := mt hwv.eq_nil_iff.2 (hp.digits x hx)
  obtain ⟨y, z, hyz, he⟩ := hvg.trans hge
  rw [place_after] at hyz
  obtain rfl : e = behind (v ++ y) d.before z := he.trans behind_append.symm
  have hd : d.after = (v ++ y) ++ z := by rw [hd, hyz, List.append_assoc]
  have hrun := upTo_of_after hd
  refine ⟨?_, fun hleading => hnone (by simp [words, hleading]), ?_, ?_, ?_⟩
  · have hahead : d.Ahead (behind (v ++ y) d.before z) := ⟨v ++ y, z, by simp [hv], hd, rfl⟩
    exact (hcd.trans_ahead hahead).trans_onward hef
  · intro spellings hspellings hne
    obtain ⟨w, hw, u, r, hl, hc, hwu⟩ := hsome (spokenWords spellings) (by simp [words, hspellings])
    obtain ⟨s, hs, rfl⟩ := (mem_spokenWords hne).1 hw
    exact ⟨s, hs, u, hl, hwu, [], r, by rw [hc]; rfl⟩
  · exact ⟨x, hx, v, y, hrun, hwv⟩
  · change d.upTo _ <:+: c.after
    rw [hrun]
    obtain ⟨q, r, hc, rfl⟩ := hcd
    rw [place_after] at hd
    exact ⟨q, z, by rw [hc, hd, List.append_assoc]⟩

theorem Usable.advancing (hp : p.Usable) : Advancing (p.hitAt? p.words) Hit.stop :=
  fun _ _ hh => (hp.sound hh).ahead

end NumberPhrase

end Phraseology
