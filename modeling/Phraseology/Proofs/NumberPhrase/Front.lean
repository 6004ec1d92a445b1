import Phraseology.Proofs.NumberPhrase.Count

/-! What a number phrase of digit words alone finds at the start of a text without blanks: digit
words one after another, each of them the longest that stands where it begins. -/
namespace Phraseology

open Text
open Text.Cursor

namespace Text

variable {ws vs : List (List Char)} {b s t v : List Char} {step : Cursor → List Cursor}

/-- The words `vs` are read off the front of the text `s` and leave `t`. None of them goes on to a
longer one of `ws` with what comes behind it. -/
inductive Fronts (ws : List (List Char)) : List (List Char) → List Char → List Char → Prop where
  | nil (s : List Char) : Fronts ws [] s s
  | cons {v s t : List Char} {vs : List (List Char)} (word : ∃ w ∈ ws, Alike w v)
      (longest : ∀ w ∈ ws, ∀ x y, s = x ++ y → Alike w (v ++ x) → x = [])
      (rest : Fronts ws vs s t) : Fronts ws (v :: vs) (v ++ s) t

theorem Fronts.eq_append (h : Fronts ws vs s t) : s = vs.flatten ++ t := by
  induction h with
  | nil s => rfl
  | cons word longest rest ih => rw [List.flatten_cons, List.append_assoc, ← ih]

namespace Cursor

/-- Where a single repetition will do, the place to go on from is the first that the step leads
to. -/
theorem between?_one (step : Cursor → List Cursor) (max : Nat) (c : Cursor) :
    between? step 1 max c = (step c).head?.map (atMost step (max - 1)) := by
  have hsingle : exactly step 1 [c] = distinct (step c) := by
    simp only [exactly, List.flatMap_singleton, ite_self]
  rw [between?, hsingle]
  cases hc : step c with
  | nil => rfl
  | cons d rest =>
    obtain ⟨kept, hkept, -⟩ := distinct_cons d rest
    rw [hkept, List.head?_cons, List.head?_cons]

end Cursor

end Text

namespace NumberPhrase

variable {p : NumberPhrase} {ws : Words} {vs : List (List Char)} {b s t : List Char} {m : Match}

/-- Without blanks a digit word in an ideographic script is all that a repetition steps over. -/
theorem digitEnds_of_not_blank (hs : ∀ c ∈ s, isBlank c = false) :
    digitEnds .ideographic ws (place b s) = anyWord ws.digits (place b s) := by
  have hblanks : ∀ d ∈ anyWord ws.digits (place b s), d.blanks = [d] := by
    intro d hd
    obtain ⟨w, -, v, t, rfl, -, rfl⟩ := mem_anyWord.1 hd
    exact run_of_not fun c hc => hs c (List.mem_append_right v (List.mem_of_mem_head? hc))
  rw [digitEnds, wholeWord, List.flatMap_congr hblanks]
  simp

/-- A repetition runs over the words at the front, if there are as many as it may take or no more of
them. -/
theorem atMost_of_fronts {n : Nat} (h : Fronts p.words.digits vs s t)
    (hws : ∀ w ∈ p.words.digits, w ≠ []) (hs : ∀ c ∈ s, isBlank c = false) (hn : vs.length ≤ n)
    (hstop : vs.length = n ∨ ∀ b, anyWord p.words.digits (place b t) = []) (b : List Char) :
    atMost (digitEnds .ideographic p.words) n (place b s) = behind vs.flatten b t := by
  induction h generalizing n b with
  | nil s =>
    rcases hstop with rfl | hnone
    · rfl
    · exact atMost_of_nil n (by rw [digitEnds_of_not_blank hs, hnone b])
  | @cons v s t vs word longest rest ih =>
    obtain ⟨n, rfl⟩ := Nat.exists_eq_add_of_le' (Nat.one_le_iff_ne_zero.2 (Nat.ne_zero_of_lt hn))
    have hv : v ≠ [] := by
      obtain ⟨w, hw, hwv⟩ := word
      exact mt hwv.eq_nil_iff.2 (hws w hw)
    have hhead : (digitEnds .ideographic p.words (place b (v ++ s))).head? =
        some (behind v b s) := by
      rw [digitEnds_of_not_blank hs]
      exact head?_anyWord (pairwise_alternativesOrEmpty _) longest word
    have hne := (offset_lt_of_ne_nil (b := b) (s := s) hv).ne'
    simp only [atMost, hhead, hne, if_false]
    rw [ih (fun c hc => hs c (List.mem_append_right v hc)) (by simpa using hn)
      (hstop.imp_left (by simp)), List.flatten_cons, behind_append]

/-- The numerals of a run are those of the words that have been read off the front. -/
theorem numerals_of_fronts (h : Fronts p.words.digits vs s t)
    (hws : ∀ w ∈ p.words.digits, w ≠ []) : p.numerals p.words vs.flatten = p.values vs := by
  have ha : Advancing (fun c => (anyWord p.words.digits c).head?) id := advancing_anyWord hws
  have hnil {b : List Char} : (anyWord p.words.digits (place b [])).head? = none := by
    rw [anyWord_nil hws, List.head?_nil]
  unfold numerals
  rw [ha.hits_eq]
  generalize ([] : List Char) = b
  induction h generalizing b with
  | nil s => rw [List.flatten_nil, ha.hitsAt_nil hnil]; rfl
  | @cons v s t vs word longest rest ih =>
    -- What comes behind the run is cut off, so there is even less that a word could go on to.
    have hlongest : ∀ w ∈ p.words.digits, ∀ x y, vs.flatten = x ++ y → Alike w (v ++ x) →
        x = [] := by
      intro w hw x y hxy hwx
      exact longest w hw x (y ++ t) (by rw [rest.eq_append, hxy, List.append_assoc]) hwx
    have hhit := head?_anyWord (b := b) (pairwise_alternativesOrEmpty _) hlongest word
    have hword : (place b (v ++ vs.flatten)).upTo (behind v b vs.flatten) = v := upTo_behind
    rw [List.flatten_cons, ha.hitsAt_of_some hhit, id, List.filterMap_cons, ih]
    simp only [hword]
    rfl

/-- A match at the start of a text is the one that begins there. -/
theorem Usable.mem_find_and_start_iff (hp : p.Usable) (hleading : p.leading = none) :
    m ∈ p.find s ∧ m.start = 0 ↔
      ∃ h, p.hitAt? p.words (place [] s) = some h ∧ h.match? p p.words (place [] s) = some m := by
  constructor
  · rintro ⟨hm, hzero⟩
    obtain ⟨c, h, hc, hh, hmatch⟩ := exists_of_mem_find hp hm
    obtain rfl : c = place [] s := hc.eq_of_offset_eq rfl (h.start_of_match? hmatch ▸ hzero)
    exact ⟨h, hh, hmatch⟩
  · rintro ⟨h, hh, hmatch⟩
    refine ⟨?_, h.start_of_match? hmatch⟩
    have hmet : p.neverMet = false := by simp [neverMet, hleading]
    have hmem : (place [] s, h) ∈ hits (p.hitAt? p.words) Hit.stop s := by
      rw [hp.advancing.hits_eq, hp.advancing.hitsAt_of_some hh]
      exact List.mem_cons_self
    rw [find, if_neg (by simp [hmet])]
    exact List.mem_filterMap.2 ⟨_, hmem, hmatch⟩

/-- A run of at most `max` digit words of the lexicon, wherever it stands. -/
def ofLexicon (l : Lexicon) (max : Nat) : NumberPhrase := ⟨l.script, l.digits, none, 1, max, none⟩

section OfLexicon

variable {l : Lexicon} {max : Nat}

theorem usable_ofLexicon (hl : l.validate = .ok ()) (max : Nat) : (ofLexicon l max).Usable where
  min_pos := le_rfl
  digits_ne := (l.digits_of_validate hl).1
  digits := fun d hd => ((l.digits_of_validate hl).2 d hd).2

variable (hl : l.validate = .ok ()) (hscript : l.script = .ideographic) (hmax : 1 ≤ max)
  (hs : ∀ c ∈ s, isBlank c = false) (h : Fronts (ofLexicon l max).words.digits vs s t)
  (hle : vs.length ≤ max)
  (hstop : vs.length = max ∨ ∀ b, anyWord (ofLexicon l max).words.digits (place b t) = [])

include hl hscript hmax hs h hle hstop

theorem hitAt?_of_fronts :
    (ofLexicon l max).hitAt? (ofLexicon l max).words (place [] s) =
      if vs = [] then none else some ⟨none, vs.flatten, none, behind vs.flatten [] t⟩ := by
  have hbetween := between?_one (digitEnds .ideographic (ofLexicon l max).words) max (place [] s)
  have htrailing (c : Cursor) : trailingEnds .ideographic (ofLexicon l max).words c = [(none, c)] :=
    rfl
  rw [hitAt?_eq, leadingEnds_of_none rfl, List.findSome?_singleton, hitBehind?]
  simp only [show (ofLexicon l max).script = .ideographic from hscript,
    show (ofLexicon l max).min = 1 from rfl, show (ofLexicon l max).max = max from rfl, hbetween,
    htrailing, List.head?_cons]
  cases h with
  | nil =>
    have hnone := hstop.resolve_left (by simp; omega) []
    rw [digitEnds_of_not_blank hs, hnone]
    rfl
  | @cons v s t vs word longest rest =>
    have hhead : (digitEnds .ideographic (ofLexicon l max).words (place [] (v ++ s))).head? =
        some (behind v [] s) := by
      rw [digitEnds_of_not_blank hs]
      exact head?_anyWord (pairwise_alternativesOrEmpty _) longest word
    have hlength : (v :: vs).length = vs.length + 1 := rfl
    have hmost := atMost_of_fronts (n := max - 1) rest
      (usable_ofLexicon hl max).digit_ne_nil
      (fun c hc => hs c (List.mem_append_right v hc)) (by omega) (hstop.imp_left (by omega))
      (v.reverse ++ [])
    have hrun : (place [] (v ++ s)).upTo (behind vs.flatten (v.reverse ++ []) t) =
        (v :: vs).flatten := by
      rw [rest.eq_append, ← List.append_assoc, ← behind_append]
      exact upTo_behind
    rw [hhead, Option.map_some, hmost, Option.bind_eq_bind, Option.bind_some,
      Option.bind_eq_bind, Option.bind_some, hrun, if_neg (by simp), List.flatten_cons,
      behind_append]
    rfl

/-- The words at the front are the digits of the match that begins there, and without any there is
no such match. -/
theorem mem_find_and_start_iff_of_fronts :
    m ∈ (ofLexicon l max).find s ∧ m.start = 0 ↔ vs ≠ [] ∧ m =
      ⟨none, String.ofList ((ofLexicon l max).values vs), none, 0, byteCount vs.flatten⟩ := by
  have hmatch : Hit.match? (ofLexicon l max) (ofLexicon l max).words (place [] s)
      ⟨none, vs.flatten, none, behind vs.flatten [] t⟩ = some
        ⟨none, String.ofList ((ofLexicon l max).values vs), none, 0, byteCount vs.flatten⟩ := by
    have hoffset : (behind vs.flatten [] t).offset = byteCount vs.flatten := by
      rw [offset_behind]
      exact Nat.zero_add _
    rw [Hit.match?, numerals_of_fronts h (usable_ofLexicon hl max).digit_ne_nil, hoffset]
    rfl
  rw [(usable_ofLexicon hl max).mem_find_and_start_iff rfl,
    hitAt?_of_fronts hl hscript hmax hs h hle hstop]
  by_cases hvs : vs = []
  · simp [hvs]
  · simp [hvs, hmatch, eq_comm]

end OfLexicon

end NumberPhrase

end Phraseology
