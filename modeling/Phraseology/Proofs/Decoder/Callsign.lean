import Phraseology.Proofs.Catalogue
import Phraseology.Proofs.Decoder.Blanks
import Phraseology.Proofs.Decoder.English
import Phraseology.Proofs.Decoder.Glyphs

/-! In an ideographic script the name of an airline and digits behind it are read back from the
front of a text, however many blanks there are. -/
namespace Phraseology

open Text

/-- Names without blanks, none of which is the beginning of another in lowercase. -/
structure Airline.PrefixFree (airlines : List Airline) : Prop where
  unbroken : ∀ a ∈ airlines, Unbroken a.name.toList
  apart : airlines.Pairwise fun a b =>
    ¬ lowerChars a.name.toList <+: lowerChars b.name.toList ∧
      ¬ lowerChars b.name.toList <+: lowerChars a.name.toList

/-- A text begins with the name of no other airline than the one that it begins with. -/
theorem Airline.PrefixFree.findSome?_eq {α : Type} {airlines : List Airline} {a : Airline}
    (h : PrefixFree airlines) (ha : a ∈ airlines) (t : List Char)
    (f : Airline → List Char → Option α) :
    (airlines.findSome? fun b =>
      ((lowerChars b.name.toList).isPrefixOf? (lowerChars a.name.toList ++ t)).bind (f b)) =
        f a t := by
  have hnone {b : Airline} (hab : ¬ lowerChars a.name.toList <+: lowerChars b.name.toList)
      (hba : ¬ lowerChars b.name.toList <+: lowerChars a.name.toList) :
      ((lowerChars b.name.toList).isPrefixOf? (lowerChars a.name.toList ++ t)).bind (f b) =
        none := by
    rw [isPrefixOf?_eq_none fun hb => ?_, Option.bind_none]
    exact (List.prefix_or_prefix_of_prefix hb (List.prefix_append _ t)).elim hba hab
  obtain ⟨before, after, rfl⟩ := List.append_of_mem ha
  obtain ⟨-, hafter, hbefore⟩ := List.pairwise_append.1 h.apart
  have hleft := List.findSome?_eq_none_iff.2 fun b hb =>
    hnone (hbefore b hb a (by simp)).2 (hbefore b hb a (by simp)).1
  have hright := List.findSome?_eq_none_iff.2 fun b hb =>
    hnone ((List.pairwise_cons.1 hafter).1 b hb).1 ((List.pairwise_cons.1 hafter).1 b hb).2
  rw [List.findSome?_append, hleft, List.findSome?_cons, isPrefixOf?_append,
    Option.bind_some, hright]
  cases f a t <;> rfl

namespace Decoder

variable {l : Lexicon} {s : Source} {e : Elements} {c : Config} {d : Decoder} {kind : ResultKind}
  {x rest : String} {a : Airline} {ds : List DigitWord} {t : List Char}

/-- No digit is read where no digit word stands. -/
theorem leadingDigit?_lowerAfter (hl : l.Glyphs) (h : ∀ d ∈ l.digits, ¬ d.word.toList <+: t)
    (b : List Char) : leadingDigit? l.digits (lowerAfter b t) = none := by
  refine leadingDigit?_eq_none_iff.2 fun d hd hfront => ?_
  have hideographic := (hl.digits d hd).2.1
  rw [hideographic.lowerChars_eq] at hfront
  exact h d hd ((hideographic.prefix_lowerAfter_iff b t).1 hfront)

/-- All the digits of a number are read, and none behind it unless there is room for more. -/
theorem leadingNumerals_digitWords (hl : l.Glyphs)
    (hvalue : ∀ a ∈ l.digits, ∀ b ∈ l.digits, a.word = b.word → a.value = b.value)
    (hds : ∀ d ∈ ds, d ∈ l.digits) {room : Nat} (hroom : ds.length ≤ room)
    (hend : ds.length = room ∨ leadingDigit? l.digits t = none) :
    leadingNumerals l.digits room ((digitWords ds).flatMap String.toList ++ t) =
      ds.map fun d => numeral d.value := by
  induction ds generalizing room with
  | nil =>
    cases room with
    | zero => simp [leadingNumerals]
    | succ room =>
      have hnone := hend.resolve_left (by simp)
      exact leadingNumerals_of_none _ hnone
  | cons d ds ih =>
    obtain ⟨hd, hds⟩ := List.forall_mem_cons.1 hds
    obtain ⟨room, rfl⟩ := Nat.exists_eq_add_of_le' (Nat.le_of_add_left_le hroom)
    obtain ⟨b, hb, hword, hfound⟩ :=
      exists_leadingDigit? hl hd ((digitWords ds).flatMap String.toList ++ t)
    rw [hvalue b hb d hd hword] at hfound
    have htext : (digitWords (d :: ds)).flatMap String.toList ++ t =
        d.word.toList ++ ((digitWords ds).flatMap String.toList ++ t) := by
      simp [digitWords]
    rw [htext, leadingNumerals_succ room (hl.digits d hd).2.2 hfound,
      ih hds (by simpa using hroom) (by simpa using hend), List.map_cons]

/-- A name and digits keep all their characters, and blanks among them are left out. -/
theorem kept_callsign (hl : l.Glyphs) (hname : Unbroken a.name.toList)
    (hds : ∀ d ∈ ds, d ∈ l.digits)
    (h : l.compact x = l.compact (a.name ++ "".intercalate (digitWords ds) ++ rest)) :
    l.kept x = a.name.toList ++ ((digitWords ds).flatMap String.toList ++ l.kept rest) := by
  have hsame : l.kept x = l.kept (a.name ++ "".intercalate (digitWords ds) ++ rest) :=
    String.ofList_injective h
  have hdigits : ∀ g ∈ (digitWords ds).flatMap String.toList, isBlank g = false :=
    fun g hg => (ideographic_digitWords hl hds g hg).not_blank
  rw [hsame, hl.kept_eq, String.toList_append, String.toList_append,
    toList_intercalate_empty, List.filter_append, List.filter_append,
    filter_not_blank hname.not_blank, filter_not_blank hdigits, List.append_assoc,
    ← hl.kept_eq]

/-- The name in front of the digits is in lowercase what it is on its own. -/
theorem plainChars_callsign (hl : l.Glyphs) (hds : ∀ d ∈ ds, d ∈ l.digits) (hne : ds ≠ [])
    (hkept : l.kept x = a.name.toList ++ ((digitWords ds).flatMap String.toList ++ t)) :
    ∃ b, plainChars l x =
      lowerChars a.name.toList ++ ((digitWords ds).flatMap String.toList ++ lowerAfter b t) := by
  have hideographic := ideographic_digitWords hl hds
  have hdigits : (digitWords ds).flatMap String.toList ≠ [] := by
    obtain ⟨d, ds, rfl⟩ := List.exists_cons_of_ne_nil hne
    rw [digitWords, List.map_cons, List.flatMap_cons]
    exact List.append_ne_nil_of_left_ne_nil (hl.unbroken d (hds d (by simp))).ne_nil _
  refine ⟨((digitWords ds).flatMap String.toList).reverse ++ (a.name.toList.reverse ++ []), ?_⟩
  rw [plainChars_eq, hkept, lowerChars, lowerAfter_append (hideographic.not_startsCased hdigits t),
    hideographic.lowerAfter_append, lowerChars]

/-- An airline and a flight number at the front of a text are read. -/
theorem Made.aircraftOf?_callsign (hmade : d.Made l s e c) (hl : l.Glyphs)
    (hvalue : ∀ a ∈ l.digits, ∀ b ∈ l.digits, a.word = b.word → a.value = b.value)
    (hairlines : Airline.PrefixFree s.airlines) (ha : a ∈ s.airlines)
    (hds : ∀ d ∈ ds, d ∈ l.digits) (hmin : 1 ≤ ds.length) (hmax : ds.length ≤ c.flightMaxDigits)
    (hend : ds.length = c.flightMaxDigits ∨ ∀ d ∈ l.digits, ¬ d.word.toList <+: t)
    (hkept : l.kept x = a.name.toList ++ ((digitWords ds).flatMap String.toList ++ t)) :
    d.aircraftOf? x = some (a.code ++ " " ++ spokenDigits ds) := by
  have hne : ds ≠ [] := List.ne_nil_of_length_pos hmin
  obtain ⟨b, hplain⟩ := plainChars_callsign hl hds hne hkept
  have hnumerals := leadingNumerals_digitWords hl hvalue hds hmax
    (hend.imp_right fun h => leadingDigit?_lowerAfter hl h b)
  rw [aircraftOf?, hmade.lexicon_eq, hl.script_eq, hmade.airlines_eq, hmade.flightMaxDigits_eq,
    hplain]
  refine (hairlines.findSome?_eq ha _ _).trans ?_
  rw [hnumerals, if_neg (by simpa using hne)]
  rfl

theorem value_eq_of_word_mandarin : ∀ a ∈ Lexicon.mandarin.digits,
    ∀ b ∈ Lexicon.mandarin.digits, a.word = b.word → a.value = b.value := by
  decide

/-- What begins with a digit word has the digit as its first character that is not blank. -/
theorem exists_find?_of_prefix (hl : l.Glyphs) {b : DigitWord} (hb : b ∈ l.digits)
    (h : b.word.toList <+: l.kept rest) :
    ∃ g ∈ rest.toList.find? (!isBlank ·), b.word.toList = [g] := by
  obtain ⟨g, hg, -⟩ := exists_glyph hl b hb
  refine ⟨g, ?_, hg⟩
  rw [Option.mem_def, ← List.head?_filter, ← hl.kept_eq]
  obtain ⟨t, ht⟩ := h
  rw [← ht, hg, List.singleton_append, List.head?_cons]

/-- Unless a limit stands in the way there is a decoder, and it reads an airline and its flight
number from the front of a text, in whichever words the digits are, whatever blanks there are and
whatever follows, as long as no further digit does where there is room for it. -/
theorem aircraft_of_callsign {s : Source} {c : Config} (hc : c.validate = .ok ())
    (hairlines : Airline.PrefixFree s.airlines) (e : Elements) :
    ((∃ d, make .mandarin s e c = .ok d) ↔ Fits .mandarin s c) ∧
    ∀ d, make .mandarin s e c = .ok d → ∀ a ∈ s.airlines, ∀ ds : List DigitWord,
      (∀ w ∈ ds, w ∈ Lexicon.mandarin.digits) → 1 ≤ ds.length → ds.length ≤ c.flightMaxDigits →
      ∀ rest : String, (ds.length = c.flightMaxDigits ∨
        ∀ g ∈ rest.toList.find? (!isBlank ·), ∀ w ∈ Lexicon.mandarin.digits,
          w.word.toList ≠ [g]) →
      ∀ text, Lexicon.mandarin.compact text =
          Lexicon.mandarin.compact (a.name ++ "".intercalate (digitWords ds) ++ rest) →
        ∀ kind ≠ ResultKind.rejected, ∀ grammarName,
          (d.decode kind grammarName text).aircraft = a.code ++ " " ++ spokenDigits ds := by
  refine ⟨exists_make_iff (Config.validate_eq_ok_iff.1 hc).2, ?_⟩
  intro d hd a ha ds hds hmin hmax rest hend text htext kind hkind grammarName
  have hl := Lexicon.glyphs_mandarin
  have hname := hairlines.unbroken a ha
  have hkept := kept_callsign hl hname hds htext
  have hstop : ds.length = c.flightMaxDigits ∨
      ∀ w ∈ Lexicon.mandarin.digits, ¬ w.word.toList <+: Lexicon.mandarin.kept rest := by
    refine hend.imp_right fun h w hw hfront => ?_
    obtain ⟨g, hg, hword⟩ := exists_find?_of_prefix hl hw hfront
    exact h g hg w hw hword
  have haircraft := (made_of_make hd).aircraftOf?_callsign hl value_eq_of_word_mandarin hairlines ha
    hds hmin hmax hstop hkept
  have hblank : isBlankText text ≠ true := by
    rw [Ne, isBlankText_iff hl.script_eq, hkept]
    exact List.append_ne_nil_of_left_ne_nil hname.ne_nil _
  rw [decode, if_neg (by simp [hkind, hblank])]
  simp [haircraft]

/-- Blanks inside the name and the number, and an everyday word for a digit. -/
theorem aircraft_of_callsign_guohang :
    ∃ e d, Elements.build .mandarin guohang .standard = .ok e ∧
      make .mandarin guohang e .standard = .ok d ∧
      (d.decode .recognized "ATO0" "国 航幺 二三 跑道洞九 可以起飞").aircraft = "CCA 123" := by
  have hideographic : Ideographic "国航".toList := ideographic_of_all (by decide +kernel)
  have hname := hideographic.unbroken (by decide)
  have hairlines : Airline.PrefixFree guohang.airlines :=
    ⟨by simpa [guohang] using hname, by simp [guohang]⟩
  obtain ⟨e, he⟩ : ∃ e, Elements.build .mandarin guohang .standard = .ok e := ⟨_, rfl⟩
  obtain ⟨d, hd⟩ := exists_make_guohang e
  have hfirst : "跑道洞九可以起飞".toList.find? (!isBlank ·) = some '跑' := by decide +kernel
  have hrest : ∀ g ∈ "跑道洞九可以起飞".toList.find? (!isBlank ·),
      ∀ w ∈ Lexicon.mandarin.digits, w.word.toList ≠ [g] := by
    rw [hfirst]
    rintro g ⟨⟩
    decide
  obtain ⟨-, hdecode⟩ := aircraft_of_callsign (c := .standard) rfl hairlines e
  have haircraft := hdecode d hd ⟨"国航", "CCA"⟩ (by simp [guohang])
    [⟨"幺", 1⟩, ⟨"二", 2⟩, ⟨"三", 3⟩] (by decide) (by decide) (by decide) "跑道洞九可以起飞"
    (.inr hrest) "国 航幺 二三 跑道洞九 可以起飞" (by decide +kernel) .recognized (by decide) "ATO0"
  exact ⟨e, d, he, hd, haircraft.trans (by decide +kernel)⟩

end Decoder

end Phraseology
