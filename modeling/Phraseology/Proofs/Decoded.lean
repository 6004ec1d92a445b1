import Phraseology.Proofs.Decoder.Covers
import Phraseology.Proofs.Wire.Source

/-! Complete results give commands: what each identifier has to look like, and that nothing else can
stand in the way. -/
namespace Phraseology

open Text

def Text.decimal (s : List Char) : Nat := s.foldl (fun n c => 10 * n + (c.toNat - '0'.toNat)) 0

theorem exists_digitChar {c : Char} (h : c.isDigit = true) : ∃ d : Fin 10, digitChar d = c := by
  have hbounds : '0'.toNat ≤ c.toNat ∧ c.toNat ≤ '9'.toNat := by
    simpa [Char.isDigit, UInt32.le_iff_toNat_le] using h
  have hnine : '9'.toNat = '0'.toNat + 9 := rfl
  refine ⟨⟨c.toNat - '0'.toNat, by omega⟩, ?_⟩
  have hsum : '0'.toNat + (c.toNat - '0'.toNat) = c.toNat := by omega
  rw [digitChar, hsum, Char.ofNat_toNat]

theorem exists_map_digitChar {s : List Char} (h : isDigits s = true) :
    ∃ ns : List (Fin 10), ns.map digitChar = s := by
  have hrange : s ∈ Set.range (List.map digitChar) := by
    rw [Set.range_list_map]
    exact fun c hc => exists_digitChar (List.all_eq_true.1 h c hc)
  exact hrange

@[simp] theorem toNat_digitChar (d : Fin 10) : (digitChar d).toNat - '0'.toNat = d.val := by
  revert d
  decide

theorem Text.not_blank_of_isDigit {c : Char} (h : c.isDigit = true) : isBlank c = false := by
  have hall : ∀ d : Fin 10, isBlank (digitChar d) = false := by decide
  obtain ⟨d, rfl⟩ := exists_digitChar h
  exact hall d

namespace Callsign

variable {code flight text : String} {c : Callsign}

theorem exists_of_parse (h : parse text = .ok c) :
    wordChars text.toList = [c.airline.toList, c.flight.toList] ∧
      isDigits c.flight.toList = true := by
  unfold parse at h
  split at h
  · rename_i c' hc'
    obtain rfl := Except.ok.inj h
    unfold ofWords? at hc'
    split at hc'
    · rename_i airline flight hwords
      obtain ⟨hdigits, hc⟩ := Option.ite_none_right_eq_some.1 hc'
      rw [← Option.some.inj hc]
      simpa [hwords] using hdigits
    · cases hc'
  · cases h

theorem unbroken_of_parse (h : parse text = .ok c) :
    Unbroken c.airline.toList ∧ Unbroken c.flight.toList := by
  obtain ⟨hwords, -⟩ := exists_of_parse h
  exact ⟨unbroken_of_mem_wordChars (hwords ▸ List.mem_cons_self),
    unbroken_of_mem_wordChars (hwords ▸ List.mem_cons_of_mem _ List.mem_cons_self)⟩

/-- A name has two words, if neither part of it has blanks. -/
theorem wordChars_name {code flight : String} (hcode : Unbroken code.toList)
    (hflight : Unbroken flight.toList) :
    wordChars (code ++ " " ++ flight).toList = [code.toList, flight.toList] := by
  have hunbroken : ∀ w ∈ [code, flight], Unbroken w.toList := by simpa using ⟨hcode, hflight⟩
  have hname : code ++ " " ++ flight = " ".intercalate [code, flight] := rfl
  rw [hname, wordChars_intercalate hunbroken]
  rfl

/-- A code and a flight number are read as a callsign of that name exactly when the code is a single
word. -/
theorem parse_name_iff (hne : flight ≠ "") (hdigits : isDigits flight.toList = true) :
    (∃ c, parse (code ++ " " ++ flight) = .ok c ∧ c.name = code ++ " " ++ flight) ↔
      Unbroken code.toList := by
  constructor
  · rintro ⟨c, hc, hname⟩
    obtain ⟨hairline, hflight⟩ := unbroken_of_parse hc
    have hspace {u : List Char} (hu : Unbroken u) : ' ' ∉ u := fun hmem =>
      absurd (hu.not_blank ' ' hmem) (by decide)
    have hchars := congrArg String.toList hname
    simp only [name, String.toList_append, List.append_assoc] at hchars
    -- There is only one space in a name, so it stands behind the code.
    obtain ⟨hcode, -⟩ :=
      (List.append_cons_inj_of_notMem (hspace hairline) (hspace hflight)).1 hchars
    exact hcode ▸ hairline
  · intro hcode
    have hflight : Unbroken flight.toList :=
      ⟨by simpa using hne, fun g hg => not_blank_of_isDigit (List.all_eq_true.1 hdigits g hg)⟩
    refine ⟨⟨code, flight⟩, ?_, rfl⟩
    rw [parse, wordChars_name hcode hflight, ofWords?, if_pos hdigits, String.ofList_toList, String.ofList_toList]

end Callsign

namespace Heading

variable {text : String}

theorem exists_ofDegrees? {n : Nat} (h : n ≤ 360) :
    ∃ x, ofDegrees? n = some x ∧ x.degrees = if n = 0 then 360 else n := by
  unfold ofDegrees?
  split_ifs with hzero
  · exact ⟨_, rfl, rfl⟩
  · exact ⟨_, rfl, rfl⟩

theorem ofChars?_digits {ns : List (Fin 10)} (h : ns.length = 3) :
    ofChars? (ns.map digitChar) = ofDegrees? (decimal (ns.map digitChar)) := by
  obtain ⟨a, b, c, rfl⟩ := List.length_eq_three.1 h
  have hdecimal : decimal ([a, b, c].map digitChar) = 100 * a.val + 10 * b.val + c.val := by
    simp only [decimal, List.map_cons, List.map_nil, List.foldl_cons, List.foldl_nil,
      toNat_digitChar]
    omega
  rw [hdecimal]
  simp [ofChars?]

/-- Three digits up to 360 are read as a heading of as many degrees, or as north. -/
theorem exists_parse (hdigits : isDigits text.toList = true) (hlength : text.toList.length = 3)
    (hle : decimal text.toList ≤ 360) :
    ∃ x, parse text = .ok x ∧
      x.degrees = if decimal text.toList = 0 then 360 else decimal text.toList := by
  obtain ⟨ns, hns⟩ := exists_map_digitChar hdigits
  obtain ⟨x, hx, hdegrees⟩ := exists_ofDegrees? hle
  refine ⟨x, ?_, hdegrees⟩
  rw [← hns, ← ofChars?_digits (by simpa [← hns] using hlength), hns] at hx
  rw [parse, hx]

end Heading

/-- One or two digits and perhaps the letter of a side name a runway. -/
theorem Runway.exists_chars {ns : List (Fin 10)} (hpos : 1 ≤ ns.length) (hle : ns.length ≤ 2)
    (side : Option Side) :
    ∃ r : Runway, r.chars = ns.map digitChar ++ (side.map Side.letter).toList := by
  match ns with
  | [a] => exact ⟨⟨a, none, side⟩, rfl⟩
  | [a, b] => exact ⟨⟨a, some b, side⟩, rfl⟩

namespace Decoded

/-- The fields look like those of a decoder: an aircraft is the code of an airline and a flight
number, a runway has the name of one, and a heading has three digits. -/
structure Formed (airlines : List Airline) (d : Decoded) : Prop where
  aircraft : d.aircraft ≠ "" → ∃ a ∈ airlines, ∃ flight : String, flight ≠ "" ∧
    isDigits flight.toList = true ∧ d.aircraft = a.code ++ " " ++ flight
  runway : d.runway ≠ "" → ∃ r : Runway, d.runway = r.name
  heading : d.heading ≠ "" →
    isDigits d.heading.toList = true ∧ d.heading.toList.length = 3

/-- Nothing that a command of the category needs is missing. -/
structure Complete (d : Decoded) : Prop where
  kind_ne : d.kind ≠ .rejected
  grammar_ne : d.grammar ≠ .invalid
  field_ne : ∀ k ∈ d.grammar.required, d.field k ≠ ""
  heading_le : d.grammar = .flyHeading → decimal d.heading.toList ≤ 360

/-- The command is to the aircraft of the result, and is given the field of its category; zero
degrees are north. -/
def Tells (d : Decoded) (c : Command) : Prop :=
  c.callsign.name = d.aircraft ∧
    match d.grammar, c with
    | .status, .status _ => True
    | .takeoff, .takeoff _ r => r.name = d.runway
    | .landing, .landing _ r => r.name = d.runway
    | .flyHeading, .flyHeading _ h =>
      h.degrees = if decimal d.heading.toList = 0 then 360 else decimal d.heading.toList
    | .vectorToNamedWaypoint, .vectorTo _ w => w = .named d.waypoint
    | .vectorToSpelledWaypoint, .vectorTo _ w => w = .spelled d.waypoint
    | _, _ => False

variable {airlines : List Airline} {d : Decoded} {c : Command} {callsign : Callsign}

/-- The command has what is read from the field of the category. -/
def Reads (d : Decoded) (c : Command) : Prop :=
  match d.grammar, c with
  | .status, .status _ => True
  | .takeoff, .takeoff _ r => Runway.parse d.runway = .ok r
  | .landing, .landing _ r => Runway.parse d.runway = .ok r
  | .flyHeading, .flyHeading _ h => Heading.parse d.heading = .ok h
  | .vectorToNamedWaypoint, .vectorTo _ w => d.waypoint ≠ "" ∧ w = .named d.waypoint
  | .vectorToSpelledWaypoint, .vectorTo _ w => d.waypoint ≠ "" ∧ w = .spelled d.waypoint
  | _, _ => False

theorem vector?_eq_some_iff {make : String → Waypoint} {waypoint : String} {w : Waypoint} :
    vector? make waypoint = some w ↔ waypoint ≠ "" ∧ w = make waypoint := by
  rw [vector?, Option.ite_none_left_eq_some, Option.some.injEq, String.isEmpty_iff]
  exact and_congr_right fun _ => eq_comm

/-- A command is given once its callsign and the field of its category are read. -/
theorem command?_eq_some_iff :
    d.command? = some c ↔
      d.kind ≠ .rejected ∧ Callsign.parse d.aircraft = .ok c.callsign ∧ d.Reads c := by
  unfold command? Reads
  cases d.grammar <;> cases c <;>
    simp [Option.bind_eq_some_iff, vector?_eq_some_iff, Command.callsign]

theorem Complete.aircraft_ne (h : d.Complete) : d.aircraft ≠ "" := by
  have hmem : .aircraft ∈ d.grammar.required := by
    have hne := h.grammar_ne
    cases hgrammar : d.grammar <;> simp_all [Category.required]
  exact h.field_ne .aircraft hmem

/-- Once the callsign is read, the other field is read as well. -/
theorem Complete.exists_command? (h : d.Complete) (hd : d.Formed airlines)
    (hparse : Callsign.parse d.aircraft = .ok callsign) (hname : callsign.name = d.aircraft) :
    ∃ c, d.command? = some c ∧ d.Tells c := by
  have hfield := h.field_ne
  suffices ∃ c : Command, c.callsign = callsign ∧ d.Reads c ∧ d.Tells c by
    obtain ⟨c, rfl, hreads, htells⟩ := this
    exact ⟨c, command?_eq_some_iff.2 ⟨h.kind_ne, hparse, hreads⟩, htells⟩
  unfold Reads Tells
  cases hgrammar : d.grammar with
  | status => exact ⟨.status callsign, rfl, trivial, hname, trivial⟩
  | takeoff =>
    obtain ⟨r, hr⟩ := hd.runway (hfield .runway (by simp [hgrammar, Category.required]))
    exact ⟨.takeoff callsign r, rfl, hr ▸ r.parse_name, hname, hr.symm⟩
  | landing =>
    obtain ⟨r, hr⟩ := hd.runway (hfield .runway (by simp [hgrammar, Category.required]))
    exact ⟨.landing callsign r, rfl, hr ▸ r.parse_name, hname, hr.symm⟩
  | flyHeading =>
    obtain ⟨hdigits, hlength⟩ :=
      hd.heading (hfield .heading (by simp [hgrammar, Category.required]))
    obtain ⟨x, hx, hdegrees⟩ := Heading.exists_parse hdigits hlength (h.heading_le hgrammar)
    exact ⟨.flyHeading callsign x, rfl, hx, hname, hdegrees⟩
  | vectorToNamedWaypoint =>
    have hne := hfield .waypointNamed (by simp [hgrammar, Category.required])
    exact ⟨.vectorTo callsign (.named d.waypoint), rfl, ⟨hne, rfl⟩, hname, rfl⟩
  | vectorToSpelledWaypoint =>
    have hne := hfield .waypointSpelled (by simp [hgrammar, Category.required])
    exact ⟨.vectorTo callsign (.spelled d.waypoint), rfl, ⟨hne, rfl⟩, hname, rfl⟩
  | invalid => exact absurd hgrammar h.grammar_ne

/-- A complete result gives its command exactly when the code of its airline is a single word. -/
theorem Complete.command_iff (h : d.Complete) (hd : d.Formed airlines) :
    ∃ a ∈ airlines, ∃ flight : String, flight ≠ "" ∧ isDigits flight.toList = true ∧
      d.aircraft = a.code ++ " " ++ flight ∧
        ((∃ c, d.command? = some c ∧ d.Tells c) ↔ Unbroken a.code.toList) := by
  obtain ⟨a, ha, flight, hne, hdigits, haircraft⟩ := hd.aircraft h.aircraft_ne
  refine ⟨a, ha, flight, hne, hdigits, haircraft, ?_⟩
  rw [← Callsign.parse_name_iff hne hdigits, ← haircraft]
  constructor
  · rintro ⟨c, hc, hname, -⟩
    exact ⟨c.callsign, (command?_eq_some_iff.1 hc).2.1, hname⟩
  · rintro ⟨callsign, hparse, hname⟩
    exact h.exists_command? hd hparse hname

end Decoded

end Phraseology
