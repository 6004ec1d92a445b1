import Phraseology.Proofs.Wire.Source

/-! Which lists make a source and which ones are refused, and for what reason; a source has the
lists that it was made from, with its runways by their names. -/
namespace Phraseology

section Repeated

variable {α : Type} [DecidableEq α] {a : α} {seen xs : List α}

theorem repeatedAfter?_eq_some_iff :
    repeatedAfter? seen xs = some a ↔ ∃ before after, xs = before ++ a :: after ∧ before.Nodup ∧
      (∀ b ∈ before, b ∉ seen) ∧ (a ∈ before ∨ a ∈ seen) := by
  induction xs generalizing seen with
  | nil => simp [repeatedAfter?]
  | cons x xs ih =>
    rw [repeatedAfter?]
    split_ifs with hx
    · constructor
      · rintro ⟨⟩
        exact ⟨[], xs, rfl, List.nodup_nil, by simp, .inr hx⟩
      · rintro ⟨before, after, hxs, -, hnew, -⟩
        cases before with
        | nil => rw [(List.cons.inj hxs).1]
        | cons y before => grind
    · rw [ih]
      constructor
      · rintro ⟨before, after, rfl, hnodup, hnew, ha⟩
        exact ⟨x :: before, after, by grind⟩
      · rintro ⟨before, after, hxs, hnodup, hnew, ha⟩
        cases before with
        | nil => grind
        | cons y before => exact ⟨before, after, by grind⟩

/-- The first element that has occurred before comes right behind elements that are all different,
and is one of them. -/
theorem repeated?_eq_some_iff :
    repeated? xs = some a ↔
      ∃ before after, xs = before ++ a :: after ∧ before.Nodup ∧ a ∈ before := by
  simp [repeated?, repeatedAfter?_eq_some_iff]

end Repeated

namespace Airline

variable {names codes : List String} {airlines : List Airline} {err : IdentifierError}

theorem ofParallel_eq_ok_iff :
    ofParallel names codes = .ok airlines ↔
      airlines.map name = names ∧ airlines.map code = codes := by
  constructor
  · intro h
    unfold ofParallel at h
    split_ifs at h with hlength
    rw [← Except.ok.inj h, ← List.map_uncurry_zip_eq_zipWith, List.map_map, List.map_map]
    exact ⟨List.map_fst_zip hlength.le, List.map_snd_zip hlength.ge⟩
  · rintro ⟨rfl, rfl⟩
    exact ofParallel_map airlines

theorem ofParallel_eq_error_iff :
    ofParallel names codes = .error err ↔
      names.length ≠ codes.length ∧ err = .airlineCodes names.length codes.length := by
  unfold ofParallel
  split_ifs with hlength
  · simp [hlength]
  · simp [hlength, eq_comm]

end Airline

theorem Runway.error_of_parse {text : String} {err : IdentifierError}
    (h : parse text = .error err) : err = .runway text := by
  unfold parse at h
  split at h
  · cases h
  · exact (Except.error.inj h).symm

namespace Source

variable {airlines : List Airline} {waypoints : List String} {runways : List Runway} {s : Source}
  {err : Error}

theorem make_eq_ok_iff : make airlines waypoints runways = .ok s ↔
    s.airlines = airlines ∧ s.waypoints = waypoints ∧ s.runways = runways := by
  constructor
  · intro h
    unfold make at h
    split at h
    · cases h
    · split at h
      · cases h
      · rw [← Except.ok.inj h]
        exact ⟨rfl, rfl, rfl⟩
  · rintro ⟨rfl, rfl, rfl⟩
    exact s.make_eq_ok

theorem make_eq_error_iff : make airlines waypoints runways = .error err ↔
    (∃ w, repeated? waypoints = some w ∧ err = .duplicateEntry (.waypoint w)) ∨
      waypoints.Nodup ∧ ∃ r, repeated? runways = some r ∧ err = .duplicateEntry (.runway r.name) := by
  unfold make
  split
  · rename_i w hw
    have hnodup : ¬ waypoints.Nodup := by
      rw [← repeated?_eq_none_iff, hw]
      simp
    simp [hw, hnodup, eq_comm]
  · rename_i hw
    split
    · rename_i name hr
      rw [repeated?_map Runway.name_injective, Option.map_eq_some_iff] at hr
      obtain ⟨r, hr, rfl⟩ := hr
      simp [hw, hr, repeated?_eq_none_iff.1 hw, eq_comm]
    · rename_i hr
      rw [repeated?_map Runway.name_injective, Option.map_eq_none_iff] at hr
      simp [hw, hr]

end Source

namespace SourceLists

variable {w : SourceLists} {s : Source} {err : Error}

theorem toSource_eq_ok_iff : w.toSource = .ok s ↔
    s.airlines.map Airline.name = w.airlines ∧ s.airlines.map Airline.code = w.airlineCodes ∧
      s.waypoints = w.waypoints ∧ w.runways.map Runway.parse = s.runways.map .ok := by
  simp only [toSource, bind_eq_ok_iff, mapError_eq_ok_iff, Airline.ofParallel_eq_ok_iff,
    mapM_eq_ok_iff, Source.make_eq_ok_iff]
  constructor
  · rintro ⟨_, ⟨hnames, hcodes⟩, _, hrunways, rfl, hwaypoints, rfl⟩
    exact ⟨hnames, hcodes, hwaypoints, hrunways⟩
  · rintro ⟨hnames, hcodes, hwaypoints, hrunways⟩
    exact ⟨s.airlines, ⟨hnames, hcodes⟩, s.runways, hrunways, rfl, hwaypoints, rfl⟩

/-- Every airline has a code, every runway is one, and no waypoint or runway occurs twice. -/
structure Sound (w : SourceLists) : Prop where
  airlineCodes : w.airlines.length = w.airlineCodes.length
  runways : ∀ t ∈ w.runways, ∃ r, Runway.parse t = .ok r
  waypoints_nodup : w.waypoints.Nodup
  runways_nodup : (w.runways.map Runway.parse).Nodup

/-- Why lists make no source. A reason counts only if none before it does, and an entry only if it
is the first that is there to be refused. -/
inductive Refused (w : SourceLists) : Error → Prop where
  | airlineCodes (apart : w.airlines.length ≠ w.airlineCodes.length) :
      Refused w (.identifier (.airlineCodes w.airlines.length w.airlineCodes.length))
  | runway {before after : List String} {t : String}
      (together : w.airlines.length = w.airlineCodes.length)
      (runways_eq : w.runways = before ++ t :: after)
      (first : ∀ u ∈ before, ∃ r, Runway.parse u = .ok r) (malformed : ∀ r, Runway.parse t ≠ .ok r) :
      Refused w (.identifier (.runway t))
  | waypointTwice {before after : List String} {x : String}
      (together : w.airlines.length = w.airlineCodes.length)
      (runways : ∀ t ∈ w.runways, ∃ r, Runway.parse t = .ok r)
      (waypoints_eq : w.waypoints = before ++ x :: after) (first : before.Nodup)
      (twice : x ∈ before) : Refused w (.duplicateEntry (.waypoint x))
  | runwayTwice {before after : List String} {t : String} {r : Runway}
      (together : w.airlines.length = w.airlineCodes.length)
      (runways : ∀ t ∈ w.runways, ∃ r, Runway.parse t = .ok r)
      (waypoints_nodup : w.waypoints.Nodup) (runways_eq : w.runways = before ++ t :: after)
      (first : (before.map Runway.parse).Nodup) (named : Runway.parse t = .ok r)
      (twice : .ok r ∈ before.map Runway.parse) : Refused w (.duplicateEntry (.runway r.name))

theorem exists_airlines (h : w.airlines.length = w.airlineCodes.length) :
    ∃ airlines, Airline.ofParallel w.airlines w.airlineCodes = .ok airlines :=
  ⟨_, if_pos h⟩

theorem length_of_ofParallel {airlines : List Airline}
    (h : Airline.ofParallel w.airlines w.airlineCodes = .ok airlines) :
    w.airlines.length = w.airlineCodes.length := by
  obtain ⟨hnames, hcodes⟩ := Airline.ofParallel_eq_ok_iff.1 h
  rw [← hnames, ← hcodes, List.length_map, List.length_map]

theorem exists_parse_of_map {texts : List String} {rs : List Runway}
    (h : texts.map Runway.parse = rs.map .ok) : ∀ t ∈ texts, ∃ r, Runway.parse t = .ok r := by
  intro t ht
  have hmem : Runway.parse t ∈ rs.map Except.ok := h ▸ List.mem_map_of_mem ht
  obtain ⟨r, -, hr⟩ := List.mem_map.1 hmem
  exact ⟨r, hr.symm⟩

@[simp] theorem nodup_map_ok_iff {rs : List Runway} :
    (rs.map (.ok : Runway → Except IdentifierError Runway)).Nodup ↔ rs.Nodup :=
  List.nodup_map_iff fun _ _ => Except.ok.inj

theorem exists_toSource_iff : (∃ s, w.toSource = .ok s) ↔ w.Sound := by
  constructor
  · rintro ⟨s, hs⟩
    obtain ⟨hnames, hcodes, hwaypoints, hrunways⟩ := toSource_eq_ok_iff.1 hs
    refine ⟨?_, exists_parse_of_map hrunways, hwaypoints ▸ s.waypoints_nodup, ?_⟩
    · rw [← hnames, ← hcodes, List.length_map, List.length_map]
    · rw [hrunways]
      exact nodup_map_ok_iff.2 s.runways_nodup
  · intro h
    obtain ⟨airlines, hairlines⟩ := exists_airlines h.airlineCodes
    obtain ⟨hnames, hcodes⟩ := Airline.ofParallel_eq_ok_iff.1 hairlines
    obtain ⟨rs, hrs⟩ := exists_mapM h.runways
    have hrunways := mapM_eq_ok_iff.1 hrs
    have hnodup : rs.Nodup := by
      rw [← nodup_map_ok_iff, ← hrunways]
      exact h.runways_nodup
    exact ⟨⟨airlines, w.waypoints, rs, h.waypoints_nodup, hnodup⟩,
      toSource_eq_ok_iff.2 ⟨hnames, hcodes, rfl, hrunways⟩⟩

/-- The first runway that has occurred before is the first text that is read as one read before. -/
theorem repeated?_runways_iff {texts : List String} {rs : List Runway} {r : Runway}
    (h : texts.map Runway.parse = rs.map .ok) :
    repeated? rs = some r ↔ ∃ before t after, texts = before ++ t :: after ∧
      (before.map Runway.parse).Nodup ∧ Runway.parse t = .ok r ∧
        .ok r ∈ before.map Runway.parse := by
  rw [repeated?_eq_some_iff]
  constructor
  · rintro ⟨rs₁, rs₂, rfl, hnodup, hr⟩
    rw [List.map_append, List.map_cons] at h
    obtain ⟨before, rest, rfl, hbefore, hrest⟩ := List.map_eq_append_iff.1 h
    obtain ⟨t, after, rfl, ht, -⟩ := List.map_eq_cons_iff.1 hrest
    refine ⟨before, t, after, rfl, ?_, ht, ?_⟩
    · rw [hbefore]
      exact nodup_map_ok_iff.2 hnodup
    · rw [hbefore]
      exact List.mem_map_of_mem hr
  · rintro ⟨before, t, after, rfl, hnodup, ht, hr⟩
    rw [List.map_append, List.map_cons] at h
    obtain ⟨rs₁, rest, rfl, hbefore, hrest⟩ := List.map_eq_append_iff.1 h.symm
    obtain ⟨r', rs₂, rfl, hr', -⟩ := List.map_eq_cons_iff.1 hrest
    obtain rfl : r' = r := Except.ok.inj (hr'.trans ht)
    rw [← hbefore] at hnodup hr
    exact ⟨rs₁, rs₂, rfl, nodup_map_ok_iff.1 hnodup,
      (List.mem_map_of_injective fun _ _ => Except.ok.inj).1 hr⟩

theorem toSource_eq_error_iff : w.toSource = .error err ↔ w.Refused err := by
  simp only [toSource, bind_eq_error_iff, mapError_eq_error_iff, mapError_eq_ok_iff,
    Airline.ofParallel_eq_error_iff, mapM_eq_error_iff, mapM_eq_ok_iff,
    Source.make_eq_error_iff]
  constructor
  · rintro (⟨_, ⟨hapart, rfl⟩, rfl⟩ | ⟨airlines, hairlines, h⟩)
    · exact .airlineCodes hapart
    have htogether := length_of_ofParallel hairlines
    rcases h with ⟨_, ⟨before, t, after, hrunways, hfirst, ht⟩, rfl⟩ | ⟨rs, hrunways, h⟩
    · obtain rfl := Runway.error_of_parse ht
      exact .runway htogether hrunways hfirst (by simp [ht])
    have hparse := exists_parse_of_map hrunways
    rcases h with ⟨x, hx, rfl⟩ | ⟨hwaypoints, r, hr, rfl⟩
    · obtain ⟨before, after, hwaypoints, hnodup, hmem⟩ := repeated?_eq_some_iff.1 hx
      exact .waypointTwice htogether hparse hwaypoints hnodup hmem
    · obtain ⟨before, t, after, hsplit, hnodup, ht, hmem⟩ := (repeated?_runways_iff hrunways).1 hr
      exact .runwayTwice htogether hparse hwaypoints hsplit hnodup ht hmem
  · intro h
    cases h with
    | airlineCodes apart => exact .inl ⟨_, ⟨apart, rfl⟩, rfl⟩
    | @runway before after t together runways_eq first malformed =>
      obtain ⟨airlines, hairlines⟩ := exists_airlines together
      obtain ⟨e, he⟩ : ∃ e, Runway.parse t = .error e := by
        cases ht : Runway.parse t with
        | error e => exact ⟨e, rfl⟩
        | ok r => exact absurd ht (malformed r)
      obtain rfl := Runway.error_of_parse he
      exact .inr ⟨airlines, hairlines, .inl ⟨_, ⟨before, t, after, runways_eq, first, he⟩, rfl⟩⟩
    | @waypointTwice before after x together runways waypoints_eq first twice =>
      obtain ⟨airlines, hairlines⟩ := exists_airlines together
      obtain ⟨rs, hrs⟩ := exists_mapM runways
      rw [mapM_eq_ok_iff] at hrs
      exact .inr ⟨airlines, hairlines, .inr ⟨rs, hrs,
        .inl ⟨x, repeated?_eq_some_iff.2 ⟨before, after, waypoints_eq, first, twice⟩, rfl⟩⟩⟩
    | @runwayTwice before after t r together runways waypoints_nodup runways_eq first named twice =>
      obtain ⟨airlines, hairlines⟩ := exists_airlines together
      obtain ⟨rs, hrs⟩ := exists_mapM runways
      rw [mapM_eq_ok_iff] at hrs
      have hr := (repeated?_runways_iff hrs).2 ⟨before, t, after, runways_eq, first, named, twice⟩
      exact .inr ⟨airlines, hairlines, .inr ⟨rs, hrs, .inr ⟨waypoints_nodup, r, hr, rfl⟩⟩⟩

/-- Lists make a source exactly if they are sound. Its own lists are the ones that it was made from,
in their order, but with each runway by its name, and the lists of any source make it again. Lists
that make none are refused for the first reason there is. -/
theorem lists_make_source (w : SourceLists) :
    ((∃ s, w.toSource = .ok s) ↔ w.Sound) ∧
    (∀ s, w.toSource = .ok s → w.runways.map Runway.parse = s.runways.map .ok ∧
      s.toLists = { w with runways := s.runways.map Runway.name }) ∧
    (∀ s : Source, s.toLists.toSource = .ok s) ∧
    ∀ err, w.toSource = .error err ↔ w.Refused err := by
  refine ⟨exists_toSource_iff, ?lists, Source.toSource_toLists, fun _ => toSource_eq_error_iff⟩
  case lists =>
    intro s hs
    obtain ⟨hnames, hcodes, hwaypoints, hrunways⟩ := toSource_eq_ok_iff.1 hs
    exact ⟨hrunways, by rw [Source.toLists, hnames, hcodes, hwaypoints]⟩

end SourceLists

end Phraseology
