import Phraseology.Json.Reader
import Phraseology.Proofs.Failure

/-! What readers make of values: each kind of reader reads what is written for it. -/
namespace Phraseology.Json

variable {α β : Type} {a : α} {b : β} {v : Json} {name : String}

/-- What the reader makes of the value, wherever the value comes from. -/
def Reader.Reads (r : Reader α) (v : Json) (a : α) : Prop := ∀ o, r o (Node.ofJson v) = .ok a

namespace Reader

variable {r : Reader α}

theorem reads_string (s : String) : Reads string (.string s) s := fun _ => rfl

theorem reads_bool (b : Bool) : Reads bool (.bool b) b := fun _ => rfl

theorem Reads.map (h : r.Reads v a) (f : α → β) : (r.map f).Reads v (f a) := by
  intro o
  rw [Reader.map, h o]
  rfl

theorem Reads.bind {f : α → Except Problem β} (h : r.Reads v a) (hf : f a = .ok b) :
    (r.bind f).Reads v b := by
  intro o
  change (r o (Node.ofJson v) >>= f) = _
  rw [h o]
  exact hf

theorem reads_list {f : α → Json} {as : List α} (h : ∀ a ∈ as, r.Reads (f a) a) :
    (list r).Reads (.array (as.map f)) as := by
  intro o
  have heach : each r o (Node.ofItems (as.map f)) = .ok as := by
    induction as with
    | nil => rfl
    | cons a as ih =>
      obtain ⟨ha, has⟩ := List.forall_mem_cons.1 h
      rw [List.map_cons, Node.ofItems, each, ha o, ih has]
      rfl
  change (each r o (Node.ofItems (as.map f)) >>= _) = _
  rw [heach]
  rfl

theorem reads_strings (ts : List String) : (list string).Reads (.strings ts) ts :=
  reads_list fun t _ => reads_string t

theorem lookup_nothing (known : List (String × α)) (name : String) :
    (known.map fun p => (p.1, Payload.nothing p.2)).lookup name =
      (known.lookup name).map Payload.nothing := by
  induction known with
  | nil => rfl
  | cons p known ih =>
    rw [List.map_cons, List.lookup_cons, List.lookup_cons, ih]
    split <;> rfl

theorem reads_choice {known : List (String × α)} (h : known.lookup name = some a) :
    (choice known).Reads (.string name) a := by
  intro o
  have hlookup := lookup_nothing known name
  rw [h] at hlookup
  cases o <;> simp [choice, variant, Node.ofJson, hlookup, Payload.bare]

/-- The tag comes first, so the content is read at once. -/
theorem reads_tagged {known : List (String × Reader α)} {tag expected : String} {content : Json}
    (h : known.lookup tag = some r) (hr : r.Reads content a) :
    (tagged expected known).Reads (.object [("type", .string tag), ("content", content)]) a := by
  intro o
  have htag : choice known o (.string (.ok tag)) = .ok r := reads_choice h o
  simp [tagged, Node.ofJson, Node.ofFields, takeFields, takeTag, takeContent, htag, hr o, sound,
    Tagged.finish]

end Reader

namespace Record

/-- The fields are those of the record, and what they hold makes the value. -/
structure Holds (r : Record α) (fs : List (String × Json)) (a : α) : Prop where
  names : ∀ f ∈ fs, f.1 ∈ r.names
  finish : ∀ o, ∃ s, r.visitFields o (Node.ofFields fs) r.start = .ok s ∧ r.finish s = .ok a

theorem holds_field {r : Reader α} {default : Option α} (h : r.Reads v a) :
    (field name r default).Holds [(name, v)] a where
  names := by simp [field]
  finish o := by
    refine ⟨some a, ?_, rfl⟩
    simp [visitFields, Node.ofFields, field, h o, Except.map]

/-- A field with a default may be left out. -/
theorem holds_default {r : Reader α} : (field name r (some a)).Holds [] a where
  names := by simp
  finish o := ⟨none, rfl, rfl⟩

theorem holds_pure : (pure a).Holds [] a where
  names := by simp
  finish o := ⟨(), rfl, rfl⟩

theorem visitFields_map (r : Record α) (f : α → β) (o : Origin)
    (ns : List (Except Fault String × Node)) (s : r.State) :
    (r.map f).visitFields o ns s = r.visitFields o ns s := by
  induction ns generalizing s with
  | nil => rfl
  | cons n ns ih =>
    obtain ⟨key, n⟩ := n
    cases key with
    | error e => rfl
    | ok key =>
      change (if r.names.contains key then r.visit o key n s >>= (r.map f).visitFields o ns
        else (r.map f).visitFields o ns s) = _
      rw [funext ih]
      rfl

theorem Holds.map {r : Record α} {fs : List (String × Json)} (h : r.Holds fs a) (f : α → β) :
    (r.map f).Holds fs (f a) where
  names := h.names
  finish o := by
    obtain ⟨s, hs, hfinish⟩ := h.finish o
    refine ⟨s, (visitFields_map r f o _ _).trans hs, ?_⟩
    change (r.finish s).map f = _
    rw [hfinish]
    rfl

theorem visitFields_append (r : Record α) (o : Origin) (fs gs : List (String × Json))
    (s : r.State) :
    r.visitFields o (Node.ofFields (fs ++ gs)) s =
      r.visitFields o (Node.ofFields fs) s >>= r.visitFields o (Node.ofFields gs) := by
  induction fs generalizing s with
  | nil => rfl
  | cons f fs ih =>
    obtain ⟨key, v⟩ := f
    simp only [List.cons_append, Node.ofFields, visitFields]
    by_cases hkey : r.names.contains key = true
    · rw [if_pos hkey, if_pos hkey]
      cases r.visit o key (Node.ofJson v) s with
      | error e => rfl
      | ok s => exact ih s
    · rw [if_neg hkey, if_neg hkey]
      exact ih s

theorem visitFields_both_left (r : Record α) (q : Record β) (o : Origin)
    {fs : List (String × Json)} (hfs : ∀ f ∈ fs, f.1 ∈ r.names) (s : r.State) (t : q.State) :
    (both r q).visitFields o (Node.ofFields fs) (s, t) =
      (r.visitFields o (Node.ofFields fs) s).map fun s => (s, t) := by
  induction fs generalizing s with
  | nil => rfl
  | cons f fs ih =>
    obtain ⟨key, v⟩ := f
    obtain ⟨hkey, hfs⟩ := List.forall_mem_cons.1 hfs
    have hboth : (both r q).names.contains key = true := by
      simpa [both] using Or.inl hkey
    have hr : r.names.contains key = true := by simpa using hkey
    have hvisit : (both r q).visit o key (Node.ofJson v) (s, t) =
        (r.visit o key (Node.ofJson v) s).map fun s => (s, t) := by
      simp only [both, if_pos hr]
      cases r.visit o key (Node.ofJson v) s <;> rfl
    simp only [Node.ofFields, visitFields]
    rw [if_pos hboth, if_pos hr, hvisit]
    cases r.visit o key (Node.ofJson v) s with
    | error e => rfl
    | ok s => exact ih hfs s

theorem visitFields_both_right (r : Record α) (q : Record β) (o : Origin)
    {fs : List (String × Json)} (hfs : ∀ f ∈ fs, f.1 ∈ q.names ∧ f.1 ∉ r.names) (s : r.State)
    (t : q.State) :
    (both r q).visitFields o (Node.ofFields fs) (s, t) =
      (q.visitFields o (Node.ofFields fs) t).map fun t => (s, t) := by
  induction fs generalizing t with
  | nil => rfl
  | cons f fs ih =>
    obtain ⟨key, v⟩ := f
    obtain ⟨⟨hkey, hnot⟩, hfs⟩ := List.forall_mem_cons.1 hfs
    have hboth : (both r q).names.contains key = true := by
      simpa [both] using Or.inr hkey
    have hq : q.names.contains key = true := by simpa using hkey
    have hr : ¬ r.names.contains key = true := by simpa using hnot
    have hvisit : (both r q).visit o key (Node.ofJson v) (s, t) =
        (q.visit o key (Node.ofJson v) t).map fun t => (s, t) := by
      simp only [both, if_neg hr]
      cases q.visit o key (Node.ofJson v) t <;> rfl
    simp only [Node.ofFields, visitFields]
    rw [if_pos hboth, if_pos hq, hvisit]
    cases q.visit o key (Node.ofJson v) t with
    | error e => rfl
    | ok t => exact ih hfs t

/-- Fields of two records go to the one that they belong to. -/
theorem Holds.and {f : Record (α → β)} {r : Record α} {g : α → β} {fs gs : List (String × Json)}
    (hf : f.Holds fs g) (hr : r.Holds gs a) (hnames : ∀ name ∈ r.names, name ∉ f.names) :
    (f.and r).Holds (fs ++ gs) (g a) := by
  have hboth : (both f r).Holds (fs ++ gs) (g, a) := by
    refine ⟨?_, fun o => ?_⟩
    · intro field hfield
      rcases List.mem_append.1 hfield with hmem | hmem
      · exact List.mem_append_left _ (hf.names _ hmem)
      · exact List.mem_append_right _ (hr.names _ hmem)
    · obtain ⟨s, hs, hfinish⟩ := hf.finish o
      obtain ⟨t, ht, hfinish'⟩ := hr.finish o
      refine ⟨(s, t), ?_, ?_⟩
      · rw [visitFields_append]
        change (both f r).visitFields o (Node.ofFields fs) (f.start, r.start) >>= _ = _
        rw [visitFields_both_left f r o hf.names, hs]
        refine (visitFields_both_right f r o ?_ s r.start).trans ?_
        · exact fun field hfield => ⟨hr.names _ hfield, hnames _ (hr.names _ hfield)⟩
        · rw [ht]
          rfl
      · simp only [both, hfinish, hfinish']
        rfl
  exact hboth.map fun p => p.1 p.2

end Record

theorem Reader.reads_record {r : Record α} {fs : List (String × Json)} (expected : String)
    (h : r.Holds fs a) : (record expected r).Reads (.object fs) a := by
  intro o
  obtain ⟨s, hs, hfinish⟩ := h.finish o
  simp [record, Node.ofJson, hs, sound, hfinish]

end Phraseology.Json
