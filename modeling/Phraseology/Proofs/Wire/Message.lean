import Phraseology.Proofs.Json.Printed
import Phraseology.Proofs.Wire.Source
import Phraseology.Wire.Message

/-! Messages are read as they are written. -/
namespace Phraseology

open Json (Reader Record)

theorem ResultKind.reads (k : ResultKind) : ResultKind.reader.Reads (.string k.name) k :=
  Reader.reads_choice (by cases k <;> rfl)

theorem Category.reads (c : Category) : Category.reader.Reads (.string c.name) c :=
  Reader.reads_choice (by cases c <;> rfl)

theorem Json.Record.holds_required {α : Type} (name : String) {r : Reader α} {v : Json} {a : α}
    (h : r.Reads v a) : (Record.required name r).Holds [(name, v)] a := Record.holds_field h

theorem Decoded.reads (d : Decoded) : Decoded.reader.Reads d.toJson d := by
  have text (name s : String) := Record.holds_required name (Reader.reads_string s)
  have h := ((((((((Record.holds_pure (a := Decoded.mk)).and
    (Record.holds_required "Type" d.kind.reads) (by decide)).and
    (Record.holds_required "Grammar" d.grammar.reads) (by decide)).and
    (text "Message" d.message) (by decide)).and
    (text "NormalizedMessage" d.normalizedMessage) (by decide)).and
    (text "Aircraft" d.aircraft) (by decide)).and
    (text "Waypoint" d.waypoint) (by decide)).and
    (text "Heading" d.heading) (by decide)).and
    (text "Runway" d.runway) (by decide)
  exact Reader.reads_record _ h

theorem Summary.reads (s : Summary) : Summary.reader.Reads s.toJson s := by
  have h := (((Record.holds_pure (a := Summary.mk)).and
    (Record.holds_required "Name" (Reader.reads_string s.name)) (by decide)).and
    (Record.holds_required "Category" s.category.reads) (by decide)).and
    (Record.holds_required "Definition" (Reader.reads_string s.definition)) (by decide)
  exact Reader.reads_record _ h

/-- An error that is left out is read as the empty one that it was. -/
theorem reads_languageInit (language : String) (isSuccess : Bool) (error : String) :
    Reader.Reads
      (.record "struct LanguageInitResult" <| (((Record.pure ClientMessage.languageInit).and
        (.required "Language" .string)).and (.required "IsSuccess" .bool)).and
        (.field "ErrorMessage" .string (some "")))
      (languageInitJson language isSuccess error) (.languageInit language isSuccess error) := by
  have hfirst := ((Record.holds_pure (a := ClientMessage.languageInit)).and
    (Record.holds_required "Language" (Reader.reads_string language)) (by decide)).and
    (Record.holds_required "IsSuccess" (Reader.reads_bool isSuccess)) (by decide)
  refine Reader.reads_record _ ?_
  by_cases hempty : error.isEmpty = true
  · rw [if_pos hempty, String.isEmpty_iff.1 hempty]
    exact hfirst.and Record.holds_default (by decide)
  · rw [if_neg hempty]
    exact hfirst.and (Record.holds_field (Reader.reads_string error)) (by decide)

theorem ClientMessage.reads (m : ClientMessage) : ClientMessage.reader.Reads m.toJson m := by
  cases m with
  | result d => exact Reader.reads_tagged rfl (d.reads.map ClientMessage.result)
  | languageInit language isSuccess error =>
    exact Reader.reads_tagged rfl (reads_languageInit language isSuccess error)
  | compiled grammars =>
    have hlist := Reader.reads_list fun (s : Summary) (_ : s ∈ grammars) => s.reads
    exact Reader.reads_tagged rfl (hlist.map ClientMessage.compiled)
  | configurationError message =>
    exact Reader.reads_tagged rfl
      (Reader.reads_record _
        ((Record.holds_required "Message" (Reader.reads_string message)).map _))
  | running isRunning =>
    exact Reader.reads_tagged rfl
      (Reader.reads_record _
        ((Record.holds_required "IsRunning" (Reader.reads_bool isRunning)).map _))

/-- What was recognized comes with a number, which other messages do not. -/
def HostMessage.isRecognition : HostMessage → Bool
  | .recognition _ => true
  | _ => false

theorem HostMessage.reads (m : HostMessage) (h : m.isRecognition = false) :
    HostMessage.reader.Reads m.toJson m := by
  cases m with
  | source s => exact Reader.reads_tagged rfl (s.reads.map HostMessage.source)
  | rules r => exact Reader.reads_tagged rfl (r.reads.map HostMessage.rules)
  | language tag =>
    exact Reader.reads_tagged rfl
      (Reader.reads_record _ ((Record.holds_required "Language" (Reader.reads_string tag)).map _))
  | running isRunning =>
    exact Reader.reads_tagged rfl
      (Reader.reads_record _
        ((Record.holds_required "IsRunning" (Reader.reads_bool isRunning)).map _))
  | recognition r => cases h
  | transcript text =>
    exact Reader.reads_tagged rfl
      (Reader.reads_record _ ((Record.holds_required "Text" (Reader.reads_string text)).map _))

theorem Json.Numberless.strings (ts : List String) : (Json.strings ts).Numberless := by
  refine .array fun v hv => ?_
  obtain ⟨t, -, rfl⟩ := List.mem_map.1 hv
  exact .string t

theorem HostMessage.numberless_toJson (m : HostMessage) (h : m.isRecognition = false) :
    m.toJson.Numberless := by
  cases m with
  | source s =>
    refine .message (.object ?_)
    simp only [List.forall_mem_cons]
    exact ⟨.strings _, .strings _, .strings _, .strings _,
      by simp⟩
  | rules r =>
    refine .message (.object ?_)
    simp only [List.forall_mem_cons]
    exact ⟨.strings _, .strings _, .strings _, .strings _,
      .strings _, .strings _, by simp⟩
  | language tag => exact .message (.object (List.forall_mem_singleton.2 (.string _)))
  | running isRunning => exact .message (.object (List.forall_mem_singleton.2 (.bool _)))
  | recognition r => cases h
  | transcript text => exact .message (.object (List.forall_mem_singleton.2 (.string _)))

end Phraseology
