import Phraseology.Proofs.Stream.Serve
import Phraseology.Proofs.Wire.Message

/-! What is written on one side of a stream is read on the other. -/
namespace Phraseology

open Json (Reader)

theorem Json.readText_chars {α : Type} {r : Reader α} {v : Json} {a : α} (hr : r.Reads v a)
    (hv : v.Numberless) : Json.readText r v.chars = .ok a := by
  rw [Json.readText, Json.ofChars_chars hv]
  simp only [hr .text]

/-- An object begins and ends with a brace. -/
theorem Json.trimmed_object (fs : List (String × Json)) : Text.Trimmed (Json.object fs).chars where
  head c hc := by
    obtain rfl := Option.some.inj hc
    decide
  last c hc := by
    rw [chars, ← List.cons_append, List.getLast?_concat] at hc
    obtain rfl := Option.some.inj hc
    decide

namespace Stream

variable {α : Type} {r : Reader α} {toJson : α → Json} {ms : List α}

theorem readLine_print {v : Json} {a : α} (hr : r.Reads v a) (hv : v.Numberless)
    (hobject : ∃ fs, v = .object fs) : readLine r (bytes v.print) = .message a := by
  obtain ⟨fs, rfl⟩ := hobject
  have hchars : (Json.object fs).print.toList = (Json.object fs).chars := String.toList_ofList
  have hblank : Text.isBlankText (Json.object fs).print = false := by
    rw [Text.isBlankText, hchars]
    rfl
  rw [readLine_bytes, hblank, hchars, (Json.trimmed_object fs).trimChars_eq,
    Json.readText_chars hr hv]
  rfl

/-- A reader that reads what is written for each message reads all of them, and there the stream
ends. -/
theorem read_write (hr : ∀ m ∈ ms, r.Reads (toJson m) m) (hv : ∀ m ∈ ms, (toJson m).Numberless)
    (hobject : ∀ m ∈ ms, ∃ fs, toJson m = .object fs) : read r (write toJson ms) = ms.map .ok := by
  rw [read, lines_write hv]
  induction ms with
  | nil => rfl
  | cons m ms ih =>
    obtain ⟨hrm, hr⟩ := List.forall_mem_cons.1 hr
    obtain ⟨hvm, hv⟩ := List.forall_mem_cons.1 hv
    obtain ⟨hm, hobject⟩ := List.forall_mem_cons.1 hobject
    rw [List.map_cons, readLines, readLine_print hrm hvm hm, ih hr hv hobject, List.map_cons]

/-- Answers are read as they were written, one after another and to the end. So is what a host
sends, as long as it does not report what was recognized. Whatever texts there are in a message, it
stands on one line. -/
theorem read_written :
    (∀ ms : List ClientMessage, read ClientMessage.reader (written ms) = ms.map .ok) ∧
      (∀ ms : List HostMessage, (∀ m ∈ ms, m.isRecognition = false) →
        read HostMessage.reader (write HostMessage.toJson ms) = ms.map .ok) ∧
      (∀ m : ClientMessage, '\n' ∉ m.toJson.print.toList) ∧
      ∀ m : HostMessage, m.isRecognition = false → '\n' ∉ m.toJson.print.toList := by
  refine ⟨fun ms => ?_, fun ms hms => ?_, fun m => ?_, fun m hm => ?_⟩
  · refine read_write (fun m _ => m.reads) (fun m _ => m.numberless_toJson) fun m _ => ?_
    cases m <;> exact ⟨_, rfl⟩
  · refine read_write (fun m hm => m.reads (hms m hm)) (fun m hm => m.numberless_toJson (hms m hm))
      fun m _ => ?_
    cases m <;> exact ⟨_, rfl⟩
  · rw [Json.print, String.toList_ofList]
    exact Json.newline_not_mem_chars _ m.numberless_toJson
  · rw [Json.print, String.toList_ofList]
    exact Json.newline_not_mem_chars _ (m.numberless_toJson hm)

/-- Texts with quotes and newlines, and an error that is left out. -/
theorem read_written_quotes :
    read ClientMessage.reader (written [.languageInit "\"\n" true "", .configurationError "\\"]) =
        [.ok (.languageInit "\"\n" true ""), .ok (.configurationError "\\")] ∧
      read HostMessage.reader (write HostMessage.toJson [.transcript "\n", .source Decoder.delta]) =
        [.ok (.transcript "\n"), .ok (.source Decoder.delta)] :=
  ⟨read_written.1 _, read_written.2.1 _ (by simp [HostMessage.isRecognition])⟩

end Stream

end Phraseology
