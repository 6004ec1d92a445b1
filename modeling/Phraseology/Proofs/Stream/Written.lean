import Phraseology.Proofs.Stream.Lines

/-! Answers as they are written: each on a line of its own. -/
namespace Phraseology

inductive Json.Numberless : Json → Prop where
  | null : Numberless .null
  | bool (b : Bool) : Numberless (.bool b)
  | string (s : String) : Numberless (.string s)
  | array {items : List Json} (each : ∀ v ∈ items, Numberless v) : Numberless (.array items)
  | object {fields : List (String × Json)} (each : ∀ f ∈ fields, Numberless f.2) :
      Numberless (.object fields)

namespace Json

theorem newline_not_mem_escapeChar (c : Char) : '\n' ∉ escapeChar c := by
  have hdigit : ∀ n < 16, Nat.digitChar n ≠ '\n' := by decide
  have hlast := hdigit (c.toNat % 16) (Nat.mod_lt _ (by decide))
  have hite {p : Prop} [Decidable p] {u v : List Char} (hu : '\n' ∉ u) (hv : '\n' ∉ v) :
      '\n' ∉ if p then u else v := by
    split
    · exact hu
    · exact hv
  have hcontrol : '\n' ∉ '\\' :: 'u' :: controlDigits c := by
    unfold controlDigits
    split <;> simp [hlast.symm]
  by_cases hc : c = '\n'
  · subst hc
    decide
  · unfold escapeChar
    refine hite (by decide) (hite (by decide) (hite (by decide) (hite (by decide)
      (hite (by decide) (hite (by decide) (hite (by decide) (hite hcontrol ?_)))))))
    simpa using Ne.symm hc

theorem newline_not_mem_quoteChars (s : String) : '\n' ∉ quoteChars s := by
  simp [quoteChars, newline_not_mem_escapeChar]

mutual

/-- A newline in a text is escaped, so the value stands on one line. -/
theorem newline_not_mem_chars : (v : Json) → v.Numberless → '\n' ∉ v.chars
  | .null, _ => by decide
  | .bool true, _ => by decide
  | .bool false, _ => by decide
  | .string s, _ => newline_not_mem_quoteChars s
  | .array items, h => by
    cases h with
    | array each => simp [chars, newline_not_mem_itemChars items each]
  | .object fields, h => by
    cases h with
    | object each => simp [chars, newline_not_mem_fieldChars fields each]

theorem newline_not_mem_itemChars : (vs : List Json) → (∀ v ∈ vs, v.Numberless) →
    '\n' ∉ itemChars vs
  | [], _ => by simp [itemChars]
  | [v], h => newline_not_mem_chars v (h v (by simp))
  | v :: w :: rest, h => by
    obtain ⟨hv, hrest⟩ := List.forall_mem_cons.1 h
    simp [itemChars, newline_not_mem_chars v hv, newline_not_mem_itemChars (w :: rest) hrest]

theorem newline_not_mem_fieldChars : (fs : List (String × Json)) → (∀ f ∈ fs, f.2.Numberless) →
    '\n' ∉ fieldChars fs
  | [], _ => by simp [fieldChars]
  | [(k, v)], h => by
    simp [fieldChars, newline_not_mem_quoteChars, newline_not_mem_chars v (h (k, v) (by simp))]
  | (k, v) :: f :: rest, h => by
    obtain ⟨hv, hrest⟩ := List.forall_mem_cons.1 h
    simp [fieldChars, newline_not_mem_quoteChars, newline_not_mem_chars v hv,
      newline_not_mem_fieldChars (f :: rest) hrest]

end

end Json

theorem Json.Numberless.message {tag : String} {content : Json} (h : content.Numberless) :
    (Json.message tag content).Numberless := by
  refine .object (List.forall_mem_cons.2 ⟨.string tag, List.forall_mem_singleton.2 h⟩)

theorem ClientMessage.numberless_toJson (m : ClientMessage) : m.toJson.Numberless := by
  cases m with
  | result d =>
    refine .message (.object ?_)
    simp only [List.forall_mem_cons]
    exact ⟨.string _, .string _, .string _, .string _, .string _, .string _, .string _, .string _,
      by simp⟩
  | languageInit language isSuccess error =>
    refine .message (.object (List.forall_mem_append.2 ⟨?_, ?_⟩))
    · exact List.forall_mem_cons.2 ⟨.string _, List.forall_mem_singleton.2 (.bool _)⟩
    · split_ifs
      · simp
      · exact List.forall_mem_singleton.2 (.string _)
  | compiled grammars =>
    refine .message (.array fun v hv => ?_)
    obtain ⟨s, -, rfl⟩ := List.mem_map.1 hv
    refine .object ?_
    simp only [List.forall_mem_cons]
    exact ⟨.string _, .string _, .string _, by simp⟩
  | configurationError message => exact .message (.object (List.forall_mem_singleton.2 (.string _)))
  | running isRunning => exact .message (.object (List.forall_mem_singleton.2 (.bool _)))

namespace Stream

variable {α : Type} {toJson : α → Json}

def write (toJson : α → Json) (ms : List α) : List UInt8 :=
  ms.flatMap fun m => bytes (writeLine (toJson m))

/-- Each message is a line of its own. -/
theorem lines_write {ms : List α} (h : ∀ m ∈ ms, (toJson m).Numberless) :
    lines (write toJson ms) = ms.map fun m => bytes (toJson m).print := by
  induction ms with
  | nil => rfl
  | cons m ms ih =>
    obtain ⟨hm, hms⟩ := List.forall_mem_cons.1 h
    have hline : bytes (writeLine (toJson m)) = bytes (toJson m).print ++ [10] := by
      rw [bytes_eq, bytes_eq, writeLine, String.toList_append]
      simp only [encode, List.flatMap_append]
      rfl
    have hmem : 10 ∉ bytes (toJson m).print := by
      rw [bytes_eq, newline_mem_encode, Json.print, String.toList_ofList]
      exact Json.newline_not_mem_chars _ hm
    rw [write, List.flatMap_cons, hline, List.append_assoc, List.singleton_append,
      lines_append_newline hmem, List.map_cons]
    exact congrArg _ (ih hms)

def written (ms : List ClientMessage) : List UInt8 := ms.flatMap fun m => bytes (writeLine m.toJson)

theorem written_append (ms ms' : List ClientMessage) :
    written (ms ++ ms') = written ms ++ written ms' :=
  List.flatMap_append

/-- Each answer is a line of its own. -/
theorem lines_written (ms : List ClientMessage) :
    lines (written ms) = ms.map fun m => bytes m.toJson.print :=
  lines_write fun m _ => m.numberless_toJson

end Stream

end Phraseology
