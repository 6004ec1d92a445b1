import Mathlib
import Phraseology.Stream

/-! Lines of bytes: where they end, and that those of a text are texts. -/
namespace Phraseology.Stream

variable {a b l rest : List UInt8} {cs : List Char} {c : Char}

def encode (cs : List Char) : List UInt8 := cs.flatMap String.utf8EncodeChar

theorem encode_cons (c : Char) (cs : List Char) :
    encode (c :: cs) = String.utf8EncodeChar c ++ encode cs := List.flatMap_cons

theorem ne_newline_of_mod {n : Nat} (h : n % 256 ≠ 10) : UInt8.ofNat n ≠ 10 := by
  intro he
  have := congrArg UInt8.toNat he
  rw [UInt8.toNat_ofNat'] at this
  exact h this

/-- Only a newline has the byte of a newline in its encoding. -/
theorem newline_mem_utf8EncodeChar : 10 ∈ String.utf8EncodeChar c ↔ c = '\n' := by
  constructor
  · intro h
    by_contra hc
    simp only [String.utf8EncodeChar] at h
    split_ifs at h with hascii
    · rw [List.mem_singleton] at h
      have hval : c.val.toNat ≠ 10 := fun hval => hc (Char.ext (UInt32.toNat_inj.1 hval))
      exact ne_newline_of_mod (by omega) h.symm
    all_goals simp only [List.mem_cons, List.not_mem_nil, or_false] at h
    · rcases h with h | h <;> exact ne_newline_of_mod (by omega) h.symm
    · rcases h with h | h | h <;> exact ne_newline_of_mod (by omega) h.symm
    · rcases h with h | h | h | h <;> exact ne_newline_of_mod (by omega) h.symm
  · rintro rfl
    decide

theorem newline_mem_encode : 10 ∈ encode cs ↔ '\n' ∈ cs := by
  simp only [encode, List.mem_flatMap, newline_mem_utf8EncodeChar]
  exact ⟨fun ⟨c, hc, h⟩ => h ▸ hc, fun h => ⟨_, h, rfl⟩⟩

/-- A text is what is the encoding of characters. -/
theorem isValidUTF8_iff : ByteArray.IsValidUTF8 ⟨l.toArray⟩ ↔ ∃ cs, l = encode cs := by
  constructor
  · rintro ⟨cs, h⟩
    have hdata := congrArg ByteArray.data h
    rw [List.utf8Encode, List.data_toByteArray] at hdata
    exact ⟨cs, List.toArray_inj hdata⟩
  · rintro ⟨cs, rfl⟩
    refine ⟨cs, ByteArray.ext ?_⟩
    rw [List.utf8Encode, List.data_toByteArray]
    rfl

def bytes (s : String) : List UInt8 := s.toUTF8.data.toList

theorem bytes_eq (s : String) : bytes s = encode s.toList := by
  rw [bytes, String.toUTF8_eq_toByteArray, ← String.utf8Encode_toList, List.utf8Encode,
    List.data_toByteArray]
  rfl

@[simp] theorem lines_newline : lines (10 :: rest) = [] :: lines rest := by
  rw [lines, if_pos (by decide)]

theorem lines_cons {x : UInt8} (h : x ≠ 10) : lines (x :: rest) =
    match lines rest with
    | [] => [[x]]
    | line :: more => (x :: line) :: more := by
  rw [lines]
  exact if_neg (by simpa using h)

/-- What no newline follows belongs to the first line. -/
theorem lines_prepend (h : 10 ∉ l) (hne : l ≠ []) : lines (l ++ rest) =
    match lines rest with
    | [] => [l]
    | line :: more => (l ++ line) :: more := by
  induction l with
  | nil => exact absurd rfl hne
  | cons x l ih =>
    rw [List.mem_cons, not_or] at h
    rw [List.cons_append, lines_cons (Ne.symm h.1)]
    cases l with
    | nil => rfl
    | cons y l =>
      rw [ih h.2 (by simp)]
      cases lines rest <;> rfl

/-- A line ends in front of a newline. -/
theorem lines_append_newline (h : 10 ∉ l) : lines (l ++ 10 :: rest) = l :: lines rest := by
  by_cases hne : l = []
  · rw [hne, List.nil_append, lines_newline]
  · simp only [lines_prepend h hne, lines_newline, List.append_nil]

/-- The last line need not end in a newline. -/
theorem lines_of_not_mem (h : 10 ∉ l) (hne : l ≠ []) : lines l = [l] := by
  have : lines (l ++ []) = _ := lines_prepend h hne
  rwa [List.append_nil] at this

/-- Behind a newline the lines are counted anew. -/
theorem lines_append (ha : ∀ x ∈ a.getLast?, x = 10) : lines (a ++ b) = lines a ++ lines b := by
  induction a with
  | nil => rfl
  | cons x a ih =>
    cases a with
    | nil =>
      obtain rfl := ha x rfl
      rw [List.singleton_append, lines_newline, lines_newline]
      rfl
    | cons y a =>
      have ih := ih fun z hz => ha z (by rwa [List.getLast?_cons_cons])
      by_cases hx : x = 10
      · subst hx
        rw [List.cons_append, lines_newline, lines_newline, ih]
        rfl
      · obtain ⟨line, more, hlines⟩ : ∃ line more, lines (y :: a) = line :: more := by
          rw [lines]
          split_ifs
          · exact ⟨_, _, rfl⟩
          · split <;> exact ⟨_, _, rfl⟩
        rw [List.cons_append, lines_cons hx, lines_cons hx, ih, hlines]
        rfl

/-- All lines of a text are texts. -/
theorem exists_encode_of_mem_lines (h : l ∈ lines (encode cs)) : ∃ ds, l = encode ds := by
  induction cs generalizing l with
  | nil => cases h
  | cons c cs ih =>
    rw [encode_cons] at h
    by_cases hc : c = '\n'
    · subst hc
      change l ∈ lines (10 :: encode cs) at h
      rw [lines_newline] at h
      rcases List.mem_cons.1 h with rfl | h
      · exact ⟨[], rfl⟩
      · exact ih h
    · have hmem : 10 ∉ String.utf8EncodeChar c := mt newline_mem_utf8EncodeChar.1 hc
      rw [lines_prepend hmem String.utf8EncodeChar_ne_nil] at h
      cases hrest : lines (encode cs) with
      | nil =>
        rw [hrest, List.mem_singleton] at h
        exact ⟨[c], by rw [h, encode_cons]; simp [encode]⟩
      | cons line more =>
        rw [hrest] at h ih
        rcases List.mem_cons.1 h with rfl | h
        · obtain ⟨ds, rfl⟩ := ih (l := line) (by simp)
          exact ⟨c :: ds, (encode_cons c ds).symm⟩
        · exact ih (List.mem_cons_of_mem line h)

theorem isValidUTF8_of_mem_lines (ha : ByteArray.IsValidUTF8 ⟨a.toArray⟩) (h : l ∈ lines a) :
    ByteArray.IsValidUTF8 ⟨l.toArray⟩ := by
  obtain ⟨cs, rfl⟩ := isValidUTF8_iff.1 ha
  exact isValidUTF8_iff.2 (exists_encode_of_mem_lines h)

end Phraseology.Stream
