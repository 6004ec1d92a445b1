import Phraseology.Json.Node
import Phraseology.Proofs.Stream.Written

/-! The text of a value reads back as its tree, whatever texts there are in it. -/
namespace Phraseology.Json

open Scan

/-- The last two digits of the unit of a control character tell it. -/
theorem hexUnit?_controlDigits : ∀ n < 32,
    hexUnit? '0' '0' (if n < 16 then '0' else '1') (Nat.digitChar (n % 16)) = some n := by
  decide

theorem text_plain {acc rest : List Char} {c : Char} (hquote : c ≠ '"') (hback : c ≠ '\\')
    (hcontrol : ¬ c.toNat < 32) : text acc none none (c :: rest) = text (c :: acc) none none rest := by
  rw [text]
  · simp [hcontrol, unpaired]
  all_goals simp_all

theorem text_unit {acc rest : List Char} {a b c d : Char} {n : Nat}
    (hunit : hexUnit? a b c d = some n) (htrailing : isTrailing n = false)
    (hleading : isLeading n = false) :
    text acc none none ('\\' :: 'u' :: ([a, b, c, d] ++ rest)) =
      text (Char.ofNat n :: acc) none none rest := by
  simp [text, hunit, htrailing, hleading]

/-- However a character is escaped, it is read as itself. -/
theorem text_escapeChar (acc rest : List Char) (c : Char) :
    text acc none none (escapeChar c ++ rest) = text (c :: acc) none none rest := by
  unfold escapeChar
  split_ifs with hquote hback hb hf hn hr ht hcontrol
  · rw [beq_iff_eq.1 hquote]
    rfl
  · rw [beq_iff_eq.1 hback]
    rfl
  · rw [beq_iff_eq.1 hb]
    rfl
  · rw [beq_iff_eq.1 hf]
    rfl
  · rw [beq_iff_eq.1 hn]
    rfl
  · rw [beq_iff_eq.1 hr]
    rfl
  · rw [beq_iff_eq.1 ht]
    rfl
  · have hunit := hexUnit?_controlDigits c.toNat hcontrol
    have hnot : isTrailing c.toNat = false ∧ isLeading c.toNat = false := by
      simp only [isTrailing, isLeading, Bool.and_eq_false_iff, decide_eq_false_iff_not]
      omega
    exact (text_unit hunit hnot.1 hnot.2).trans (by rw [Char.ofNat_toNat])
  · exact text_plain (by simpa using hquote) (by simpa using hback) hcontrol

theorem text_quoteChars (acc : List Char) (cs rest : List Char) :
    text acc none none (cs.flatMap escapeChar ++ '"' :: rest) =
      (.ok (String.ofList (acc.reverse ++ cs)), .ok rest) := by
  induction cs generalizing acc with
  | nil => simp [text, unpaired]
  | cons c cs ih =>
    rw [List.flatMap_cons, List.append_assoc, text_escapeChar, ih, List.reverse_cons,
      List.append_assoc, List.singleton_append]

theorem quoteChars_append (k : String) (s : List Char) :
    quoteChars k ++ s = '"' :: (k.toList.flatMap escapeChar ++ '"' :: s) := by
  rw [quoteChars, List.cons_append, List.append_assoc, List.singleton_append]

section Steps

variable {fuel : Nat} {s s' rest : List Char} {c : Char} {n : Node} {ns : List Node}
  {fs : List (Except Fault String × Node)} {first : Bool}

@[simp] theorem skipSpaces_cons (h : isSpace c = false) : skipSpaces (c :: s) = c :: s :=
  List.dropWhile_cons_of_neg (by simp [h])

theorem value_quoteChars (fuel : Nat) (t : String) (rest : List Char) :
    value (fuel + 1) (quoteChars t ++ rest) = (.string (.ok t), .ok rest) := by
  have htext := text_quoteChars [] t.toList rest
  rw [List.reverse_nil, List.nil_append, String.ofList_toList] at htext
  rw [quoteChars_append, value, skipSpaces_cons rfl]
  simp [htext]

theorem value_array (h : items fuel true s = (ns, none, .ok rest)) :
    value (fuel + 1) ('[' :: s) = (.array ns none, .ok rest) := by
  rw [value, skipSpaces_cons rfl]
  simp [h]

theorem value_object (h : fields fuel true s = (fs, none, .ok rest)) :
    value (fuel + 1) ('{' :: s) = (.object fs none, .ok rest) := by
  rw [value, skipSpaces_cons rfl]
  simp [h]

theorem items_end : items (fuel + 1) first (']' :: rest) = ([], none, .ok rest) := by
  rw [items.eq_def]
  rfl

theorem items_first (hspace : isSpace c = false) (hend : c ≠ ']') :
    items (fuel + 1) true (c :: s) = item fuel (c :: s) := by
  rw [items.eq_def]
  simp [skipSpaces_cons hspace, hend]

theorem items_next (hspace : isSpace c = false) (hend : c ≠ ']') :
    items (fuel + 1) false (',' :: c :: s) = item fuel (c :: s) := by
  rw [items.eq_def]
  simp [skipSpaces_cons (s := c :: s) (c := ',') rfl, skipSpaces_cons hspace, hend]

theorem item_cons (hvalue : value fuel s = (n, .ok s'))
    (hitems : items fuel false s' = (ns, none, .ok rest)) :
    item (fuel + 1) s = (n :: ns, none, .ok rest) := by
  rw [item, hvalue]
  simp [hitems]

theorem fields_end : fields (fuel + 1) first ('}' :: rest) = ([], none, .ok rest) := by
  rw [fields.eq_def]
  rfl

theorem fields_first : fields (fuel + 1) true ('"' :: s) = field fuel s := by
  rw [fields.eq_def]
  rfl

theorem fields_next : fields (fuel + 1) false (',' :: '"' :: s) = field fuel s := by
  rw [fields.eq_def]
  rfl

theorem field_cons {k : String} (hvalue : value fuel s = (n, .ok s'))
    (hfields : fields fuel false s' = (fs, none, .ok rest)) :
    field (fuel + 1) (k.toList.flatMap escapeChar ++ '"' :: ':' :: s) =
      ((.ok k, n) :: fs, none, .ok rest) := by
  have htext := text_quoteChars [] k.toList (':' :: s)
  rw [List.reverse_nil, List.nil_append, String.ofList_toList] at htext
  rw [field, htext]
  simp [skipSpaces_cons (s := s) (c := ':') rfl, hvalue, hfields]

end Steps

/-- What a value begins with is no space, and does not end a list. -/
theorem exists_chars {v : Json} (h : v.Numberless) :
    ∃ c s, v.chars = c :: s ∧ isSpace c = false ∧ c ≠ ']' := by
  cases h with
  | null => exact ⟨_, _, rfl, rfl, by decide⟩
  | bool b => cases b <;> exact ⟨_, _, rfl, rfl, by decide⟩
  | string s => exact ⟨_, _, rfl, rfl, by decide⟩
  | array each => exact ⟨_, _, rfl, rfl, by decide⟩
  | object each => exact ⟨_, _, rfl, rfl, by decide⟩

theorem exists_itemChars {v : Json} (h : v.Numberless) (vs : List Json) :
    ∃ c s, itemChars (v :: vs) = c :: s ∧ isSpace c = false ∧ c ≠ ']' := by
  obtain ⟨c, s, hv, hc⟩ := exists_chars h
  cases vs with
  | nil => exact ⟨c, s, hv, hc⟩
  | cons w vs => exact ⟨c, _, by rw [itemChars, hv, List.cons_append], hc⟩

theorem exists_fieldChars (f : String × Json) (fs : List (String × Json)) :
    ∃ s, fieldChars (f :: fs) = '"' :: s := by
  cases fs with
  | nil => exact ⟨_, by rw [fieldChars, quoteChars_append]⟩
  | cons g fs => exact ⟨_, by rw [fieldChars, quoteChars_append]⟩

theorem length_chars_pos {v : Json} (h : v.Numberless) : 0 < v.chars.length := by
  obtain ⟨c, s, hv, -⟩ := exists_chars h
  rw [hv]
  exact Nat.succ_pos _

mutual

/-- A value is read as its tree, and reading ends behind it. No character of it takes more than three
calls. -/
theorem value_chars : (v : Json) → v.Numberless → ∀ (fuel : Nat) (rest : List Char),
    3 * v.chars.length ≤ fuel → value fuel (v.chars ++ rest) = (Node.ofJson v, .ok rest)
  | v, h, 0, _, hfuel => by
    have := length_chars_pos h
    omega
  | .null, _, _ + 1, _, _ => rfl
  | .bool true, _, _ + 1, _, _ => rfl
  | .bool false, _, _ + 1, _, _ => rfl
  | .string s, _, fuel + 1, rest, _ => value_quoteChars fuel s rest
  | .array [], _, fuel + 1, rest, hfuel => by
    obtain ⟨fuel, rfl⟩ : ∃ n, fuel = n + 1 := ⟨fuel - 1, by simp [chars] at hfuel; omega⟩
    exact value_array items_end
  | .array (v :: vs), h, fuel + 1, rest, hfuel => by
    cases h with
    | array each =>
      have hlength : (Json.array (v :: vs)).chars.length = (itemChars (v :: vs)).length + 2 := by
        simp [chars]
      obtain ⟨fuel, rfl⟩ : ∃ n, fuel = n + 1 := ⟨fuel - 1, by omega⟩
      obtain ⟨c, s, hv, hspace, hend⟩ := exists_itemChars (each v (by simp)) vs
      have hitem := item_chars (v :: vs) each fuel rest (by simp) (by omega)
      rw [hv] at hitem
      rw [chars, List.cons_append, List.append_assoc, List.singleton_append, hv]
      exact value_array ((items_first hspace hend).trans hitem)
  | .object [], h, fuel + 1, rest, hfuel => by
    obtain ⟨fuel, rfl⟩ : ∃ n, fuel = n + 1 := ⟨fuel - 1, by simp [chars] at hfuel; omega⟩
    exact value_object fields_end
  | .object (f :: fs), h, fuel + 1, rest, hfuel => by
    cases h with
    | object each =>
      have hlength : (Json.object (f :: fs)).chars.length = (fieldChars (f :: fs)).length + 2 := by
        simp [chars]
      obtain ⟨fuel, rfl⟩ : ∃ n, fuel = n + 1 := ⟨fuel - 1, by omega⟩
      obtain ⟨s, hs⟩ := exists_fieldChars f fs
      have hfield := field_chars (f :: fs) each fuel s rest hs (by omega)
      rw [chars, List.cons_append, List.append_assoc, List.singleton_append, hs, List.cons_append]
      exact value_object (fields_first.trans hfield)

theorem item_chars : (vs : List Json) → (∀ v ∈ vs, v.Numberless) →
    ∀ (fuel : Nat) (rest : List Char), vs ≠ [] → 3 * (itemChars vs).length < fuel →
      item fuel (itemChars vs ++ ']' :: rest) = (Node.ofItems vs, none, .ok rest)
  | [], _, _, _, hne, _ => absurd rfl hne
  | [v], h, fuel + 1, rest, _, hfuel => by
    have hlength : (itemChars [v]).length = v.chars.length := rfl
    obtain ⟨fuel, rfl⟩ : ∃ n, fuel = n + 1 :=
      ⟨fuel - 1, by have := length_chars_pos (h v (by simp)); omega⟩
    exact item_cons (value_chars v (h v (by simp)) (fuel + 1) (']' :: rest) (by omega)) items_end
  | v :: w :: vs, h, fuel + 1, rest, _, hfuel => by
    obtain ⟨hv, hvs⟩ := List.forall_mem_cons.1 h
    have hlength : (itemChars (v :: w :: vs)).length =
        v.chars.length + ((itemChars (w :: vs)).length + 1) := by
      simp [itemChars]
    have hvalue := value_chars v hv fuel (',' :: (itemChars (w :: vs) ++ ']' :: rest)) (by omega)
    obtain ⟨fuel, rfl⟩ : ∃ n, fuel = n + 1 := ⟨fuel - 1, by omega⟩
    obtain ⟨c, s, hw, hspace, hend⟩ := exists_itemChars (hvs w (by simp)) vs
    have hitem := item_chars (w :: vs) hvs fuel rest (by simp) (by omega)
    rw [itemChars, List.append_assoc, List.cons_append]
    refine item_cons hvalue ?_
    rw [hw] at hitem ⊢
    exact (items_next hspace hend).trans hitem

theorem field_chars : (fs : List (String × Json)) → (∀ f ∈ fs, f.2.Numberless) →
    ∀ (fuel : Nat) (s rest : List Char), fieldChars fs = '"' :: s →
      3 * (fieldChars fs).length < fuel →
      field fuel (s ++ '}' :: rest) = (Node.ofFields fs, none, .ok rest)
  | [(k, v)], h, fuel + 1, s, rest, hs, hfuel => by
    have hlength : v.chars.length < (fieldChars [(k, v)]).length := by
      simp only [fieldChars, List.length_append, List.length_cons]
      omega
    rw [fieldChars, quoteChars_append] at hs
    obtain rfl := (List.cons.inj hs).2
    have hvalue := value_chars v (h (k, v) (by simp)) fuel ('}' :: rest) (by omega)
    obtain ⟨fuel, rfl⟩ : ∃ n, fuel = n + 1 := ⟨fuel - 1, by omega⟩
    rw [List.append_assoc]
    exact field_cons hvalue fields_end
  | (k, v) :: f :: fs, h, fuel + 1, s, rest, hs, hfuel => by
    obtain ⟨hv, hfs⟩ := List.forall_mem_cons.1 h
    obtain ⟨t, ht⟩ := exists_fieldChars f fs
    have hlength : v.chars.length + ((fieldChars (f :: fs)).length + 1) <
        (fieldChars ((k, v) :: f :: fs)).length := by
      simp only [fieldChars, List.length_append, List.length_cons]
      omega
    rw [fieldChars, ht, quoteChars_append] at hs
    obtain rfl := (List.cons.inj hs).2
    have hvalue := value_chars v hv fuel (',' :: '"' :: (t ++ '}' :: rest)) (by omega)
    obtain ⟨fuel, rfl⟩ : ∃ n, fuel = n + 1 := ⟨fuel - 1, by omega⟩
    have hfield := field_chars (f :: fs) hfs fuel t rest ht (by omega)
    simp only [List.append_assoc, List.cons_append]
    exact field_cons hvalue (fields_next.trans hfield)

end

/-- The compact text of a value holds its tree, and nothing else. -/
theorem ofChars_chars {v : Json} (h : v.Numberless) : Node.ofChars v.chars = (Node.ofJson v, none) := by
  have hvalue := value_chars v h (3 * v.chars.length + 3) [] (by omega)
  rw [List.append_nil] at hvalue
  rw [Node.ofChars, hvalue]
  rfl

end Phraseology.Json
