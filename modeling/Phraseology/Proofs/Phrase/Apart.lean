import Phraseology.Proofs.NumberPhrase.Present
import Phraseology.Proofs.Phrase.Spoken

/-! Where a phrase is spoken in a text, and what becomes of its texts when blanks are between all
words: each stands in one piece. -/
namespace Phraseology.Phrase

open Text

variable {ph : Phrase} {vs : List String} {t u : List Char}

/-- The texts that these words are of stand apart as the words do. -/
theorem Uttered.exists_whole (h : ph.Spoken vs) (hapart : Apart (vs.map String.toList) u)
    (hu : u <:+: t) (hwhole : ∀ s ∈ ph.texts, StandsWhole s.toList t)
    (hedged : ∀ s ∈ ph.texts, HasWords s.toList t → Edged s.toList) :
    ∃ ws, ph.SpokenWhole ws ∧ Apart (ws.map String.toList) u ∧ ∀ w ∈ ws, Edged w.toList := by
  induction h generalizing u with
  | text s =>
    rw [map_toList_words] at hapart
    have hs := hedged s (by simp [texts]) ⟨u, hu, hapart.laid⟩
    exact ⟨[s], .text s, hapart.singleton hu (hwhole s (by simp [texts])) hs, by simpa using hs⟩
  | choice mem uttered ih =>
    rw [texts] at hwhole hedged
    obtain ⟨ws, hws, hrest⟩ := ih hapart hu
      (fun s hs => hwhole s (mem_textsOf_iff.2 ⟨_, mem, hs⟩))
      fun s hs => hedged s (mem_textsOf_iff.2 ⟨_, mem, hs⟩)
    exact ⟨ws, .choice mem hws, hrest⟩
  | nil => exact ⟨[], .nil, hapart, by simp⟩
  | cons first others ih₁ ih₂ =>
    simp only [texts, textsOf, List.forall_mem_append] at hwhole hedged ih₂
    rw [List.map_append] at hapart
    obtain ⟨y, z, rfl, hy, hz, hgap⟩ := hapart.of_append
    obtain ⟨us, hus, husapart, husedged⟩ :=
      ih₁ hy (List.IsInfix.trans ⟨[], z, rfl⟩ hu) hwhole.1 hedged.1
    obtain ⟨ws, hws, hwsapart, hwsedged⟩ :=
      ih₂ hz (List.IsInfix.trans ⟨y, [], by simp⟩ hu) hwhole.2 hedged.2
    refine ⟨us ++ ws, .cons hus hws, ?_, List.forall_mem_append.2 ⟨husedged, hwsedged⟩⟩
    rw [List.map_append]
    exact husapart.append hwsapart (List.forall_mem_map.2 husedged) hgap
  | @repeated body min max wss copies lower upper ih =>
    simp only [texts] at hwhole hedged
    -- Copy by copy, as in a sequence.
    suffices h : ∃ wss' : List (List String), wss'.length = wss.length ∧
        (∀ ws ∈ wss', body.SpokenWhole ws) ∧ Apart (wss'.flatten.map String.toList) u ∧
          ∀ w ∈ wss'.flatten, Edged w.toList by
      obtain ⟨wss', hlength, hcopies, hrest⟩ := h
      exact ⟨_, .repeated wss' hcopies (by omega) (by omega), hrest⟩
    clear lower upper
    induction wss generalizing u with
    | nil => exact ⟨[], rfl, by simp, hapart, by simp⟩
    | cons ws wss ihwss =>
      rw [List.flatten_cons, List.map_append] at hapart
      obtain ⟨y, z, rfl, hy, hz, hgap⟩ := hapart.of_append
      obtain ⟨us, hus, husapart, husedged⟩ :=
        ih ws (by simp) hy (List.IsInfix.trans ⟨[], z, rfl⟩ hu) hwhole hedged
      obtain ⟨wss', hlength, hcopies, hwsapart, hwsedged⟩ :=
        ihwss (fun us hus => copies us (by simp [hus])) (fun us hus => ih us (by simp [hus])) hz
          (List.IsInfix.trans ⟨y, [], by simp⟩ hu)
      refine ⟨us :: wss', by simp [hlength], List.forall_mem_cons.2 ⟨hus, hcopies⟩, ?_, ?_⟩
      · rw [List.flatten_cons, List.map_append]
        exact husapart.append hwsapart (List.forall_mem_map.2 husedged) hgap
      · rw [List.flatten_cons]
        exact List.forall_mem_append.2 ⟨husedged, hwsedged⟩
  | element uttered ih =>
    obtain ⟨ws, hws, hrest⟩ := ih hapart hu hwhole hedged
    exact ⟨ws, .element hws, hrest⟩

end Phraseology.Phrase
