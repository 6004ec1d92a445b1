import Phraseology.Proofs.Recognizer

/-! The names of compiled grammars: no two of them are the same, and each tells the category of its
grammar. -/
namespace Phraseology

variable {e : Elements} {locale : String} {rules : RuleSet} {c c' : Category} {g : Grammar}

namespace RuleSet

def accepted (r : RuleSet) (c : Category) : List String := (r.templates c).filter c.accepts

@[simp] theorem templates_filtered (r : RuleSet) (c : Category) :
    r.filtered.templates c = r.accepted c := by
  cases c <;> rfl

@[simp] theorem filtered_filtered (r : RuleSet) : r.filtered.filtered = r.filtered := by
  simp [filtered, List.filter_filter]

end RuleSet

theorem Category.exists_code (hc : c ∈ commands) :
    ∃ code, c.code? = some code ∧ code.length = 3 := by
  cases c with
  | invalid => exact absurd hc (by decide)
  | _ => exact ⟨_, rfl, rfl⟩

namespace Grammar

theorem nameOf_eq {code : String} (h : c.code? = some code) (index : Nat) :
    nameOf c index = code ++ toString index := by
  rw [nameOf, h, Option.getD_some]

/-- A name is made of a category and an index in one way only. -/
theorem nameOf_inj (hc : c ∈ Category.commands) (hc' : c' ∈ Category.commands) {i j : Nat}
    (h : nameOf c i = nameOf c' j) : c = c' ∧ i = j := by
  obtain rfl : c = c' := by
    rw [← Category.ofGrammarName_nameOf hc i, h, Category.ofGrammarName_nameOf hc' j]
  obtain ⟨code, hcode, -⟩ := Category.exists_code hc
  rw [nameOf_eq hcode, nameOf_eq hcode, String.append_right_inj] at h
  exact ⟨rfl, Nat.repr_injective h⟩

end Grammar

namespace GrammarSet

/-- The grammars of one category, in the order of its accepted templates. -/
def ofCategory (e : Elements) (locale : String) (rules : RuleSet) (c : Category) : List Grammar :=
  (rules.accepted c).mapIdx fun i t => Grammar.compile e locale c t i

theorem grammars_compile (e : Elements) (locale : String) (rules : RuleSet) :
    (compile e locale rules).grammars = Category.commands.flatMap (ofCategory e locale rules) := by
  simp only [compile, RuleSet.templates_filtered]
  rfl

theorem map_name_ofCategory (e : Elements) (locale : String) (rules : RuleSet) (c : Category) :
    (ofCategory e locale rules c).map Grammar.name =
      (List.range (rules.accepted c).length).map (Grammar.nameOf c) := by
  refine List.ext_getElem (by simp [ofCategory]) fun i hi hi' => ?_
  simp [ofCategory, Grammar.compile]

theorem nodup_names (e : Elements) (locale : String) (rules : RuleSet) :
    ((compile e locale rules).grammars.map Grammar.name).Nodup := by
  rw [grammars_compile, List.map_flatMap, List.nodup_flatMap]
  simp only [map_name_ofCategory]
  constructor
  · intro c hc
    exact List.nodup_range.map_on fun i _ j _ h => (Grammar.nameOf_inj hc hc h).2
  · refine (by decide : Category.commands.Nodup).pairwise_of_forall_ne fun c hc c' hc' hne => ?_
    intro name hname hname'
    obtain ⟨i, -, rfl⟩ := List.mem_map.1 hname
    obtain ⟨j, -, h⟩ := List.mem_map.1 hname'
    exact hne (Grammar.nameOf_inj hc hc' h.symm).1

/-- The name of a grammar leads back to it. -/
theorem get?_name (hg : g ∈ (compile e locale rules).grammars) :
    (compile e locale rules).get? g.name = some g := by
  obtain ⟨h, hfound⟩ : ∃ h, (compile e locale rules).get? g.name = some h :=
    Option.isSome_iff_exists.1 (List.find?_isSome.2 ⟨g, hg, beq_self_eq_true g.name⟩)
  have hname : h.name = g.name := by simpa using List.find?_some hfound
  rw [hfound, List.inj_on_of_nodup_map (nodup_names e locale rules)
    (List.mem_of_find?_eq_some hfound) hg hname]

/-- The category of a grammar can be read off its name. -/
theorem ofGrammarName_name (hg : g ∈ (compile e locale rules).grammars) :
    Category.ofGrammarName g.name = g.category ∧ g.category ∈ Category.commands := by
  obtain ⟨c, hc, t, i, rfl⟩ := mem_compile hg
  exact ⟨Category.ofGrammarName_nameOf hc i, hc⟩

@[simp] theorem compile_filtered (e : Elements) (locale : String) (rules : RuleSet) :
    compile e locale rules.filtered = compile e locale rules := by
  rw [compile, compile, RuleSet.filtered_filtered]

end GrammarSet

end Phraseology
