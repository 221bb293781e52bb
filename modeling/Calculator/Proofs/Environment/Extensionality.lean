import Calculator.Environment
import Mathlib.Data.List.Perm.Basic

/-!
# Environments by their numbers

An environment holds no more than the number of each variable: the order of its bindings is that
of their names. Two environments that agree on all variables are therefore equal, and assignments
to different variables commute.
-/

namespace Calculator

/-- A binding in a sorted list is the first one of its name. -/
private theorem find?_eq_some_of_mem {bindings : List Binding} {binding : Binding}
    (sorted : bindings.Pairwise fun a b => a.1 < b.1) (member : binding ∈ bindings) :
    bindings.find? (fun other => other.1 == binding.1) = some binding := by
  induction bindings with
  | nil => simp at member
  | cons first rest ih =>
    obtain ⟨above, tail⟩ := List.pairwise_cons.mp sorted
    rcases List.mem_cons.mp member with rfl | later
    · simp
    · -- Every later name is greater than the first one.
      have different : first.1 ≠ binding.1 := fun equal =>
        String.lt_irrefl _ (equal ▸ above binding later)
      simpa [List.find?_cons, different] using ih tail later

namespace Environment

variable {a b env : Environment} {x y : String} {v w : Number}

theorem mem_bindings_iff : (x, v) ∈ env.bindings ↔ env.lookup x = some v := by
  simp only [lookup, Option.map_eq_some_iff]
  constructor
  · intro member
    exact ⟨(x, v), find?_eq_some_of_mem env.sorted member, rfl⟩
  · rintro ⟨⟨name, value⟩, found, rfl⟩
    have name_eq : name = x := by simpa using List.find?_some found
    exact name_eq ▸ List.mem_of_find?_eq_some found

theorem nodup_bindings (env : Environment) : env.bindings.Nodup := by
  apply env.sorted.imp
  rintro binding _ less rfl
  exact String.lt_irrefl _ less

/-- Environments with the same numbers are equal. -/
theorem eq_of_lookup_eq (same : ∀ name, a.lookup name = b.lookup name) : a = b := by
  have members : ∀ binding, binding ∈ a.bindings ↔ binding ∈ b.bindings := by
    rintro ⟨name, value⟩
    rw [mem_bindings_iff, mem_bindings_iff, same]
  have bindings : a.bindings = b.bindings := by
    refine List.Perm.eq_of_pairwise ?_ a.sorted b.sorted
      ((List.perm_ext_iff_of_nodup a.nodup_bindings b.nodup_bindings).mpr members)
    intro first second _ _ less greater
    exact absurd (String.lt_trans less greater) (String.lt_irrefl first.1)
  cases a
  cases b
  simpa using bindings

theorem assign_comm (different : x ≠ y) :
    (env.assign x v).assign y w = (env.assign y w).assign x v := by
  apply eq_of_lookup_eq
  intro name
  by_cases first : name = x
  · subst first
    simp [lookup_assign_of_ne _ _ different]
  · by_cases second : name = y
    · subst second
      simp [lookup_assign_of_ne _ _ first]
    · simp only [lookup_assign_of_ne _ _ first, lookup_assign_of_ne _ _ second]

end Environment

end Calculator
