import Calculator.Number
import Calculator.Text.Quoted

/-!
# Environments

The variables of a session with their numbers, ordered by name. Variables are added and
overwritten, never removed. The order is part of the type, so that two environments with
the same variables are equal.
-/

namespace Calculator

abbrev Binding := String × Number

/-- Puts a binding in its place, over the binding of the same name. -/
def insertBinding (name : String) (value : Number) : List Binding → List Binding
  | [] => [(name, value)]
  | (other, previous) :: rest =>
    if name < other then (name, value) :: (other, previous) :: rest
    else if name = other then (name, value) :: rest
    else (other, previous) :: insertBinding name value rest

private theorem mem_insertBinding {name : String} {value : Number} {bindings : List Binding}
    {binding : Binding} (member : binding ∈ insertBinding name value bindings) :
    binding = (name, value) ∨ binding ∈ bindings := by
  induction bindings with
  | nil => simpa [insertBinding] using member
  | cons first rest ih =>
    obtain ⟨other, previous⟩ := first
    unfold insertBinding at member
    split at member
    · simpa using member
    · split at member
      · rcases List.mem_cons.mp member with equal | later
        · exact Or.inl equal
        · exact Or.inr (List.mem_cons_of_mem _ later)
      · rcases List.mem_cons.mp member with equal | later
        · exact Or.inr (equal ▸ List.mem_cons_self)
        · exact (ih later).imp id (List.mem_cons_of_mem _)

/-- Bindings stay in order when one is put in its place. -/
theorem pairwise_insertBinding (name : String) (value : Number) {bindings : List Binding}
    (sorted : bindings.Pairwise fun a b => a.1 < b.1) :
    (insertBinding name value bindings).Pairwise fun a b => a.1 < b.1 := by
  induction bindings with
  | nil => simp [insertBinding]
  | cons first rest ih =>
    obtain ⟨other, previous⟩ := first
    have above := (List.pairwise_cons.mp sorted).1
    have tail := (List.pairwise_cons.mp sorted).2
    unfold insertBinding
    split
    · next less =>
      refine List.pairwise_cons.mpr ⟨fun binding member => ?_, sorted⟩
      rcases List.mem_cons.mp member with rfl | later
      · exact less
      · exact String.lt_trans less (above binding later)
    · next notLess =>
      split
      · next equal => exact equal ▸ List.pairwise_cons.mpr ⟨above, tail⟩
      · -- The order of names is total: a name that is neither less nor equal is greater.
        next different =>
        refine List.pairwise_cons.mpr ⟨fun binding member => ?_, ih tail⟩
        rcases mem_insertBinding member with rfl | later
        · refine Decidable.byContradiction fun notGreater => different ?_
          exact String.le_antisymm (String.not_lt.mp notGreater) (String.not_lt.mp notLess)
        · exact above binding later

private theorem find?_insertBinding_self (name : String) (value : Number)
    (bindings : List Binding) :
    (insertBinding name value bindings).find? (fun binding => binding.1 == name)
      = some (name, value) := by
  induction bindings with
  | nil => simp [insertBinding]
  | cons first rest ih =>
    obtain ⟨other, previous⟩ := first
    unfold insertBinding
    split
    · simp
    · split
      · simp
      · next different => simpa [Ne.symm different] using ih

private theorem find?_insertBinding_of_ne {name sought : String} (value : Number)
    (different : sought ≠ name) (bindings : List Binding) :
    (insertBinding name value bindings).find? (fun binding => binding.1 == sought)
      = bindings.find? (fun binding => binding.1 == sought) := by
  induction bindings with
  | nil => simp [insertBinding, Ne.symm different]
  | cons first rest ih =>
    obtain ⟨other, previous⟩ := first
    unfold insertBinding
    split
    · simp [Ne.symm different]
    · split
      · next equal => simp [← equal, Ne.symm different]
      · simp only [List.find?_cons, ih]

/-- The variables of a session. -/
structure Environment where
  bindings : List Binding
  sorted : bindings.Pairwise fun a b => a.1 < b.1
  deriving DecidableEq

/-- A value that is no number was to be bound to a name. -/
structure BindingError where
  name : String
  deriving DecidableEq, Repr

def BindingError.message (error : BindingError) : String :=
  "Cannot bind " ++ Text.quoted error.name ++ " to non-numeric value Unit()"

namespace Environment

def empty : Environment :=
  ⟨[], List.Pairwise.nil⟩

def lookup (env : Environment) (name : String) : Option Number :=
  (env.bindings.find? fun binding => binding.1 == name).map (·.2)

def assign (env : Environment) (name : String) (value : Number) : Environment :=
  ⟨insertBinding name value env.bindings, pairwise_insertBinding name value env.sorted⟩

/-- Gives a variable a value, which has to be a number. -/
def bind (env : Environment) (name : String) : Value → Except BindingError Environment
  | .number value => .ok (env.assign name value)
  | .unit => .error ⟨name⟩

def contains (env : Environment) (name : String) : Bool :=
  (env.lookup name).isSome

/-- A variable has the number that it was given last. -/
@[simp] theorem lookup_assign_self (env : Environment) (name : String) (value : Number) :
    (env.assign name value).lookup name = some value := by
  simp only [lookup, assign, find?_insertBinding_self, Option.map_some]

/-- Giving a variable a number leaves the others as they are. -/
theorem lookup_assign_of_ne (env : Environment) {name other : String} (value : Number)
    (different : other ≠ name) : (env.assign name value).lookup other = env.lookup other := by
  simp only [lookup, assign, find?_insertBinding_of_ne value different]

def size (env : Environment) : Nat :=
  env.bindings.length

/-- The variables with their numbers, in order. -/
def text (env : Environment) : String :=
  "Environment("
    ++ String.intercalate ", " (env.bindings.map fun binding => binding.1 ++ "=" ++ binding.2.text)
    ++ ")"

end Environment

end Calculator
