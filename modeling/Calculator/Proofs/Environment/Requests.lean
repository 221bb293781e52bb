import Calculator.Proofs.Environment.Extensionality
import Mathlib.Data.Finset.Card

/-!
# Environments by their requests

A session gives values to names, and it asks for the number of a name, whether a name has one, how
many names have one, and for all of them as a list or as a text. What an environment answers depends
on the assignments before the request alone, and among those to one name on the last: a value that
is no number is refused and leaves no trace, and neither does a question.

## Main result

`environments_answer_from_history`: every answer of every list of requests, from the requests before
it.
-/

namespace Calculator

inductive Request where
  | assign (name : String) (value : Value)
  | lookup (name : String)
  | contains (name : String)
  | size
  | bindings
  | text
  deriving DecidableEq, Repr

inductive Reply where
  | assigned
  | refused (error : BindingError)
  | number (found : Option Number)
  | membership (found : Bool)
  | size (count : Nat)
  | bindings (list : List Binding)
  | text (shown : String)
  deriving DecidableEq, Repr

namespace Environment

def answer (env : Environment) : Request → Reply × Environment
  | .assign name value =>
    match env.bind name value with
    | .ok after => (.assigned, after)
    | .error error => (.refused error, env)
  | .lookup name => (.number (env.lookup name), env)
  | .contains name => (.membership (env.contains name), env)
  | .size => (.size env.size, env)
  | .bindings => (.bindings env.bindings, env)
  | .text => (.text env.text, env)

def after (env : Environment) (requests : List Request) : Environment :=
  requests.foldl (fun env request => (env.answer request).2) env

def replies (env : Environment) : List Request → List Reply
  | [] => []
  | request :: rest => (env.answer request).1 :: (env.answer request).2.replies rest

end Environment

/-! ### The map that a history leaves -/

namespace Request

/-- The number that a request gives to a name. -/
def numberFor? (name : String) : Request → Option Number
  | assign other (.number value) => if other = name then some value else none
  | _ => none

/-- The name to which a request gives a number. -/
def assigned? : Request → Option String
  | assign name (.number _) => some name
  | _ => none

private theorem assigned?_eq_some_iff {request : Request} {name : String} :
    request.assigned? = some name ↔ (request.numberFor? name).isSome = true := by
  cases request with
  | assign other value =>
    cases value with
    | number v =>
      by_cases same : other = name <;> simp [assigned?, numberFor?, same]
    | unit => simp [assigned?, numberFor?]
  | lookup | contains | size | bindings | text => simp [assigned?, numberFor?]

end Request

/-- The number that a name was given last. -/
def lastNumber (name : String) (past : List Request) : Option Number :=
  (past.filterMap (Request.numberFor? name)).getLast?

def assignedNames (past : List Request) : Finset String :=
  (past.filterMap Request.assigned?).toFinset

private theorem lastNumber_concat (name : String) (past : List Request) (request : Request) :
    lastNumber name (past ++ [request]) = (request.numberFor? name).or (lastNumber name past) := by
  unfold lastNumber
  rw [List.filterMap_append, List.getLast?_append]
  cases given : request.numberFor? name <;> simp [given]

private theorem mem_assignedNames_iff {name : String} {past : List Request} :
    name ∈ assignedNames past ↔ ∃ value, lastNumber name past = some value := by
  rw [assignedNames, lastNumber, ← Option.isSome_iff_exists, List.getLast?_isSome, ne_eq,
    List.filterMap_eq_nil_iff, List.mem_toFinset, List.mem_filterMap]
  simp only [Request.assigned?_eq_some_iff, Option.isSome_iff_ne_none, not_forall, exists_prop]

def codePoints (name : String) : List Nat :=
  name.toList.map Char.toNat

theorem codePoints_lt_iff {a b : String} : codePoints a < codePoints b ↔ a < b := by
  rw [String.lt_iff, codePoints, codePoints]
  generalize a.toList = xs
  generalize b.toList = ys
  induction xs generalizing ys with
  | nil => cases ys <;> simp
  | cons x xs ih =>
    cases ys with
    | nil => simp
    | cons y ys =>
      have order : x.toNat < y.toNat ↔ x < y := Iff.rfl
      simp only [List.map_cons, List.cons_lt_cons_iff, ih, order, Char.toNat_inj]

/-- A list of the names that were given a number, each once and by its code points, with the number
that it was given last. -/
structure Lists (past : List Request) (list : List Binding) : Prop where
  increasing : list.Pairwise fun a b => codePoints a.1 < codePoints b.1
  mem_iff : ∀ name value, (name, value) ∈ list ↔ lastNumber name past = some value

/-- The answer to a request after a history. -/
inductive Answers (past : List Request) : Request → Reply → Prop
  | assigned (name : String) (value : Number) :
      Answers past (.assign name (.number value)) .assigned
  | refused (name : String) : Answers past (.assign name .unit) (.refused ⟨name⟩)
  | number (name : String) : Answers past (.lookup name) (.number (lastNumber name past))
  | membership (name : String) :
      Answers past (.contains name) (.membership (decide (name ∈ assignedNames past)))
  | size : Answers past .size (.size (assignedNames past).card)
  | bindings {list : List Binding} (lists : Lists past list) :
      Answers past .bindings (.bindings list)
  | text {list : List Binding} (lists : Lists past list) :
      Answers past .text (.text ("Environment(" ++
        ", ".intercalate (list.map fun binding => binding.1 ++ "=" ++ binding.2.text) ++ ")"))

/-! ### What one request does -/

namespace Environment

variable {env : Environment} {past : List Request}

theorem lookup_answer (env : Environment) (request : Request) (name : String) :
    (env.answer request).2.lookup name = (request.numberFor? name).or (env.lookup name) := by
  cases request with
  | assign other value =>
    cases value with
    | number v =>
      by_cases same : other = name
      · subst same
        simp [answer, bind, Request.numberFor?]
      · simp [answer, bind, Request.numberFor?, same, lookup_assign_of_ne _ _ (Ne.symm same)]
    | unit => rfl
  | lookup | contains | size | bindings | text => rfl

/-- The numbers of an environment are those that a history gave last. -/
def Follows (env : Environment) (past : List Request) : Prop :=
  ∀ name, env.lookup name = lastNumber name past

namespace Follows

theorem step (follows : env.Follows past) (request : Request) :
    (env.answer request).2.Follows (past ++ [request]) := by
  intro name
  rw [lookup_answer, follows name, lastNumber_concat]

private theorem lists (follows : env.Follows past) : Lists past env.bindings where
  increasing := env.sorted.imp codePoints_lt_iff.mpr
  mem_iff name value := by rw [mem_bindings_iff, follows name]

private theorem contains_eq (follows : env.Follows past) (name : String) :
    env.contains name = decide (name ∈ assignedNames past) := by
  rw [contains, follows name, Bool.eq_iff_iff, Option.isSome_iff_exists, decide_eq_true_iff,
    mem_assignedNames_iff]

private theorem size_eq (follows : env.Follows past) : env.size = (assignedNames past).card := by
  -- The list has one binding for each name, so its length counts the names.
  have nodup : (env.bindings.map (·.1)).Nodup := by
    refine List.pairwise_map.mpr (env.sorted.imp ?_)
    rintro first second less
    exact String.ne_of_lt less
  have names : (env.bindings.map (·.1)).toFinset = assignedNames past := by
    ext name
    simp only [List.mem_toFinset, List.mem_map, Prod.exists, exists_and_right, exists_eq_right,
      mem_bindings_iff, follows name, mem_assignedNames_iff]
  rw [← names, List.toFinset_card_of_nodup nodup, List.length_map, size]

/-- One request is answered from the history alone. -/
theorem answers (follows : env.Follows past) (request : Request) :
    Answers past request (env.answer request).1 := by
  cases request with
  | assign name value =>
    cases value with
    | number v => exact .assigned name v
    | unit => exact .refused name
  | lookup name =>
    rw [answer, follows name]
    exact .number name
  | contains name =>
    rw [answer, follows.contains_eq]
    exact .membership name
  | size =>
    rw [answer, follows.size_eq]
    exact .size
  | bindings => exact .bindings follows.lists
  | text => exact .text follows.lists

end Follows

/-! ### What a list of requests does -/

private theorem after_concat (env : Environment) (past : List Request) (request : Request) :
    env.after (past ++ [request]) = ((env.after past).answer request).2 := by
  simp only [after, List.foldl_append, List.foldl_cons, List.foldl_nil]

/-- The induction is on the requests from the last one, as the last assignment counts. -/
theorem follows_after (past : List Request) : (empty.after past).Follows past := by
  induction past using List.reverseRecOn with
  | nil => exact fun _ => rfl
  | append_singleton past request ih =>
    rw [after_concat]
    exact ih.step request

theorem replies_append (env : Environment) (past rest : List Request) :
    env.replies (past ++ rest) = env.replies past ++ (env.after past).replies rest := by
  induction past generalizing env with
  | nil => rfl
  | cons request past ih =>
    simp only [List.cons_append, replies, ih]
    rfl

theorem length_replies (env : Environment) (requests : List Request) :
    (env.replies requests).length = requests.length := by
  induction requests generalizing env with
  | nil => rfl
  | cons request rest ih => simp only [replies, List.length_cons, ih]

/-- The answer to a request among others is the one after those before it. -/
theorem getElem?_replies (past rest : List Request) (request : Request) :
    (env.replies (past ++ request :: rest))[past.length]? =
      some ((env.after past).answer request).1 := by
  rw [replies_append, List.getElem?_append_right (length_replies env past).le,
    length_replies, Nat.sub_self]
  rfl

end Environment

/-- Each of the answers of an environment is the one that the requests before it determine. A
refused assignment changes nothing, and histories that leave every name the same number leave the
same list and the same text. -/
theorem environments_answer_from_history :
    (∀ past request rest, ∃ reply,
      (Environment.empty.replies (past ++ request :: rest))[past.length]? = some reply ∧
      Answers past request reply) ∧
    (∀ past name, ((Environment.empty.after past).answer (.assign name .unit)).2 =
      Environment.empty.after past) ∧
    ∀ past other, (∀ name, lastNumber name past = lastNumber name other) →
      (Environment.empty.after past).bindings = (Environment.empty.after other).bindings ∧
      (Environment.empty.after past).text = (Environment.empty.after other).text := by
  refine ⟨fun past request rest => ?_, fun past name => rfl, fun past other same => ?_⟩
  · exact ⟨_, Environment.getElem?_replies past rest request,
      (Environment.follows_after past).answers request⟩
  · have equal : Environment.empty.after past = Environment.empty.after other := by
      apply Environment.eq_of_lookup_eq
      intro name
      rw [Environment.follows_after, Environment.follows_after, same]
    rw [equal]
    exact ⟨rfl, rfl⟩

/-- Assignments to two names, one of them made over again with a number of the other kind, and one
that is refused. -/
def overwritten : List Request :=
  [.assign "b" (.number (.integer 2)), .assign "a" (.number (.real (.number (1 / 2)))),
    .assign "b" .unit, .assign "a" (.number (.integer 1))]

example : Environment.empty.replies (overwritten ++ [.bindings, .size]) =
    [.assigned, .assigned, .refused ⟨"b"⟩, .assigned,
      .bindings [("a", .integer 1), ("b", .integer 2)], .size 2] := by
  decide

/-- The same two numbers, given in the other order. -/
theorem overwritten_is_listed_in_order :
    (∀ name, lastNumber name overwritten = lastNumber name
      [.assign "a" (.number (.integer 1)), .assign "b" (.number (.integer 2))]) ∧
    (Environment.empty.after overwritten).text = (Environment.empty.after
      [.assign "a" (.number (.integer 1)), .assign "b" (.number (.integer 2))]).text := by
  have same : ∀ name, lastNumber name overwritten = lastNumber name
      [.assign "a" (.number (.integer 1)), .assign "b" (.number (.integer 2))] := by
    intro name
    by_cases first : "a" = name
    · subst first
      decide
    · by_cases second : "b" = name
      · subst second
        decide
      · simp [lastNumber, overwritten, Request.numberFor?, first, second]
  exact ⟨same, (environments_answer_from_history.2.2 _ _ same).2⟩

end Calculator
