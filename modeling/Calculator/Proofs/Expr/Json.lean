import Calculator.Expr.Json
import Calculator.Proofs.Number.Notation
import Calculator.Proofs.Text.Json

/-!
# Trees told apart by their text

The text of a tree names the kind of each node before its fields, so that the front of a text
tells the kind, then each field in turn, and at last where the text of the node ends. Numbers do
not tell where they end; but a number is the last field of its node, and the line ends with it.

## Main result

`json_determines_tree`: two trees have the same text only if they are the same tree.
-/

namespace Calculator

/-! ### Numbers on a line -/

/-- The text of an integer is read as the integer. -/
theorem integer?_integerText (n : Int) :
    Token.integer? ⟨.integer, integerText n, 1⟩ = some n := by
  have run : (Nat.toDigits 10 n.natAbs).all Token.isDigit = true :=
    List.all_eq_true.mpr fun _ => Token.isDigit_of_mem_toDigits
  have value := Token.digitsValue_toDigits n.natAbs
  have nonempty : Nat.toDigits 10 n.natAbs ≠ [] := Nat.toDigits_ne_nil
  by_cases negative : n < 0
  · simp [Token.integer?, integerText, negative, Decimal.readSign, run, value,
      abs_of_neg negative]
  · obtain ⟨first, rest, digits⟩ := List.exists_cons_of_ne_nil nonempty
    rw [digits] at run value
    have digit := List.all_eq_true.mp run first List.mem_cons_self
    simp [Token.integer?, integerText, negative, digits, Decimal.readSign_digit digit, run, value,
      abs_of_nonneg (not_lt.mp negative)]

theorem integerText_injective {m n : Int} (same : integerText m = integerText n) : m = n := by
  have read := integer?_integerText m
  rw [same, integer?_integerText n] at read
  exact (Option.some.inj read).symm

private theorem feed_notMem_integerText (n : Int) : '\n' ∉ (integerText n).toList := by
  intro member
  simp only [integerText, String.toList_ofList, List.mem_append] at member
  rcases member with sign | digit
  · split_ifs at sign <;> simp at sign
  · exact absurd (Token.isDigit_of_mem_toDigits digit) (by decide)

namespace Binary

private theorem feed_notMem_doubleText (x : Binary) : '\n' ∉ x.doubleText.toList := by
  cases x with
  | nan => decide
  | infinity negative => cases negative <;> decide
  | negativeZero => decide +kernel
  | number q =>
    intro member
    simp only [doubleText, write, String.toList_append, String.toList_ofList, List.mem_append]
      at member
    rcases member with sign | magnitude
    · split_ifs at sign <;> simp at sign
    · rcases Layout.mem_write magnitude with digit | mark
      · exact absurd digit (by decide)
      · exact absurd mark (by decide)

private theorem eq_of_doubleText_eq {x y : Binary} (left : Format.double.round x = x)
    (right : Format.double.round y = y) (same : x.doubleText = y.doubleText) : x = y := by
  have read := readDouble?_doubleText left
  rw [same, readDouble?_doubleText right] at read
  exact (Option.some.inj read).symm

end Binary

theorem Operator.name_injective {op op' : Operator} (same : op.name = op'.name) : op = op' := by
  cases op <;> cases op' <;> first | rfl | simp [name] at same

namespace Text

/-! ### Fields -/

private theorem fieldLine_append_inj {indent : Nat} {name v w : String} {r s : List Char} :
    fieldLine indent (name, v) ++ r = fieldLine indent (name, w) ++ s ↔
      v.toList ++ r = w.toList ++ s := by
  simp [fieldLine]

private theorem fieldsTail_cons_inj {indent : Nat} {name v w : String}
    {others others' : List (String × String)} {r s : List Char} :
    fieldsTail indent ((name, v) :: others) ++ r = fieldsTail indent ((name, w) :: others') ++ s ↔
      v.toList ++ (fieldsTail indent others ++ r)
        = w.toList ++ (fieldsTail indent others' ++ s) := by
  simp [fieldsTail, fieldLine]

private theorem fieldsTail_nil_inj {indent : Nat} {r s : List Char} :
    fieldsTail indent [] ++ r = fieldsTail indent [] ++ s ↔ r = s := by
  simp [fieldsTail]

private theorem line_append_inj {v w r s : List Char} (single : '\n' ∉ v) (single' : '\n' ∉ w)
    (same : v ++ '\n' :: r = w ++ '\n' :: s) : v = w ∧ r = s := by
  induction v generalizing w with
  | nil =>
    cases w with
    | nil => exact ⟨rfl, by simpa using same⟩
    | cons d w =>
      rw [List.nil_append, List.cons_append, List.cons.injEq] at same
      exact absurd (same.1 ▸ List.mem_cons_self) single'
  | cons c v ih =>
    cases w with
    | nil =>
      rw [List.nil_append, List.cons_append, List.cons.injEq] at same
      exact absurd (same.1 ▸ List.mem_cons_self) single
    | cons d w =>
      rw [List.cons_append, List.cons_append, List.cons.injEq] at same
      obtain ⟨equal, behind⟩ := ih (fun member => single (List.mem_cons_of_mem c member))
        (fun member => single' (List.mem_cons_of_mem d member)) same.2
      exact ⟨by rw [same.1, equal], behind⟩

/-- The value of the last field ends with its line. -/
private theorem last_field_inj {indent : Nat} {name v w : String} {r s : List Char}
    (single : '\n' ∉ v.toList) (single' : '\n' ∉ w.toList)
    (same : fieldsTail indent [(name, v)] ++ r = fieldsTail indent [(name, w)] ++ s) :
    v = w ∧ r = s := by
  have lines := fieldsTail_cons_inj.mp same
  simp only [fieldsTail, List.flatMap_nil, List.nil_append, List.cons_append] at lines
  obtain ⟨values, rest⟩ := line_append_inj single single' lines
  exact ⟨String.toList_inj.mp values, List.append_cancel_left rest⟩

end Text

namespace Expr

def EveryReal (P : Binary → Prop) : Expr → Prop
  | real x => P x
  | unary _ operand => operand.EveryReal P
  | binary _ left right => left.EveryReal P ∧ right.EveryReal P
  | _ => True

def HoldsDoubles (e : Expr) : Prop :=
  e.EveryReal fun x => Format.double.round x = x

/-- The fields of a node behind its kind. -/
def fieldsAt (indent : Nat) : Expr → List (String × String)
  | identifier name => [("name", Text.jsonString name)]
  | integer value => [("value", integerText value)]
  | real value => [("value", value.doubleText)]
  | unary op operand =>
    [("op", Text.jsonString op.name), ("operand", operand.jsonAt (indent + 2))]
  | binary op left right =>
    [("op", Text.jsonString op.name), ("left", left.jsonAt (indent + 2)),
      ("right", right.jsonAt (indent + 2))]
  | blank => []

theorem jsonAt_eq (indent : Nat) (e : Expr) :
    e.jsonAt indent
      = Text.jsonObject indent (("_type", Text.jsonString e.kindName) :: e.fieldsAt indent) := by
  cases e <;> rfl

/-- The text of a node: its kind, its fields, and the end of the object. -/
theorem toList_jsonAt (indent : Nat) (e : Expr) :
    (e.jsonAt indent).toList
      = '\x7b' :: '\n' :: (Text.fieldLine indent ("_type", Text.jsonString e.kindName)
        ++ Text.fieldsTail indent (e.fieldsAt indent)) := by
  rw [jsonAt_eq, Text.toList_jsonObject]

/-! ### From the front of a text -/

variable {a b : Expr} {indent : Nat} {r s : List Char}

private theorem kindName_of_same_text
    (same : (a.jsonAt indent).toList ++ r = (b.jsonAt indent).toList ++ s) :
    a.kindName = b.kindName ∧
      Text.fieldsTail indent (a.fieldsAt indent) ++ r
        = Text.fieldsTail indent (b.fieldsAt indent) ++ s := by
  simp only [toList_jsonAt, List.cons_append, List.append_assoc, List.cons.injEq, true_and,
    Text.fieldLine_append_inj] at same
  obtain ⟨kinds, fields⟩ := Text.selfDelimiting_jsonString same
  exact ⟨kinds, fields⟩

/-- The front of a text tells the tree that stands there and where its text ends. -/
theorem jsonAt_append_inj (left : a.HoldsDoubles) (right : b.HoldsDoubles)
    (same : (a.jsonAt indent).toList ++ r = (b.jsonAt indent).toList ++ s) : a = b ∧ r = s := by
  -- The induction is on one tree for any text behind it: a field ends where the next one begins,
  -- and what follows an operand is the rest of the node around it.
  induction a generalizing b indent r s with
  | identifier x =>
    obtain ⟨kind, fields⟩ := kindName_of_same_text same
    cases b with
    | identifier y =>
      obtain ⟨rfl, rest⟩ := Text.selfDelimiting_jsonString (Text.fieldsTail_cons_inj.mp fields)
      exact ⟨rfl, Text.fieldsTail_nil_inj.mp rest⟩
    | integer | real | unary | binary | blank => simp [kindName] at kind
  | integer m =>
    -- A number may go on with more digits, but its line ends behind it.
    obtain ⟨kind, fields⟩ := kindName_of_same_text same
    cases b with
    | integer n =>
      obtain ⟨value, rest⟩ := Text.last_field_inj (feed_notMem_integerText m)
        (feed_notMem_integerText n) fields
      exact ⟨congrArg integer (integerText_injective value), rest⟩
    | identifier | real | unary | binary | blank => simp [kindName] at kind
  | real x =>
    obtain ⟨kind, fields⟩ := kindName_of_same_text same
    cases b with
    | real y =>
      obtain ⟨value, rest⟩ := Text.last_field_inj x.feed_notMem_doubleText
        y.feed_notMem_doubleText fields
      exact ⟨congrArg real (Binary.eq_of_doubleText_eq left right value), rest⟩
    | identifier | integer | unary | binary | blank => simp [kindName] at kind
  | unary op operand ih =>
    obtain ⟨kind, fields⟩ := kindName_of_same_text same
    cases b with
    | unary op' operand' =>
      obtain ⟨name, behind⟩ := Text.selfDelimiting_jsonString (Text.fieldsTail_cons_inj.mp fields)
      obtain ⟨equal, close⟩ := ih (b := operand') left right (Text.fieldsTail_cons_inj.mp behind)
      exact ⟨by rw [Operator.name_injective name, equal], Text.fieldsTail_nil_inj.mp close⟩
    | identifier | integer | real | binary | blank => simp [kindName] at kind
  | binary op first second ihFirst ihSecond =>
    obtain ⟨kind, fields⟩ := kindName_of_same_text same
    cases b with
    | binary op' first' second' =>
      obtain ⟨name, behind⟩ := Text.selfDelimiting_jsonString (Text.fieldsTail_cons_inj.mp fields)
      obtain ⟨equal, last⟩ := ihFirst (b := first') left.1 right.1
        (Text.fieldsTail_cons_inj.mp behind)
      obtain ⟨equal', close⟩ := ihSecond (b := second') left.2 right.2
        (Text.fieldsTail_cons_inj.mp last)
      exact ⟨by rw [Operator.name_injective name, equal, equal'],
        Text.fieldsTail_nil_inj.mp close⟩
    | identifier | integer | real | unary | blank => simp [kindName] at kind
  | blank =>
    obtain ⟨kind, fields⟩ := kindName_of_same_text same
    cases b with
    | blank => exact ⟨rfl, Text.fieldsTail_nil_inj.mp fields⟩
    | identifier | integer | real | unary | binary => simp [kindName] at kind

end Expr

/-- Two trees have the same text only if they are the same tree. -/
theorem json_determines_tree {a b : Expr} (left : a.HoldsDoubles) (right : b.HoldsDoubles) :
    a.json = b.json ↔ a = b := by
  constructor
  · intro same
    have texts : (a.jsonAt 0).toList ++ [] = (b.jsonAt 0).toList ++ [] := by
      rw [← Expr.json, ← Expr.json, same]
    exact (Expr.jsonAt_append_inj left right texts).1
  · exact congrArg Expr.json

/-- Under a name with a quote, a backslash and a character beyond the first plane, the two zeros
have two texts. -/
theorem zeros_have_two_texts :
    Expr.HoldsDoubles (.binary .assign (.identifier "\"\\😀") (.real .negativeZero)) ∧
    Expr.HoldsDoubles (.binary .assign (.identifier "\"\\😀") (.real (.number 0))) ∧
    Expr.json (.binary .assign (.identifier "\"\\😀") (.real .negativeZero))
      ≠ Expr.json (.binary .assign (.identifier "\"\\😀") (.real (.number 0))) := by
  have negative :
      Expr.HoldsDoubles (.binary .assign (.identifier "\"\\😀") (.real .negativeZero)) :=
    ⟨trivial, rfl⟩
  have positive :
      Expr.HoldsDoubles (.binary .assign (.identifier "\"\\😀") (.real (.number 0))) :=
    ⟨trivial, Format.ofRat_zero Format.double⟩
  refine ⟨negative, positive, fun same => ?_⟩
  have equal := (json_determines_tree negative positive).mp same
  simp at equal

end Calculator
