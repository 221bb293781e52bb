import Calculator.Proofs.Reading.Soundness

/-!
# The language of the reader

The reader accepts exactly the language of the grammar and builds the trees that the grammar
assigns. Everything else it refuses with a fault of syntax.
-/

namespace Calculator

/-- The reader and the grammar agree on all lists of tokens with scanned literals. -/
theorem ofTokens_iff_grammar (tokens : List Token) (lexical : ∀ token ∈ tokens, token.IsLexical) :
    (Expr.ofTokens tokens = .ok none ↔ tokens = []) ∧
    (∀ e, Expr.ofTokens tokens = .ok (some e) ↔ Derives .assignment false tokens e) ∧
    (tokens ≠ [] → (∀ e, ¬Derives .assignment false tokens e) →
      ∃ error, Expr.ofTokens tokens = .error error ∧ error.IsSyntactic) := by
  refine ⟨ofTokens_eq_none_iff, fun e => ofTokens_eq_some_iff, fun nonempty underivable => ?_⟩
  rcases ofTokens_cases nonempty with ⟨e, _, derives⟩ | ⟨error, refused, syntactic⟩
  · exact absurd derives (underivable e)
  · exact ⟨error, refused, syntactic lexical⟩

/-- The tokens of `x = 2 ^ - 2147483648 ^ 3`. -/
def signedExponent : List Token :=
  [⟨.identifier, "x", 1⟩, ⟨.equals, "=", 3⟩, ⟨.integer, "2", 5⟩, ⟨.caret, "^", 7⟩, ⟨.minus, "-", 9⟩,
   ⟨.integer, "2147483648", 11⟩, ⟨.caret, "^", 22⟩, ⟨.integer, "3", 24⟩]

/-- A signed exponent takes the power that follows it, and its literal may have the magnitude
of the smallest integer. -/
theorem ofTokens_signedExponent :
    (∀ token ∈ signedExponent, token.IsLexical) ∧
    Expr.ofTokens signedExponent = .ok (some (.binary .assign (.identifier "x")
      (.binary .power (.integer 2)
        (.unary .negate (.binary .power (.integer 2147483648) (.integer 3)))))) := by
  have lexical : ∀ token ∈ signedExponent, token.IsLexical := by
    simp [signedExponent, Token.IsLexical, Token.isDigit]
  have two : Derives .chain false [⟨.integer, "2", 5⟩] (.integer 2) :=
    .ofAtom (.integer rfl (by decide +kernel) (by decide))
  have smallest : Derives .chain true [⟨.integer, "2147483648", 11⟩] (.integer 2147483648) :=
    .ofAtom (.integer rfl (by decide +kernel) (by decide))
  have cube : Derives .unary true
      ([⟨.integer, "2147483648", 11⟩] ++ ⟨.caret, "^", 22⟩ :: [⟨.integer, "3", 24⟩])
      (.binary .power (.integer 2147483648) (.integer 3)) :=
    .ofPower (.ofChain (.raise smallest rfl (.integer rfl (by decide +kernel) (by decide))))
  have power : Derives .power false
      ([⟨.integer, "2", 5⟩] ++ ⟨.caret, "^", 7⟩ :: ⟨.minus, "-", 9⟩ ::
        ([⟨.integer, "2147483648", 11⟩] ++ ⟨.caret, "^", 22⟩ :: [⟨.integer, "3", 24⟩]))
      (.binary .power (.integer 2)
        (.unary .negate (.binary .power (.integer 2147483648) (.integer 3)))) :=
    .raiseNegated two rfl rfl cube
  have target : Derives .sum false [⟨.identifier, "x", 1⟩] (.identifier "x") :=
    (Derives.name rfl).toSum (by decide)
  exact ⟨lexical, ((ofTokens_iff_grammar signedExponent lexical).2.1 _).mpr
    (.assignment target rfl power.toAssignment)⟩

end Calculator
