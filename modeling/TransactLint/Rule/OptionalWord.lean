import TransactLint.Gap
import TransactLint.Node.Walk

/-!
# Words that may be left out

An alias should follow `AS`, and a join should spell out its kind: `JOIN` alone means `INNER JOIN`,
and `LEFT JOIN` means `LEFT OUTER JOIN`. The tree keeps the meaning only, so the words are looked for
in the gap between what is named and its alias, or between the joined tables. In `alias = expr` the
alias comes first, and there is no such gap.
-/

namespace TransactLint

/-! ## Aliases -/

namespace Node

/-- The span of a selected expression and its alias. -/
def columnAlias? : Node → Option (Span × Ident)
  | .selectElement ⟨.expression e (some aliasName), _⟩ => some (e.span, aliasName)
  | _ => none

/-- The span of a table or derived table and its alias. The gap of a derived table begins after the
query, so it holds the closing parenthesis. -/
def tableAlias? : Node → Option (Span × Ident)
  | .tableSource ⟨.named name (some aliasName) _, _⟩ => some (name.span, aliasName)
  | .tableSource ⟨.derived q (some aliasName) _, _⟩ => some (q.span, aliasName)
  | _ => none

end Node

/-- The places of the aliases, as `aliased?` finds them, that have a gap before them without `AS`. -/
def Document.bareAliases (aliased? : Node → Option (Span × Ident)) (d : Document) : List Location :=
  d.nodes.filterMap fun n =>
    (aliased? n).bind fun (named, aliasName) =>
      if keywordBetween? d.tokens named aliasName.span .AS = some false then
        some aliasName.span.start
      else none

/-! ## Joins -/

/-- The word that a join should spell out. -/
def QualifiedJoin.explicitWord : QualifiedJoin → Keyword
  | .inner => .INNER
  | .leftOuter | .rightOuter | .fullOuter => .OUTER

/-- Where a join that does not spell out its kind is reported: at the word `JOIN`. -/
def Node.bareJoin? (tokens : List Token) : Node → Option Location
  | .tableSource ⟨.qualifiedJoin join first second _, span⟩ =>
    (Gap.between? first.span second.span).bind fun gap =>
      if gap.contains (.keyword join.explicitWord) tokens then none
      else
        match gap.find? (.keyword .JOIN) tokens with
        | some token => some token.start
        | none => some span.start
  | _ => none

/-- The places of the joins that do not spell out their kind. -/
def Document.bareJoins (d : Document) : List Location :=
  d.nodes.filterMap (Node.bareJoin? d.tokens)

end TransactLint
