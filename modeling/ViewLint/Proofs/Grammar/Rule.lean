import ViewLint.Grammar.Source
import ViewLint.Proofs.Grammar.Reader

/-!
# Rules keep to the tokens

The rules of the grammar are put together from readers in the ways that readers can be put together,
so for most of them nothing is left to show. What has a recursion of its own, or looks into what was
read, is treated by hand. The recursive rules refer to one another through a grammar; they keep to
the tokens if this grammar does, and so do the rules that are tied together, by induction on how
deep they nest.

## Main results

* `Grammar.aligned_grammar`: the rules that are tied together keep to the offsets of the tokens.
-/

namespace ViewLint.Grammar

open Reader
open Concrete (rangesOf OnCharacters)

variable {source : String} {left : List Concrete.Child} {g : Grammar}

/-! ### Readers treated by hand -/

instance (kind : String) (test : TokenClass → Bool) : Aligned source left (classAs kind test) :=
  Aligned.single fun _ => Token.Aligned.named kind

instance : Aligned source left interpolationQuote :=
  Aligned.single fun _ h => Concrete.onCharacters_leaf h.start h.stop

/-- The further parts of a mark move only its end. -/
theorem onCharacters_joined {parts ps : List String} {start stop : Nat} {ts rest : List Token}
    {xs : List Concrete.Child} (hstart : String.Pos.Raw.IsValid source ⟨start⟩)
    (hstop : String.Pos.Raw.IsValid source ⟨stop⟩) (hts : ∀ t ∈ ts, Token.Aligned source t)
    (h : joined.loop parts start stop ps ts = some (xs, rest)) :
    OnCharacters source (rangesOf xs) ∧ ∀ t ∈ rest, Token.Aligned source t := by
  fun_induction joined.loop parts start stop ps ts with
  | case1 stop ts =>
    cases h
    rw [Concrete.rangesOf_singleton]
    exact ⟨Concrete.onCharacters_leaf hstart hstop, hts⟩
  | case2 stop p ps t rest' htest ih =>
    obtain ⟨ht, hrest⟩ := List.forall_mem_cons.mp hts
    exact ih ht.stop hrest h
  | case3 => cases h
  | case4 => cases h

instance (parts : List String) : Aligned source left (joined parts) where
  read {ts xs rest} _ hts h := by
    cases ts with
    | nil => cases h
    | cons t ts =>
      obtain ⟨ht, hrest⟩ := List.forall_mem_cons.mp hts
      rw [joined] at h
      split at h
      next => exact onCharacters_joined ht.start ht.stop hrest h
      next => cases h

instance (depth : Nat) : Aligned source left (tuplePattern depth) := by
  induction depth with
  | zero => exact inferInstanceAs (Aligned source left refuse)
  | succ depth ih =>
    unfold tuplePattern
    infer_instance

instance (depth : Nat) : Aligned source left (symbolCondition depth) := by
  induction depth generalizing left with
  | zero => exact inferInstanceAs (Aligned source left refuse)
  | succ depth ih =>
    unfold symbolCondition
    infer_instance

instance (content : Reader) [∀ left, Aligned source left content] (depth : Nat) :
    Aligned source left (alternativePart content depth) := by
  induction depth with
  | zero => exact inferInstanceAs (Aligned source left refuse)
  | succ depth ih =>
    unfold alternativePart
    infer_instance

instance (content : Reader) [∀ left, Aligned source left content] :
    Aligned source left (conditionalPart content) := by
  unfold conditionalPart
  infer_instance

theorem mem_of_mem_hiddenSemicolon {stop : Nat} {ts : List Token} {t : Token}
    (h : t ∈ hiddenSemicolon stop ts) : t ∈ ts := by
  cases ts with
  | nil => exact h
  | cons first rest =>
    rw [hiddenSemicolon] at h
    split at h
    next => exact List.mem_cons_of_mem first h
    next => exact h

instance (p : Reader) [hp : Aligned source left p] : Aligned source left (endedByBrace p) where
  read hleft hts h := by
    rw [endedByBrace] at h
    split at h
    next xs rest heq =>
      cases h
      obtain ⟨hxs, hrest⟩ := hp.read hleft hts heq
      exact ⟨hxs, fun t ht => hrest t (mem_of_mem_hiddenSemicolon ht)⟩
    next => cases h

section

variable [∀ left rule, Aligned source left (g rule)]

/-! ### Names and types -/

instance : Aligned source left (simpleName g) := by
  unfold simpleName typeArguments
  infer_instance

instance : Aligned source left (aliasedName g) := by
  unfold aliasedName
  infer_instance

instance : Aligned source left (name g) := by
  unfold name
  infer_instance

instance : Aligned source left (plainType g) := by
  unfold plainType predefinedType implicitType tupleType tupleElement
  infer_instance

instance : Aligned source left (typeMark left) := by
  unfold typeMark emptyRank
  infer_instance

instance : Aligned source left (type g) := by
  unfold type
  infer_instance

instance (startsOperand : List Token → Bool) :
    Aligned source left (operandType g startsOperand) := by
  unfold operandType
  infer_instance

instance : Aligned source left (elementType g) := by
  unfold elementType
  infer_instance

instance : Aligned source left (typeParameters g) := by
  unfold typeParameters typeParameter
  infer_instance

instance : Aligned source left (constraints g) := by
  unfold constraints constraint
  infer_instance

/-! ### Expressions -/

instance : Aligned source left (nameExpression g) := by
  unfold nameExpression typeArguments
  infer_instance

instance : Aligned source left (argument g) := by
  unfold argument declarationExpression
  infer_instance

instance : Aligned source left (bracketedArguments g) := by
  unfold bracketedArguments
  infer_instance

instance : Aligned source left (anonymousFunction g) := by
  unfold anonymousFunction lambdaParameters
  infer_instance

instance : Aligned source left (newArrayType g) := by
  unfold newArrayType sizedRank emptyRank
  infer_instance

instance : Aligned source left (creation g) := by
  unfold creation anonymousMember
  infer_instance

instance : Aligned source left (collection g) := by
  unfold collection collectionElement
  infer_instance

instance : Aligned source left (interpolatedString g) := by
  unfold interpolatedString interpolation
  infer_instance

instance : Aligned source left (query g) := by
  unfold query queryClause
  infer_instance

/-- Without the node of the argument, its expression stands at the same offsets. -/
theorem rangesOf_unwrapped (paren : Concrete.Child) (f f' f'' : Option String) (kind : String)
    (named : Bool) (inner : Concrete) :
    rangesOf [paren, (f, .node kind named [(f', inner)])] = rangesOf [paren, (f'', inner)] := by
  simp only [rangesOf, Concrete.ranges, List.append_nil]

instance : Aligned source left (parenthesizedEnd left) where
  read {ts xs rest} hleft hts h := by
    rw [parenthesizedEnd.eq_def] at h
    split at h
    next paren f kind named f' inner =>
      rw [rangesOf_unwrapped paren f f' none] at hleft
      exact Aligned.read hleft hts h
    next => cases h

instance : Aligned source left (parenthesized g) := by
  unfold parenthesized
  infer_instance

instance : Aligned source left (primary g) := by
  unfold primary literalWord ofType stackAllocation predefinedType
  infer_instance

instance : Aligned source left (postfixMark g left) := by
  unfold postfixMark memberAccess elementBinding
  infer_instance

instance : Aligned source left (bracedMark g left) := by
  unfold bracedMark switchArm withInitializer
  infer_instance

instance : Aligned source left (typeTest g left) := by
  unfold typeTest
  infer_instance

instance : Aligned source left (unary g) := by
  unfold unary
  infer_instance

instance (operator : Nat × Bool × List (List String)) :
    Aligned source left (operatorMark g left operator) := by
  obtain ⟨strength, right, marks⟩ := operator
  have hmarks : Aligned source left (choice (marks.map joined)) := by
    refine Aligned.choice fun p hp => ?_
    obtain ⟨parts, -, rfl⟩ := List.mem_map.mp hp
    infer_instance
  unfold operatorMark
  infer_instance

instance (strength : Nat) : Aligned source left (binaryMark g strength left) := by
  have hoperators : Aligned source left (choice
      ((binaryOperators.filter fun o => strength ≤ o.1).map (operatorMark g left))) := by
    refine Aligned.choice fun p hp => ?_
    obtain ⟨o, -, rfl⟩ := List.mem_map.mp hp
    infer_instance
  unfold binaryMark
  infer_instance

instance (strength : Nat) : Aligned source left (binary g strength) := by
  unfold binary
  infer_instance

instance : Aligned source left assignmentOperator := by
  unfold assignmentOperator
  infer_instance

instance : Aligned source left (expression g) := by
  unfold expression conditionalTail assignmentTail
  infer_instance

instance : Aligned source left (argumentList g) := by
  unfold argumentList
  infer_instance

instance : Aligned source left (initializer g) := by
  unfold initializer
  infer_instance

/-! ### Patterns -/

instance : Aligned source left designation := by
  unfold designation
  infer_instance

instance : Aligned source left (recursivePattern g) := by
  unfold recursivePattern positionalClause propertyClause subpattern
  infer_instance

instance : Aligned source left (plainPattern g) := by
  unfold plainPattern tupleDesignation parenthesizedPattern
  infer_instance

instance : Aligned source left (pattern g) := by
  unfold pattern patternChain
  infer_instance

/-! ### Statements -/

instance : Aligned source left (singleAttribute g) := by
  unfold singleAttribute attributeArgument
  infer_instance

instance : Aligned source left (attributeList g) := by
  unfold attributeList attributeTarget
  infer_instance

instance : Aligned source left modifiers := by
  unfold modifiers modifier
  infer_instance

instance : Aligned source left (anyParameter g) := by
  unfold anyParameter parameterArray parameter parameterModifier
  infer_instance

instance : Aligned source left (parameterList g) := by
  unfold parameterList
  infer_instance

instance : Aligned source left (bracketedParameters g) := by
  unfold bracketedParameters
  infer_instance

instance : Aligned source left (block g) := by
  unfold block
  infer_instance

instance : Aligned source left (arrowClause g) := by
  unfold arrowClause
  infer_instance

instance : Aligned source left (functionBody g) := by
  unfold functionBody
  infer_instance

instance : Aligned source left (variableDeclaration g) := by
  unfold variableDeclaration variableDeclarator variableName
  infer_instance

instance : Aligned source left (statementExpression g) := by
  unfold statementExpression
  infer_instance

instance : Aligned source left (localFunction g) := by
  unfold localFunction
  infer_instance

instance : Aligned source left (jumpStatement g) := by
  unfold jumpStatement
  infer_instance

instance : Aligned source left (loopStatement g) := by
  unfold loopStatement condition forStatement foreachStatement
  infer_instance

instance : Aligned source left (tryStatement g) := by
  unfold tryStatement catchClause
  infer_instance

instance : Aligned source left (switchStatement g) := by
  unfold switchStatement switchSection
  infer_instance

instance : Aligned source left (keywordStatement g) := by
  unfold keywordStatement condition
  infer_instance

instance : Aligned source left (statement g) := by
  unfold statement localDeclaration
  infer_instance

/-! ### Declarations -/

instance : Aligned source left (declarationHead g) := by
  unfold declarationHead
  infer_instance

instance : Aligned source left (declarationList g) := by
  unfold declarationList
  infer_instance

instance (kind : String) (keyword : Reader) [Aligned source left keyword] :
    Aligned source left (typeDeclaration g kind keyword) := by
  unfold typeDeclaration baseList constructedBase typeBody
  infer_instance

instance : Aligned source left (anyType g) := by
  unfold anyType enumDeclaration enumMember delegateDeclaration
  infer_instance

instance : Aligned source left (explicitInterface g) := by
  unfold explicitInterface
  infer_instance

instance : Aligned source left (accessorList g) := by
  unfold accessorList accessor
  infer_instance

instance : Aligned source left (eventDeclaration g) := by
  unfold eventDeclaration
  infer_instance

instance : Aligned source left (operatorDeclaration g) := by
  unfold operatorDeclaration overloadableOperator
  infer_instance

instance : Aligned source left (typedMember g) := by
  unfold typedMember indexerDeclaration methodDeclaration propertyDeclaration fieldDeclaration
  infer_instance

instance : Aligned source left (usingDirective g) := by
  unfold usingDirective
  infer_instance

instance : Aligned source left (namespaceDeclaration g) := by
  unfold namespaceDeclaration
  infer_instance

instance : Aligned source left (declaration g) := by
  unfold declaration conversionDeclaration constructorDeclaration destructorDeclaration
  infer_instance

/-! ### Items of a source -/

instance : Aligned source left (topLevelDeclaration g) := by
  unfold topLevelDeclaration globalAttribute fileNamespace
  infer_instance

instance : Aligned source left (topLevelItem g) := by
  unfold topLevelItem
  infer_instance

end

/-- The rules keep to the tokens, however deep they nest. -/
instance aligned_grammar (depth : Nat) (left : List Concrete.Child) (rule : Rule) :
    Aligned source left (grammar depth rule) := by
  induction depth generalizing left rule with
  | zero => exact inferInstanceAs (Aligned source left refuse)
  | succ depth ih =>
    unfold grammar
    cases rule <;> infer_instance

end ViewLint.Grammar
