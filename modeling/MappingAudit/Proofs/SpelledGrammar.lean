/-
# Trees over all tokens of a file

Every rule of the grammar makes nodes over the tokens that it takes, and the rule of each
construct reads at least one node.  Rules refer to each other through the grammar, so they
are looked at with the assumption that the rules within do so; `Category.tie` then gives
the assumption for every depth of nesting.

Most rules are combinations of others and need no argument of their own.  The rules that
look at the nodes read so far do: parentheses that turn out to hold a tuple, operands
that an operator makes part of a larger expression, and semicolons.
-/

import MappingAudit.Proofs.SpelledNodes

namespace MappingAudit
namespace CSharp
namespace Grammar

open Rule

variable (g : Grammar) [hg : ∀ c, ReadsSome (g c)]

-- Rules with many alternatives are looked through in many steps.
set_option synthInstance.maxSize 1000

/-! ### Types -/

instance : ReadsSome (typeArguments g) := by
  unfold typeArguments
  infer_instance

instance : ReadsSome (typeSegment g) := by
  unfold typeSegment
  infer_instance

instance : ReadsSome (typePath g) := by
  unfold typePath
  infer_instance

instance : ReadsSome (bareType g) := by
  unfold bareType
  infer_instance

instance : ReadsSome rankSuffix := by
  unfold rankSuffix
  infer_instance

instance (optional : Bool) : ReadsSome (typeWith g optional) := by
  unfold typeWith
  infer_instance

instance : ReadsSome (dottedName g) := by
  unfold dottedName
  infer_instance

instance (attributes : Rule) [Reads attributes] : ReadsSome (typeParameters attributes) := by
  unfold typeParameters
  infer_instance

instance : ReadsSome (constraints.one g) := by
  unfold constraints.one
  infer_instance

instance : Reads (constraints g) := by
  unfold constraints
  infer_instance

instance : ReadsSome (simpleName g) := by
  unfold simpleName
  infer_instance

/-! ### Expressions -/

instance (n : Nat) : ReadsSome (declaredVariable.variableTuple n) := by
  induction n with
  | zero =>
    unfold declaredVariable.variableTuple
    infer_instance
  | succ n ih =>
    unfold declaredVariable.variableTuple
    infer_instance

instance : ReadsSome (declaredVariable g) := by
  unfold declaredVariable
  infer_instance

instance : ReadsSome (argument g) := by
  unfold argument
  infer_instance

instance : ReadsSome (argumentList g) := by
  unfold argumentList
  infer_instance

instance : ReadsSome (bracketedArguments g) := by
  unfold bracketedArguments
  infer_instance

instance : ReadsSome attributeList.anyWord := by
  unfold attributeList.anyWord
  infer_instance

instance : ReadsSome (attributeList.attributeArguments g) := by
  unfold attributeList.attributeArguments
  infer_instance

instance : ReadsSome (attributeList g) := by
  unfold attributeList
  infer_instance

instance : Reads (attributes g) := by
  unfold attributes
  infer_instance

instance : ReadsSome (parameter g) := by
  unfold parameter
  infer_instance

instance : ReadsSome (parameterList g) := by
  unfold parameterList
  infer_instance

instance : ReadsSome lambdaModifier := by
  unfold lambdaModifier
  infer_instance

instance : ReadsSome (lambda g) := by
  unfold lambda
  infer_instance

instance : ReadsSome (anonymousMethod g) := by
  unfold anonymousMethod
  infer_instance

instance (n : Nat) : ReadsSome (initializer g n) := by
  induction n with
  | zero =>
    unfold initializer
    infer_instance
  | succ n ih =>
    unfold initializer
    infer_instance

instance : ReadsSome (createdType g) := by
  unfold createdType
  infer_instance

instance : ReadsSome (creation.values g) := by
  unfold creation.values
  infer_instance

instance : ReadsSome (creation g) := by
  unfold creation
  infer_instance

instance : ReadsSome literal := by
  unfold literal
  infer_instance

instance : ReadsSome (interpolated g) := by
  unfold interpolated
  infer_instance

instance (lambdas : Bool) : ReadsSome (operandOf g lambdas) := by
  unfold operandOf
  infer_instance

instance (lambdas : Bool) : ReadsSome (cast g lambdas) := by
  unfold cast
  infer_instance

instance : ReadsSome (tupleItem g) := by
  unfold tupleItem
  infer_instance

instance : ReadsSome (tupleRest g) := by
  unfold tupleRest
  infer_instance

/-- Parentheses around an expression; a comma in place of the closing one makes the
expression the first item of a tuple. -/
instance : ReadsSome (parenthesized g) := by
  unfold parenthesized
  refine @readsSome_alt_cons _ _ inferInstance (@readsSome_alt_cons _ _ ?_ inferInstance)
  refine readsSome_of fun ts rest xs h => ?_
  obtain ⟨⟨opening, ts₁⟩, hopening, h₁⟩ := Option.bind_eq_some_iff.1 h
  obtain ⟨⟨inner, ts₂⟩, hinner, h₂⟩ := Option.bind_eq_some_iff.1 h₁
  obtain ⟨used₁, rfl, hspells₁⟩ := Reads.spells hopening
  obtain ⟨used₂, rfl, hspells₂⟩ := Reads.spells hinner
  have hne : opening ≠ [] := ReadsSome.ne_nil hopening
  simp only at h₂
  split at h₂
  · next closing ts₃ hclosing =>
    obtain ⟨rfl, rfl⟩ := Prod.mk.inj (Option.some.inj h₂)
    obtain ⟨used₃, rfl, hspells₃⟩ := Reads.spells hclosing
    refine ⟨List.cons_ne_nil _ _, used₁ ++ used₂ ++ used₃, by simp, ?_⟩
    exact .node (.append (.append hspells₁ hspells₂) hspells₃) (by simp [hne]) nofun nofun
  · obtain ⟨⟨items, ts₃⟩, hitems, h₃⟩ := Option.bind_eq_some_iff.1 h₂
    obtain ⟨rfl, rfl⟩ := Prod.mk.inj (Option.some.inj h₃)
    obtain ⟨used₃, rfl, hspells₃⟩ := Reads.spells hitems
    have hfirst : Spells [.wrap .argument inner] used₂ :=
      .node hspells₂ (ReadsSome.ne_nil hinner) nofun nofun
    refine ⟨List.cons_ne_nil _ _, used₁ ++ (used₂ ++ used₃), by simp, ?_⟩
    exact .node (.append hspells₁ (.append hfirst hspells₃)) (by simp) nofun nofun

instance : ReadsSome (keywordCall g) := by
  unfold keywordCall
  infer_instance

instance : ReadsSome (collection g) := by
  unfold collection
  infer_instance

instance : ReadsSome (primary g) := by
  unfold primary
  infer_instance

instance : ReadsSome (switchArms g) := by
  unfold switchArms
  infer_instance

/-- What is called stands before the arguments. -/
instance (n : Node) : Continues [n] (wrap .invocation n (argumentList g)) where
  spells hn h := by
    obtain ⟨ys, hys, rfl⟩ := node_eq_some (f := fun ys => [.wrap .invocation (n :: ys)]) h
    refine spells_wrap hn hys (List.cons_ne_nil _ _) nofun fun _ y hy => ?_
    obtain ⟨zs, -, rfl⟩ := node_eq_some (f := fun zs => [.wrap .argumentList zs]) hys
    obtain rfl := List.mem_singleton.1 hy
    rw [Node.kind_wrap]
    decide

instance (n : Node) : Continues [n] (postfixForm g n) := by
  unfold postfixForm
  infer_instance

instance (lambdas : Bool) : ReadsSome (operand g lambdas) := by
  unfold operand
  infer_instance

instance : ReadsSome assignmentOperator := by
  unfold assignmentOperator
  infer_instance

instance : ReadsSome binaryOperator := by
  unfold binaryOperator
  infer_instance

instance : ReadsSome (testedType g) := by
  unfold testedType
  infer_instance

instance (xs : List Node) : Continues xs (conditionalAccess g xs) where
  spells {before ts rest zs} hxs h := by
    obtain ⟨⟨ys, ts₁⟩, hys, hzs⟩ := Option.bind_eq_some_iff.1 h
    have hne : xs ++ ys ≠ [] :=
      List.append_ne_nil_of_right_ne_nil xs (ReadsSome.ne_nil hys)
    obtain ⟨used₁, rfl, haccess⟩ := spells_wrap (k := .conditionalAccess) hxs hys hne nofun nofun
    obtain ⟨used₂, rfl, hspells⟩ := continues_suffixes.spells haccess hzs
    exact ⟨used₁ ++ used₂, (List.append_assoc ..).symm, List.append_assoc before .. ▸ hspells⟩

instance (xs : List Node) : Continues xs (assignment g xs) where
  spells hxs h := by
    obtain ⟨ys, hys, rfl⟩ := node_eq_some (f := fun ys => [.wrap .assignment (xs ++ ys)]) h
    have hne : xs ++ ys ≠ [] :=
      List.append_ne_nil_of_right_ne_nil xs (ReadsSome.ne_nil hys)
    exact spells_wrap hxs hys hne nofun nofun

instance : ReadsSome (queryClause.fromClause g) := by
  unfold queryClause.fromClause
  infer_instance

instance : ReadsSome (queryClause g) := by
  unfold queryClause
  infer_instance

instance : ReadsSome (query g) := by
  unfold query
  infer_instance

instance (lambdas : Bool) : ReadsSome (continuation g lambdas) := by
  unfold continuation
  infer_instance

instance (xs : List Node) : Continues xs (expression.known xs) where
  spells {before _ _ _} hxs h := by
    obtain ⟨rfl, rfl⟩ := Prod.mk.inj (Option.some.inj h)
    exact ⟨[], rfl, (List.append_nil before).symm ▸ hxs⟩

/-- Several operands are put under one node. -/
instance (lambdas : Bool) : ReadsSome (expression g lambdas) := by
  refine readsSome_of fun ts rest zs h => ?_
  obtain ⟨⟨xs, ts₁⟩, hxs, h₁⟩ := Option.bind_eq_some_iff.1 h
  obtain ⟨⟨ys, ts₂⟩, hys, h₂⟩ := Option.bind_eq_some_iff.1 h₁
  obtain ⟨used₁, rfl, hspells₁⟩ := Reads.spells hxs
  obtain ⟨used₂, rfl, hspells₂⟩ := Continues.spells hspells₁ hys
  have hne : ys ≠ [] := by
    rw [Ne, hspells₂.nil_iff, List.append_eq_nil_iff, ← hspells₁.nil_iff]
    exact fun hnil => ReadsSome.ne_nil hxs hnil.1
  simp only at h₂
  split at h₂
  · obtain ⟨rfl, rfl⟩ := Prod.mk.inj (Option.some.inj h₂)
    exact ⟨hne, used₁ ++ used₂, (List.append_assoc ..).symm, hspells₂⟩
  · obtain ⟨rfl, rfl⟩ := Prod.mk.inj (Option.some.inj h₂)
    refine ⟨List.cons_ne_nil _ _, used₁ ++ used₂, (List.append_assoc ..).symm, ?_⟩
    exact .node hspells₂ hne nofun nofun

/-! ### Patterns -/

instance : ReadsSome (positional g) := by
  unfold positional
  infer_instance

instance : ReadsSome (properties g) := by
  unfold properties
  infer_instance

instance : ReadsSome designation := by
  unfold designation
  infer_instance

instance : ReadsSome (constantPattern g) := by
  unfold constantPattern
  infer_instance

instance : ReadsSome (primaryPattern g) := by
  unfold primaryPattern
  infer_instance

instance : ReadsSome (pattern g) := by
  unfold pattern
  infer_instance

/-! ### Statements -/

instance : ReadsSome (variableDeclarator.initialValue g) := by
  unfold variableDeclarator.initialValue
  infer_instance

instance (name : Rule) [ReadsSome name] : ReadsSome (variableDeclarator g name) := by
  unfold variableDeclarator
  infer_instance

instance : ReadsSome (variableDeclaration g) := by
  unfold variableDeclaration
  infer_instance

instance : ReadsSome (localDeclaration g) := by
  unfold localDeclaration
  infer_instance

instance (mayBeMissing : Bool) : ReadsSome (methodBody g mayBeMissing) := by
  unfold methodBody
  infer_instance

instance : ReadsSome (localFunction g) := by
  unfold localFunction
  infer_instance

instance : ReadsSome (keywordStatement.condition g) := by
  unfold keywordStatement.condition
  infer_instance

instance : ReadsSome (keywordStatement.expressions g) := by
  unfold keywordStatement.expressions
  infer_instance

instance : ReadsSome (keywordStatement.switchLabel g) := by
  unfold keywordStatement.switchLabel
  infer_instance

instance : ReadsSome (keywordStatement.switchSection g) := by
  unfold keywordStatement.switchSection
  infer_instance

instance : ReadsSome (keywordStatement.catchClause g) := by
  unfold keywordStatement.catchClause
  infer_instance

instance : ReadsSome (keywordStatement g) := by
  unfold keywordStatement
  infer_instance

instance : ReadsSome (block g) := by
  unfold block
  infer_instance

instance : ReadsSome (expressionStatement.effective g) := by
  refine readsSome_of fun ts rest ys h => ?_
  obtain ⟨⟨xs, ts₁⟩, hxs, h₁⟩ := Option.bind_eq_some_iff.1 h
  simp only at h₁
  split at h₁
  · obtain ⟨rfl, rfl⟩ := Prod.mk.inj (Option.some.inj h₁)
    exact ⟨ReadsSome.ne_nil hxs, Reads.spells hxs⟩
  · cases h₁

instance : ReadsSome (expressionStatement g) := by
  unfold expressionStatement
  infer_instance

instance : ReadsSome (statement g) := by
  unfold statement
  infer_instance

/-! ### Declarations -/

/-- A semicolon may follow what is declared. -/
instance (r : Rule) [hr : ReadsSome r] : ReadsSome (closeSemicolon r) := by
  refine readsSome_of fun ts rest ys h => ?_
  obtain ⟨⟨xs, ts₁⟩, hxs, h₁⟩ := Option.bind_eq_some_iff.1 h
  have hne : xs ≠ [] := hr.ne_nil hxs
  have hread : ∃ used, ts = used ++ ts₁ ∧ Spells xs used := hr.spells hxs
  simp only at h₁
  split at h₁
  · next t rest' _ =>
    split at h₁
    · obtain ⟨rfl, rfl⟩ := Prod.mk.inj (Option.some.inj h₁)
      obtain ⟨used, rfl, hspells⟩ := hread
      refine ⟨List.append_ne_nil_of_left_ne_nil hne _, used ++ [t], by simp, ?_⟩
      exact .append hspells (.leaf nofun)
    · obtain ⟨rfl, rfl⟩ := Prod.mk.inj (Option.some.inj h₁)
      exact ⟨hne, hread⟩
  · obtain ⟨rfl, rfl⟩ := Prod.mk.inj (Option.some.inj h₁)
    exact ⟨hne, hread⟩

instance (k : Kind) [Holds k.isPlain] (r : Rule) [ReadsSome r] : ReadsSome (closed k r) := by
  unfold closed
  infer_instance

instance : Reads (preamble g) := by
  unfold preamble
  infer_instance

instance : ReadsSome (baseList g) := by
  unfold baseList
  infer_instance

instance : ReadsSome (declarationList g) := by
  unfold declarationList
  infer_instance

instance : Reads (typeHead g) := by
  unfold typeHead
  infer_instance

instance : ReadsSome (enumBody g) := by
  unfold enumBody
  infer_instance

instance : ReadsSome (typeDeclaration.body g) := by
  unfold typeDeclaration.body
  infer_instance

instance : ReadsSome (typeDeclaration g) := by
  unfold typeDeclaration
  infer_instance

instance : ReadsSome (accessorList g) := by
  unfold accessorList
  infer_instance

instance : ReadsSome (explicitInterface g) := by
  unfold explicitInterface
  infer_instance

instance : ReadsSome (property.initialValue g) := by
  unfold property.initialValue
  infer_instance

instance : ReadsSome (property g) := by
  unfold property
  infer_instance

instance : ReadsSome definedOperator := by
  unfold definedOperator
  infer_instance

instance : ReadsSome (otherMember g) := by
  unfold otherMember
  infer_instance

instance : ReadsSome (field g) := by
  unfold field
  infer_instance

instance : ReadsSome (namespaceDeclaration g) := by
  unfold namespaceDeclaration
  infer_instance

instance : ReadsSome (usingDirective g) := by
  unfold usingDirective
  infer_instance

instance : ReadsSome (declaration g) := by
  unfold declaration
  infer_instance

instance : ReadsSome (topLevel g) := by
  unfold topLevel
  infer_instance

/-! ### The knot -/

/-- Every rule reads something, if the rules within do. -/
theorem readsSome_rules (c : Category) : ReadsSome (rules g c) := by
  cases c <;> unfold rules <;> infer_instance

/-- **Every construct is read over its tokens**, at any depth of nesting. -/
instance readsSome_tie (n : Nat) (c : Category) : ReadsSome (Category.tie rules n c) := by
  induction n generalizing c with
  | zero => exact readsSome_never
  | succ n ih => exact readsSome_rules (Category.tie rules n) c

/-- The items of a file stand over the tokens that were read. -/
theorem spells_items {n : Nat} {ts rest : List Token} {items : List Node}
    (h : many (topLevel (Category.tie rules n)) ts = some (items, rest)) :
    ∃ used, ts = used ++ rest ∧ Spells items used :=
  Reads.spells h

end Grammar
end CSharp
end MappingAudit
