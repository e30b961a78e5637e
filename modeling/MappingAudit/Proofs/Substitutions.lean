/-
# Substitutions one after the other

The arguments of a class are put in place of its parameters, and what comes out goes through
the bindings of the class below.  Two substitutions one after the other are a single one
(`substitute_substitute`): its bindings are those of the first, each taken through the second,
and behind them those of the second (`Bindings.andThen`).

An optional type that is bound to the `T` of a `T?` is not wrapped again.  Either of the two
substitutions may be the one that brings it, so the two sides drop the wrapper at different
moments; `optional_substitute` says that the moment does not matter.  Where nothing that goes
in is wrapped twice, nothing that comes out is (`wrapsOnce_substitute`).
-/

import MappingAudit.TypeExpr.Basic

namespace MappingAudit
namespace TypeExpr

variable {b b₁ b₂ : Bindings} {t : TypeExpr}

/-- Types are put into several types one by one. -/
theorem substituteAll_eq_map (b : Bindings) (ts : List TypeExpr) :
    substituteAll b ts = ts.map (substitute b) := by
  induction ts with
  | nil => rfl
  | cons t ts ih => rw [substituteAll, ih, List.map_cons]

/-- Changing all bound types changes the one that is looked up. -/
theorem lookup_map_snd (f : TypeExpr → TypeExpr) (b : Bindings) (name : String) :
    List.lookup name (b.map fun p => (p.1, f p.2)) = (b.lookup name).map f := by
  induction b with
  | nil => rfl
  | cons p b ih =>
    rw [List.map_cons, List.lookup_cons, List.lookup_cons, ih]
    cases name == p.1 <;> rfl

/-- What holds of all bound types holds of those that are looked up. -/
theorem Bindings.forall_of_forall_mem {p : TypeExpr → Prop} (h : ∀ q ∈ b, p q.2) :
    ∀ name u, b.lookup name = some u → p u := by
  intro name u hu
  obtain ⟨before, after, rfl, -⟩ := List.lookup_eq_some_iff.1 hu
  exact h (name, u) (List.mem_append_right before List.mem_cons_self)

/-! ### Types that are wrapped once -/

mutual

/-- Nowhere in the type is an optional type made optional again. -/
def wrapsOnce : TypeExpr → Bool
  | named _ args => allWrapOnce args
  | array element _ => wrapsOnce element
  | nullable inner => !inner.isNullable && wrapsOnce inner
  | tuple items => allWrapOnce items

/-- Nowhere in the types is an optional type made optional again. -/
def allWrapOnce : List TypeExpr → Bool
  | [] => true
  | t :: ts => wrapsOnce t && allWrapOnce ts

end

/-- The types that names are bound to are wrapped once. -/
def Bindings.WrapOnce (b : Bindings) : Prop :=
  ∀ name u, b.lookup name = some u → u.wrapsOnce = true

/-- A type that is made optional is so. -/
theorem isNullable_optional (t : TypeExpr) : t.optional.isNullable = true := by
  rw [optional]
  split
  · next h => exact h
  · rfl

/-- An optional type is not made optional again. -/
theorem optional_of_isNullable (h : t.isNullable = true) : t.optional = t := if_pos h

/-- Making a type optional wraps it once. -/
theorem wrapsOnce_optional (h : t.wrapsOnce = true) : t.optional.wrapsOnce = true := by
  rw [optional]
  split
  · exact h
  · next hnot => rw [wrapsOnce, h, Bool.and_true, Bool.not_eq_true', Bool.eq_false_iff.2 hnot]

/-! ### What a substitution keeps -/

/-- A substitution keeps optional types optional. -/
theorem isNullable_substitute (h : t.isNullable = true) : (t.substitute b).isNullable = true := by
  cases t with
  | nullable inner => rw [substitute, isNullable_optional]
  | named path args => cases h
  | array element rank => cases h
  | tuple items => cases h

/-- It does not matter whether a type is made optional before a substitution or after it. -/
theorem optional_substitute (b : Bindings) (t : TypeExpr) :
    t.optional.substitute b = (t.substitute b).optional := by
  cases h : t.isNullable with
  | true => rw [optional_of_isNullable h, optional_of_isNullable (isNullable_substitute h)]
  | false => rw [optional, h, if_neg Bool.false_ne_true, substitute]

mutual

/-- Types that are wrapped once, put into one another, are wrapped once. -/
theorem wrapsOnce_substitute (hb : b.WrapOnce) : ∀ t : TypeExpr, t.wrapsOnce = true →
    (t.substitute b).wrapsOnce = true
  | .named [name] [], h => by
    rw [substitute]
    cases hlookup : b.lookup name with
    | none => exact h
    | some u => exact hb name u hlookup
  | .named [] args, h => allWrapOnce_substituteAll hb args h
  | .named [_] (a :: as), h => allWrapOnce_substituteAll hb (a :: as) h
  | .named (_ :: _ :: _) args, h => allWrapOnce_substituteAll hb args h
  | .array element _, h => wrapsOnce_substitute hb element h
  | .nullable inner, h => by
    rw [wrapsOnce, Bool.and_eq_true] at h
    rw [substitute]
    exact wrapsOnce_optional (wrapsOnce_substitute hb inner h.2)
  | .tuple items, h => allWrapOnce_substituteAll hb items h

/-- Types that wrap once do so after types that wrap once are put into them. -/
theorem allWrapOnce_substituteAll (hb : b.WrapOnce) : ∀ ts : List TypeExpr,
    allWrapOnce ts = true → allWrapOnce (substituteAll b ts) = true
  | [], _ => rfl
  | t :: ts, h => by
    rw [allWrapOnce, Bool.and_eq_true] at h
    rw [substituteAll, allWrapOnce, wrapsOnce_substitute hb t h.1,
      allWrapOnce_substituteAll hb ts h.2]
    rfl

end

/-! ### One substitution in place of two -/

/-- The bindings `b` bind the names of `b₁` to what they are bound to there, taken through `b₂`,
and every other name as `b₂` does. -/
def Bindings.Follows (b b₁ b₂ : Bindings) : Prop :=
  ∀ name, b.lookup name = match b₁.lookup name with
    | some t => some (t.substitute b₂)
    | none => b₂.lookup name

/-- The bindings that do what `b₁` does and then what `b₂` does. -/
def Bindings.andThen (b₁ b₂ : Bindings) : Bindings :=
  b₁.map (fun p => (p.1, p.2.substitute b₂)) ++ b₂

/-- Bindings behind each other do what one does after the other. -/
theorem Bindings.andThen_follows (b₁ b₂ : Bindings) : (b₁.andThen b₂).Follows b₁ b₂ := by
  intro name
  rw [andThen, List.lookup_append, lookup_map_snd]
  cases b₁.lookup name <;> rfl

mutual

/-- Two substitutions one after the other are a single one. -/
theorem substitute_substitute (hb : b.Follows b₁ b₂) : ∀ t : TypeExpr,
    (t.substitute b₁).substitute b₂ = t.substitute b
  | .named [name] [] => by
    rw [substitute, substitute, hb name]
    cases b₁.lookup name <;> rfl
  | .named [] args => congrArg (named []) (substituteAll_substituteAll hb args)
  | .named [name] (a :: as) =>
    congrArg (named [name]) (substituteAll_substituteAll hb (a :: as))
  | .named (n :: m :: path) args =>
    congrArg (named (n :: m :: path)) (substituteAll_substituteAll hb args)
  | .array element rank => congrArg (array · rank) (substitute_substitute hb element)
  | .nullable inner => by
    rw [substitute, optional_substitute, substitute_substitute hb inner, substitute]
  | .tuple items => congrArg tuple (substituteAll_substituteAll hb items)

/-- Putting types into several types twice is doing so once. -/
theorem substituteAll_substituteAll (hb : b.Follows b₁ b₂) : ∀ ts : List TypeExpr,
    substituteAll b₂ (substituteAll b₁ ts) = substituteAll b ts
  | [] => rfl
  | t :: ts => by
    rw [substituteAll, substituteAll, substitute_substitute hb t,
      substituteAll_substituteAll hb ts, substituteAll]

end

/-- **Substitutions compose.**  Two of them one after the other do what the bindings do that
follow the second after the first; and no type that comes out on the way holds an optional
type that is made optional again, where none that goes in does. -/
theorem substitutions_compose (ht : t.wrapsOnce = true) (h₁ : b₁.WrapOnce) (h₂ : b₂.WrapOnce)
    (hb : b.Follows b₁ b₂) :
    (t.substitute b₁).substitute b₂ = t.substitute b ∧
      (t.substitute b₁).wrapsOnce = true ∧ (t.substitute b).wrapsOnce = true := by
  have hfirst := wrapsOnce_substitute h₁ t ht
  have hboth := wrapsOnce_substitute h₂ _ hfirst
  rw [substitute_substitute hb] at hboth
  exact ⟨substitute_substitute hb t, hfirst, hboth⟩

/-- A pair `(T?, U?[])` of what two parameters stand for. -/
def optionalPair : TypeExpr :=
  .tuple [.nullable (.named ["T"] []), .array (.nullable (.named ["U"] [])) 1]

/-- `T` is handed on as `U?`. -/
def optionalHandedOn : Bindings := [("T", .nullable (.named ["U"] []))]

/-- `U` is an optional number, and `T`, which is bound before, would be another type. -/
def optionalNumber : Bindings := [("U", .nullable (.named ["int"] [])), ("T", .named ["bool"] [])]

/-- The `?` of `T?` is dropped in the first substitution and that of `U?[]` in the second. -/
theorem substitutions_compose_optionalPair :
    optionalPair.wrapsOnce = true ∧ optionalHandedOn.WrapOnce ∧ optionalNumber.WrapOnce ∧
      (optionalHandedOn.andThen optionalNumber).Follows optionalHandedOn optionalNumber ∧
        ((optionalPair.substitute optionalHandedOn).substitute optionalNumber).toText =
            "(int?, int?[])" ∧
          (optionalPair.substitute optionalHandedOn).substitute optionalNumber =
              optionalPair.substitute (optionalHandedOn.andThen optionalNumber) ∧
            (optionalPair.substitute optionalHandedOn).wrapsOnce = true ∧
            (optionalPair.substitute (optionalHandedOn.andThen optionalNumber)).wrapsOnce =
              true := by
  have hpair : optionalPair.wrapsOnce = true := by decide
  have hfirst : optionalHandedOn.WrapOnce := Bindings.forall_of_forall_mem (by decide)
  have hsecond : optionalNumber.WrapOnce := Bindings.forall_of_forall_mem (by decide)
  have hfollows := Bindings.andThen_follows optionalHandedOn optionalNumber
  have htext : ((optionalPair.substitute optionalHandedOn).substitute optionalNumber).toText =
      "(int?, int?[])" := by decide +kernel
  exact ⟨hpair, hfirst, hsecond, hfollows, htext,
    substitutions_compose hpair hfirst hsecond hfollows⟩

end TypeExpr
end MappingAudit
