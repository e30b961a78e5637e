/-
# Call chains

A mapping is registered by a call of `CreateMap` and configured by calls chained
to it.  A chain keeps every call with its arguments, and for lambdas among the
arguments a summary of what their bodies call, read and create.
-/

import MappingAudit.Text.Span

namespace MappingAudit
namespace Source

/-- A call within an expression. -/
structure CallSite where
  receiver : Option String
  method : String
  span : Span
  deriving Repr, DecidableEq, Inhabited

/-- A member read within an expression, not as the target of a call. -/
structure AccessSite where
  text : String
  span : Span
  deriving Repr, DecidableEq, Inhabited

/-- An object created within an expression. -/
structure CreationSite where
  typeName : String
  span : Span
  deriving Repr, DecidableEq, Inhabited

/-- What the body of a lambda does. -/
structure Summary where
  text : String
  span : Span
  /-- The first parameter of the lambda. -/
  parameter : Option String
  /-- The members of `p.A.B`, when the body is nothing but such a path. -/
  memberPath : Option (List String)
  /-- The members read directly from the first parameter. -/
  parameterMembers : List String
  calls : List CallSite
  accesses : List AccessSite
  creations : List CreationSite
  /-- The deepest nesting of projections. -/
  projectionDepth : Nat
  deriving Repr, DecidableEq, Inhabited

mutual

/-- The form of an argument. -/
inductive ArgumentForm where
  | lambda (l : Lambda)
  /-- A string literal, without its quotes. -/
  | text (s : String)
  /-- The type in `typeof(T)`. -/
  | typeOf (type : String)
  /-- The last name in `nameof(X.Y)`. -/
  | nameOf (name : String)
  /-- The type in `new T(…)`. -/
  | creation (type : String)
  /-- A member access, with its whole text. -/
  | access (text : String)
  | other

/-- An argument of a call. -/
structure Argument where
  text : String
  span : Span
  form : ArgumentForm

/-- A lambda among the arguments. -/
structure Lambda where
  params : List String
  body : Summary
  /-- The calls made directly on the first parameter. -/
  optionCalls : List OptionCall

/-- A call on the parameter of a lambda, such as `opt.Ignore()`. -/
structure OptionCall where
  name : String
  typeArgs : List String
  args : List Argument
  span : Span

end

deriving instance Repr, Inhabited, BEq for ArgumentForm, Argument, Lambda, OptionCall

namespace Argument

/-- The lambda that an argument is. -/
def lambda? (a : Argument) : Option Lambda :=
  match a.form with
  | .lambda l => some l
  | _ => none

end Argument

/-- How an identifier in front of `CreateMap` came about. -/
inductive Binding where
  /-- A parameter of a lambda passed to the named method or constructor. -/
  | callback (owner : String)
  /-- A parameter, variable or field of the given type. -/
  | typed (type : String)
  deriving Repr, DecidableEq, Inhabited

/-- What `CreateMap` is called on. -/
inductive Receiver where
  | implicit
  | this
  | base
  | identifier (name : String) (binding : Option Binding)
  | other (text : String)
  deriving Repr, DecidableEq, Inhabited

/-- The statement around a chain. -/
structure StatementSite where
  span : Span
  /-- The blanks before the first line of the statement. -/
  indent : String
  deriving Repr, DecidableEq, Inhabited

/-- One call of a chain. -/
structure Call where
  name : String
  typeArgs : List String
  args : List Argument
  /-- The call with everything before it. -/
  span : Span
  /-- From the end of the call before it to its own end. -/
  segment : Span
  /-- The blanks between the call before it and the dot. -/
  separator : String
  deriving Repr, Inhabited, BEq

/-- A chain of calls that starts with `CreateMap`. -/
structure Chain where
  calls : List Call
  receiver : Receiver
  /-- The qualified name of the type around the chain. -/
  enclosingType : Option String
  statement : Option StatementSite
  /-- The whole chain. -/
  span : Span
  deriving Repr, Inhabited, BEq

namespace Chain

/-- The text in front of `CreateMap`. -/
def receiverPrefix (c : Chain) : String :=
  match c.receiver with
  | .implicit => ""
  | .this => "this."
  | .base => "base."
  | .identifier name _ => name ++ "."
  | .other text => text ++ "."

end Chain
end Source
end MappingAudit
