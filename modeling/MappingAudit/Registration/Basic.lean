/-
# Registrations

A registration is what one call chain says: from which type to which it maps, and
how single members are configured.  Calls after `ReverseMap` configure the mapping
back.
-/

import MappingAudit.Source.Chain
import MappingAudit.TypeExpr.Basic

namespace MappingAudit

/-- Which members have to be mapped. -/
inductive MemberList where
  | destination
  | source
  | none
  deriving Repr, DecidableEq, Inhabited

/-- What a destination member is mapped from. -/
structure SourceExpression where
  text : String
  /-- The members read one after the other, when the expression does nothing else. -/
  path : Option (List String)
  /-- What the expression does, when it is a lambda. -/
  summary : Option Source.Summary
  deriving Repr, DecidableEq, Inhabited

/-- How a destination member is configured. -/
inductive MemberConfig where
  | ignored
  | mappedFrom (e : SourceExpression)
  /-- A converter or resolver, as written. -/
  | convertedUsing (text : String)
  deriving Repr, DecidableEq, Inhabited

namespace MemberConfig

/-- The name of the kind of configuration. -/
def label : MemberConfig → String
  | ignored => "Ignore"
  | mappedFrom _ => "MapFrom"
  | convertedUsing _ => "ConvertUsing"

end MemberConfig

/-- The configuration of one destination member by one call. -/
structure Directive where
  /-- The members from the destination on. -/
  target : List String
  method : String
  /-- The position of the call in the chain. -/
  callIndex : Nat
  /-- `none` when the call only holds conditions or a substitute for `null`. -/
  config : Option MemberConfig
  nullSubstitute : Bool
  condition : Bool
  /-- From the end of the call before to the end of this one. -/
  segment : Span
  /-- The call itself. -/
  span : Span
  deriving Repr, DecidableEq, Inhabited

namespace Directive

/-- The member that is configured, when it is one of the destination itself. -/
def member? (d : Directive) : Option String :=
  match d.target with
  | [name] => some name
  | _ => none

/-- The directive configures the destination member of a name, in any case. -/
def targets (d : Directive) (member : String) : Bool :=
  d.member?.any fun m => Pieces.sameName m member

/-- The directive configures the destination member or something within it. -/
def startsAt (d : Directive) (member : String) : Bool :=
  d.target.head?.any fun m => Pieces.sameName m member

end Directive

/-- What is said about a source member. -/
structure SourceDirective where
  member : String
  /-- The member need not be mapped. -/
  unchecked : Bool
  callIndex : Nat
  deriving Repr, DecidableEq, Inhabited

/-- Another pair of types that a chain names. -/
structure Include where
  source : TypeExpr
  destination : TypeExpr
  /-- The pair is a base of the mapping and not derived from it. -/
  isBase : Bool
  span : Span
  deriving Repr, Inhabited, BEq

/-- The call that adds the mapping back. -/
structure ReverseCall where
  callIndex : Nat
  span : Span
  segment : Span
  /-- Calls follow, which configure the mapping back. -/
  isConfigured : Bool
  deriving Repr, DecidableEq, Inhabited

/-- A lambda that runs while values are mapped. -/
structure MappingExpression where
  /-- The destination member that it is for. -/
  member : Option String
  method : String
  summary : Source.Summary
  deriving Repr, DecidableEq, Inhabited

/-- A mapping from one type to another. -/
structure Registration where
  /-- The position among all registrations. -/
  id : Nat
  file : String
  /-- The position of the file. -/
  fileIndex : Nat
  source : TypeExpr
  destination : TypeExpr
  /-- The namespace in which the types are looked up. -/
  ns : Option String
  directives : List Directive
  /-- The directives of the mapping back. -/
  reverseDirectives : List Directive
  sourceDirectives : List SourceDirective
  reverse : Option ReverseCall
  includes : List Include
  /-- The source members whose own members count as members of the source. -/
  includedMembers : List (List String)
  /-- A converter for the whole mapping, as written. -/
  converter : Option String
  memberList : MemberList
  maxDepth : Option Nat
  preservesReferences : Bool
  expressions : List MappingExpression
  chain : Source.Chain
  deriving Repr, Inhabited, BEq

namespace Registration

/-- The call of `CreateMap`. -/
def span (r : Registration) : Span :=
  match r.chain.calls with
  | root :: _ => root.span
  | [] => r.chain.span

/-- The call of `CreateMap` as text. -/
def title (r : Registration) : String :=
  "CreateMap<" ++ r.source.toText ++ ", " ++ r.destination.toText ++ ">"

/-- The directives for a destination member. -/
def directivesFor (r : Registration) (member : String) : List Directive :=
  r.directives.filter (·.targets member)

/-- The first configuration of a destination member. -/
def configFor? (r : Registration) (member : String) : Option MemberConfig :=
  (r.directivesFor member).findSome? (·.config)

/-- A value takes the place of `null` for a destination member. -/
def substitutesNull (r : Registration) (member : String) : Bool :=
  (r.directivesFor member).any (·.nullSubstitute)

/-- Some directive is about a destination member or something within it. -/
def mentions (r : Registration) (member : String) : Bool :=
  r.directives.any (·.startsAt member)

/-- A source member need not be mapped. -/
def leavesUnchecked (r : Registration) (member : String) : Bool :=
  r.sourceDirectives.any fun d => d.unchecked && Pieces.sameName d.member member

end Registration
end MappingAudit
