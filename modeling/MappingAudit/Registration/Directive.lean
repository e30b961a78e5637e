/-
# What single calls of a chain say

A call such as `ForMember(d => d.Name, o => o.Ignore())` names a destination member
and configures it by the calls made on the parameter of its second lambda.  Each
configuration is a directive of its own; a call with conditions alone gives one
directive without configuration.
-/

import MappingAudit.Registration.Basic

namespace MappingAudit

namespace Source
namespace Call

/-- The call without what comes before it: its segment without blanks and dot. -/
def ownSpan (c : Call) : Span :=
  let blanks := c.separator.toList
  if blanks.isEmpty && c.segment == c.span then c.span
  else
    let skip := Pieces.byteLength blanks + 1
    let lines := blanks.count '\n'
    let s := c.segment
    { s with
      startByte := min (s.startByte + skip) s.endByte
      startLine := s.startLine + lines
      startColumn :=
        if lines = 0 then s.startColumn + skip
        else Pieces.byteLength (Pieces.lastPiece (· == '\n') blanks) + 1 }

end Call
end Source

namespace Directive

open Source (Argument OptionCall Lambda Call)

/-- The lambdas among some arguments. -/
def lambdas (args : List Argument) : List Lambda := args.filterMap (·.lambda?)

/-- The arguments as one text. -/
def argumentText (args : List Argument) : String := Pieces.join ", " (args.map (·.text))

/-- Type arguments as text. -/
def typeArgumentText (types : List String) : String := Pieces.join ", " types

/-- The member path that the first argument of a directive names. -/
def targetOf? (a : Argument) : Option (List String) :=
  match a.form with
  | .lambda l => l.body.memberPath.filter (!·.isEmpty)
  | .text s => some (Pieces.splitText '.' s)
  | .nameOf n => some [n]
  | _ => none

/-- What the argument of `MapFrom` configures. -/
def mapFrom (a : Argument) : MemberConfig :=
  match a.form with
  | .lambda l => .mappedFrom ⟨l.body.text, l.body.memberPath, some l.body⟩
  | .text s => .mappedFrom ⟨a.text, some (Pieces.splitText '.' s), none⟩
  | .nameOf n => .mappedFrom ⟨a.text, some [n], none⟩
  | .creation _ => .convertedUsing a.text
  | _ => .mappedFrom ⟨a.text, none, none⟩

/-- What a call on the options configures. -/
def configOf? (c : OptionCall) : Option MemberConfig :=
  match c.name with
  | "Ignore" => some .ignored
  | "MapFrom" =>
    if c.typeArgs.isEmpty then c.args.head?.map mapFrom
    else some (.convertedUsing ("MapFrom<" ++ typeArgumentText c.typeArgs ++ ">()"))
  | "UseValue" => c.args.head?.map mapFrom
  | "ConvertUsing" | "ResolveUsing" =>
    some (.convertedUsing
      (if c.typeArgs.isEmpty then argumentText c.args
        else c.name ++ "<" ++ typeArgumentText c.typeArgs ++ ">"))
  | _ => none

/-- A call on the options that gives a substitute for `null`. -/
def isNullSubstitute (c : OptionCall) : Bool := c.name == "NullSubstitute"

/-- A call on the options that adds a condition. -/
def isCondition (c : OptionCall) : Bool := c.name == "Condition" || c.name == "PreCondition"

/-- The lambdas of a call on the options that run while values are mapped. -/
def runLambdas (c : OptionCall) : List Lambda :=
  match c.name with
  | "MapFrom" => if c.typeArgs.isEmpty then lambdas (c.args.take 1) else []
  | "UseValue" => lambdas (c.args.take 1)
  | "ConvertUsing" | "ResolveUsing" | "Condition" | "PreCondition" => lambdas c.args
  | _ => []

/-- The calls on the options that a directive is given by. -/
def optionCalls (c : Call) : List OptionCall :=
  match (c.args[1]?).bind (·.lambda?) with
  | some l => l.optionCalls
  | none => []

/-- The calls that configure destination members. -/
def methods : List String := ["ForMember", "ForPath", "ForCtorParam"]

/-- The destination member that a call configures. -/
def callTarget? (c : Call) : Option (List String) :=
  if methods.contains c.name then c.args.head?.bind targetOf? else none

/-- The directives of a call at a position of a chain. -/
def ofCall (index : Nat) (c : Call) : List Directive :=
  match callTarget? c with
  | none => []
  | some target =>
    let options := optionCalls c
    let directive (config : Option MemberConfig) : Directive :=
      { target
        method := c.name
        callIndex := index
        config
        nullSubstitute := options.any isNullSubstitute
        condition := options.any isCondition
        segment := c.segment
        span := c.ownSpan }
    match options.filterMap configOf? with
    | [] => [directive none]
    | configs => configs.map fun config => directive (some config)

/-- The lambdas of a directive, which run while its member is mapped. -/
def expressionsOfCall (c : Call) : List MappingExpression :=
  match callTarget? c with
  | none => []
  | some target =>
    (optionCalls c).flatMap fun o =>
      (runLambdas o).map fun l => ⟨some (Pieces.join "." target), o.name, l.body⟩

end Directive
end MappingAudit
