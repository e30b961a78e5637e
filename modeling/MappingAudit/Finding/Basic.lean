/-
# Findings

A finding is one violation of a rule, at a place of a file.  Besides its message and
the arguments of that it carries details, from which fixes are built.
-/

import MappingAudit.Finding.Message
import MappingAudit.Finding.RuleId
import MappingAudit.Text.Span

namespace MappingAudit

/-- What a detail of a finding says. -/
inductive Detail where
  | callIndex
  | destinationContainer
  | destinationElementType
  | destinationMemberType
  | destinationType
  | duplicateOrigin
  | member
  | missingPairs
  /-- The registration whose reverse map can be dropped. -/
  | reverseRegistration
  | smell
  | sourceContainer
  | sourceElementType
  | sourceMember
  | sourceMemberType
  | sourcePath
  | sourceType
  deriving Repr, DecidableEq, Inhabited

namespace Detail

/-- Every kind of detail, in the order of the names. -/
def all : List Detail :=
  [callIndex, destinationContainer, destinationElementType, destinationMemberType,
    destinationType, duplicateOrigin, member, missingPairs, reverseRegistration, smell,
    sourceContainer, sourceElementType, sourceMember, sourceMemberType, sourcePath, sourceType]

/-- The name. -/
def name : Detail → String
  | callIndex => "callIndex"
  | destinationContainer => "destinationContainer"
  | destinationElementType => "destinationElementType"
  | destinationMemberType => "destinationMemberType"
  | destinationType => "destinationType"
  | duplicateOrigin => "duplicateOrigin"
  | member => "member"
  | missingPairs => "missingPairs"
  | reverseRegistration => "reverseRegistration"
  | smell => "smell"
  | sourceContainer => "sourceContainer"
  | sourceElementType => "sourceElementType"
  | sourceMember => "sourceMember"
  | sourceMemberType => "sourceMemberType"
  | sourcePath => "sourcePath"
  | sourceType => "sourceType"

end Detail

/-- A violation of a rule. -/
structure Finding where
  rule : RuleId
  severity : Severity
  message : String
  /-- The arguments of the message. -/
  args : List String
  file : String
  span : Span
  details : List (Detail × String)
  /-- The position of the registration that it is about. -/
  registration : Nat
  deriving Repr, DecidableEq, Inhabited

namespace Finding

/-- The finding with more arguments, which its message is filled with again. -/
def withArgs (f : Finding) (more : List String) : Finding :=
  let args := f.args ++ more
  { f with args, message := Message.fill f.rule.template args }

/-- The finding with one more detail. -/
def withDetail (f : Finding) (d : Detail) (value : String) : Finding :=
  { f with details := f.details ++ [(d, value)] }

/-- The finding with a detail when there is a value for it. -/
def withDetail? (f : Finding) (d : Detail) (value : Option String) : Finding :=
  match value with
  | some v => f.withDetail d v
  | none => f

/-- A detail of the finding. -/
def detail? (f : Finding) (d : Detail) : Option String := f.details.lookup d

/-- The details in the order of their names. -/
def sortedDetails (f : Finding) : List (Detail × String) :=
  Detail.all.filterMap fun d => (f.detail? d).map fun v => (d, v)

/-- The place as `file:line:column`, both counted from one. -/
def location (f : Finding) : String :=
  f.file ++ ":" ++ toString f.span.startLine ++ ":" ++ toString (f.span.startColumn + 1)

/-- The finding in one line. -/
def line (f : Finding) : String :=
  f.location ++ ": " ++ f.severity.name ++ "[" ++ f.rule.code ++ "]: " ++ f.message

end Finding
end MappingAudit
