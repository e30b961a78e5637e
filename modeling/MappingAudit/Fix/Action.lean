/-
# Actions

An action is one way to settle a finding: a change of the chain with a title, a key
and a confidence.  Two actions with one key are the same fix.
-/

import MappingAudit.Fix.Operation
import MappingAudit.Fix.Conversion

namespace MappingAudit

variable [CSharp.Reader]

/-- One way to settle a finding. -/
structure Action where
  rule : RuleId
  title : String
  key : String
  confidence : Confidence
  operation : Operation
  edits : List Edit
  deriving Repr, DecidableEq, Inhabited

namespace Workspace

/-- Makes the edits of one file. -/
def editFile (edits : List Edit) (w : Workspace) (file : String) : Except EditError Workspace :=
  match w.document? file with
  | none => .error (.unknownFile file)
  | some d =>
    match Edit.applyAll d.text (edits.filter (·.file == file)) with
    | .error e => .error e
    | .ok text => .ok ((w.withText? file text).getD w)

/-- Makes edits of several files, file by file in the order of the paths. -/
def edit (w : Workspace) (edits : List Edit) : Except EditError Workspace :=
  (Edit.files edits).foldlM (editFile edits) w

end Workspace

/-- A finding with what is needed to settle it. -/
structure Site where
  workspace : Workspace
  audit : Audit
  finding : Finding
  registration : Registration
  catalog : Catalog
  source : Option Model
  destination : Option Model

namespace Site

/-- What is needed to settle a finding. -/
def ofFinding? (w : Workspace) (a : Audit) (f : Finding) : Option Site :=
  (a.registrationOf? f).map fun r =>
    let c := w.catalog
    { workspace := w
      audit := a
      finding := f
      registration := r
      catalog := c
      source := Model.ofType? c r.ns .readable r.source
      destination := Model.ofType? c r.ns .writable r.destination }

/-- The member that the finding is about. -/
def member? (s : Site) : Option String := s.finding.detail? .member

/-- The registration and a member of it, as keys name them. -/
def subject (s : Site) (member : String) : String := s.registration.title ++ "." ++ member

/-- The path of the source, or else the source member. -/
def sourcePath? (s : Site) : Option (List String) :=
  let path := (s.finding.detail? .sourcePath).filter (!·.isEmpty)
  (path.or (s.finding.detail? .sourceMember)).map (Pieces.splitText '.')

/-- The source member. -/
def sourceMember? (s : Site) : Option Member := do
  let path ← s.sourcePath?
  let source ← s.source
  source.follow? s.catalog path

/-- The destination member. -/
def destinationMember? (s : Site) : Option Member := do
  let destination ← s.destination
  let member ← s.member?
  destination.find? member

/-- The expression that reads the source member. -/
def expression? (s : Site) : Option String :=
  s.sourcePath?.map fun path => "src." ++ Pieces.join "." path

/-- The action that makes a change, when it can be made. -/
def action? (s : Site) (strategy subject title : String) (confidence : Confidence)
    (op : Operation) : Option Action :=
  (op.edits? s.audit s.workspace).map fun edits =>
    { rule := s.finding.rule
      title
      key := s.finding.rule.code ++ ":" ++ strategy ++ ":" ++ subject
      confidence
      operation := op
      edits }

/-- A call on the options as it is written again. -/
def modifierText (c : Source.OptionCall) : String :=
  let types := if c.typeArgs.isEmpty then "" else
    "<" ++ Directive.typeArgumentText c.typeArgs ++ ">"
  "opt." ++ c.name ++ types ++ "(" ++ Directive.argumentText c.args ++ ")"

/-- The calls on the options of a directive that configures nothing. -/
def modifiers? (s : Site) (d : Directive) : Option (List String) := do
  let c ← s.registration.chain.calls[d.callIndex]?
  match Directive.optionCalls c with
  | [] => none
  | options => pure (options.map modifierText)

/-- The directive of a member that holds conditions alone. -/
def modifierDirective? (s : Site) (member : String) : Option Directive :=
  (s.registration.directivesFor member).find? fun d => d.config.isNone && d.method == "ForMember"

/-- The change that configures a member.  Conditions that the member has already are
kept in the same call. -/
def configure (s : Site) (member options : String) : Operation :=
  let id := s.registration.id
  let target := "ForMember(dest => dest." ++ member ++ ", opt => "
  match (s.modifierDirective? member).bind fun d => (s.modifiers? d).map fun ms => (d, ms) with
  | some (d, ms) =>
    .replaceCall id d.callIndex
      (target ++ "\x7b " ++ Pieces.join "; " ms ++ "; " ++ options ++ "; \x7d)")
  | none => .appendCall id (target ++ options ++ ")")

/-- The action that configures the member of the finding. -/
def memberAction? (s : Site) (strategy title options : String) (confidence : Confidence) :
    Option Action := do
  let member ← s.member?
  s.action? strategy (s.subject member) title confidence (s.configure member options)

/-- The action that maps the member of the finding from an expression. -/
def mapFrom? (s : Site) (strategy title expr : String) (confidence : Confidence) :
    Option Action :=
  s.memberAction? strategy title ("opt.MapFrom(src => " ++ expr ++ ")") confidence

/-- Leaves the member out. -/
def ignore? (s : Site) (confidence : Confidence) : Option Action := do
  let member ← s.member?
  s.memberAction? "ignore" ("Ignore '" ++ member ++ "'") "opt.Ignore()" confidence

/-- Converts the source member. -/
def convert? (s : Site) : Option Action := do
  let member ← s.member?
  let source ← s.sourceMember?
  let destination ← s.destinationMember?
  let expr ← s.expression?
  let (text, confidence) := (Conversion.convert? expr source.shape destination.shape).getD
    (Conversion.cast expr destination.shape)
  s.mapFrom? "map-from" ("Map '" ++ member ++ "' with " ++ text) text confidence

/-- Puts a value in place of `null`. -/
def substituteNull? (s : Site) : Option Action := do
  let member ← s.member?
  let destination ← s.destinationMember?
  let (value, confidence) ← Conversion.nullFallback? destination.shape
  let expr ← s.expression?
  s.mapFrom? "map-from" ("Map '" ++ member ++ "' with a default for null")
    (expr ++ " ?? " ++ value) confidence

/-- Makes a collection of the kind of the destination. -/
def materialize? (s : Site) : Option Action := do
  let member ← s.member?
  let destination ← s.destinationMember?
  let kind ← destination.shape.underlying.collectionKind?
  let element ← destination.shape.underlying.element?
  let expr ← s.expression?
  let text ← Conversion.materialize? expr kind element.code
  s.mapFrom? "map-from" ("Map '" ++ member ++ "' with " ++ text) text .medium

/-- Converts the elements of a collection. -/
def project? (s : Site) : Option Action := do
  let member ← s.member?
  let source ← s.sourceMember?
  let destination ← s.destinationMember?
  let expr ← s.expression?
  let se ← source.shape.underlying.element?
  let de ← destination.shape.underlying.element?
  let kind ← destination.shape.underlying.collectionKind?
  let (text, confidence) ← Conversion.project? expr se de kind
  s.mapFrom? "project" ("Map '" ++ member ++ "' with " ++ text) text confidence

/-- Says that the source member need not be mapped. -/
def exempt? (s : Site) : Option Action := do
  let member ← s.member?
  s.action? "do-not-validate" (s.subject member)
    ("Do not validate source member '" ++ member ++ "'") .high
    (.appendCall s.registration.id
      ("ForSourceMember(src => src." ++ member ++ ", opt => opt.DoNotValidate())"))

/-- Maps the member from the source member that differs in case. -/
def nameExactly? (s : Site) : Option Action := do
  let member ← s.member?
  let source ← s.finding.detail? .sourceMember
  s.mapFrom? "map-from" ("Map '" ++ member ++ "' from '" ++ source ++ "'") ("src." ++ source) .high

/-- Registers the mappings that are missing, each once. -/
def registerMissing? (s : Site) : Option Action := do
  let encoded ← s.finding.detail? .missingPairs
  let pairs := (Missing.decode encoded).eraseDups
  let start := s.registration.chain.receiverPrefix
  let statements := pairs.map fun (a, b) => start ++ "CreateMap<" ++ a ++ ", " ++ b ++ ">();"
  let subject := Pieces.join ";" (pairs.map fun (a, b) => a ++ "=>" ++ b)
  let title ←
    match pairs with
    | [] => none
    | [(a, b)] => some ("Register mapping " ++ a ++ " -> " ++ b)
    | _ => some ("Register " ++ toString pairs.length ++ " nested mappings")
  let action ← s.action? "register-nested" subject title .high
    (.insertStatements s.registration.id statements)
  pure { action with key := RuleId.code .nestedMissing ++ ":register-nested:" ++ subject }

/-- The depth that mapping is limited to. -/
def depthLimit : Nat := 3

/-- Limits how deep values are mapped. -/
def limitDepth? (s : Site) : Option Action :=
  let title := s.registration.title
  s.action? "max-depth" title ("Limit " ++ title ++ " to depth " ++ toString depthLimit) .medium
    (.appendCall s.registration.id ("MaxDepth(" ++ toString depthLimit ++ ")"))

/-- Keeps references between mapped values. -/
def preserveReferences? (s : Site) : Option Action :=
  let title := s.registration.title
  s.action? "preserve-references" title ("Preserve references in " ++ title) .medium
    (.appendCall s.registration.id "PreserveReferences()")

/-- A registration with its place, as keys name it. -/
def placed (r : Registration) : String :=
  r.title ++ "@" ++ r.file ++ ":" ++ toString r.span.startLine

/-- The position that a detail of the finding gives. -/
def index? (s : Site) (d : Detail) : Option Nat :=
  (s.finding.detail? d).bind fun text => Message.natural? 0x10000000000000000 text.toList

/-- Drops the mapping back that repeats a pair. -/
def dropReverse? (s : Site) : Option Action := do
  let id ← s.index? .reverseRegistration
  let owner ← s.audit.registrations[id]?
  let call ← owner.reverse
  s.action? "remove-reverse-map" (placed owner) ("Remove ReverseMap() from " ++ owner.title) .medium
    (.removeCall owner.id call.callIndex)

/-- Drops the registration that repeats a pair.  It may hold the only mapping back of
the pair, which needs a decision. -/
def dropRegistration? (s : Site) : Option Action :=
  let r := s.registration
  if s.finding.detail? .duplicateOrigin == some "explicit" then
    s.action? "remove-registration" (placed r) ("Remove duplicate " ++ r.title)
      (if r.reverse.isSome then .low else .medium) (.removeStatement r.id)
  else none

/-- Drops the directive that the finding is about. -/
def dropDirective? (s : Site) (strategy : String) (confidence : Confidence) : Option Action := do
  let member ← s.member?
  let index ← s.index? .callIndex
  let call ← s.registration.chain.calls[index]?
  s.action? strategy (s.subject member ++ "#" ++ toString index)
    ("Remove " ++ call.name ++ " for '" ++ member ++ "'") confidence
    (.removeCall s.registration.id index)

/-- The ways to settle a finding, the preferred one first. -/
def offers (s : Site) : List (Option Action) :=
  match s.finding.rule with
  | .typeMismatch => [s.convert?, s.ignore? .low]
  | .nullToValue => [s.substituteNull?]
  | .container => [s.materialize?]
  | .sourceUnmapped => [s.exempt?]
  | .caseMismatch => [s.nameExactly?]
  | .destinationUnmapped => [s.ignore? .medium]
  | .requiredUnmapped => [s.ignore? .low]
  | .nestedMissing => [s.registerMissing?]
  | .elementMismatch => [s.project?, s.registerMissing?]
  | .recursion => [s.limitDepth?, s.preserveReferences?]
  | .performance => []
  | .duplicate => [s.dropReverse?, s.dropRegistration?]
  | .conflict => [s.dropDirective? "remove-conflicting" .medium]
  | .redundantMapFrom => [s.dropDirective? "remove-redundant" .high]

/-- A text is cut where it cannot be cut while ways to settle the finding are looked for. -/
def crashes (s : Site) : Bool :=
  s.finding.rule == .duplicate && s.finding.detail? .duplicateOrigin == some "explicit" &&
    (Operation.removeStatement s.registration.id).resolve s.audit s.workspace == .crashed

end Site

namespace Action

/-- The files that an action touches. -/
def files (a : Action) : List String := Edit.files a.edits

/-- The actions that settle a finding of an audit, the preferred one first. -/
def forFinding (w : Workspace) (a : Audit) (f : Finding) : List Action :=
  match Site.ofFinding? w a f with
  | some s => s.offers.filterMap id
  | none => []

/-- There is no answer to what settles a finding of an audit. -/
def crashes (w : Workspace) (a : Audit) (f : Finding) : Bool :=
  (Site.ofFinding? w a f).any (·.crashes)

end Action
end MappingAudit
