/-
# The registration of a chain

The calls after `CreateMap` are read one by one.  The first `ReverseMap` turns to the
mapping back: what is said about members is kept apart from then on, and what is said
about the mapping as a whole is passed over.  Included pairs and lambdas count on both
sides.
-/

import MappingAudit.Registration.Directive
import MappingAudit.Registration.Recognition
import MappingAudit.Finding.Message

namespace MappingAudit

open Source (Argument Call Chain)

namespace Include

/-- The types in `typeof` arguments. -/
def typeOfs (args : List Argument) : List String :=
  args.filterMap fun a =>
    match a.form with
    | .typeOf t => some t
    | _ => none

/-- Two written types. -/
def readPair? (s d : String) : Option (TypeExpr × TypeExpr) := do
  pure (← TypeExpr.read? s, ← TypeExpr.read? d)

/-- The pair of types that a call names: by two type arguments, or by two `typeof`
arguments when it has no type arguments. -/
def pair? (c : Call) : Option (TypeExpr × TypeExpr) :=
  match c.typeArgs with
  | [s, d] => readPair? s d
  | [] =>
    match typeOfs c.args with
    | [s, d] => readPair? s d
    | _ => none
  | _ => none

/-- The pair of types that a call of `Include` or `IncludeBase` includes. -/
def read? (c : Call) : Option Include :=
  (pair? c).map fun (s, d) => ⟨s, d, c.name == "IncludeBase", c.ownSpan⟩

end Include

namespace SourceDirective

/-- A call on the options that exempts the member. -/
def exempts (c : Source.OptionCall) : Bool := c.name == "DoNotValidate" || c.name == "Ignore"

/-- What a call of `ForSourceMember` at a position of a chain says about a source member. -/
def read? (index : Nat) (c : Call) : Option SourceDirective :=
  (c.args.head?.bind Directive.targetOf?).map fun target =>
    ⟨Pieces.join "." target, (Directive.optionCalls c).any exempts, index⟩

end SourceDirective

namespace Registration

/-- The number in the text: digits after an optional `+`, below `2 ^ 32`. -/
def readDepth? (text : String) : Option Nat :=
  Message.natural? 0x100000000 (Pieces.trim text.toList)

/-- The members that the arguments of `CreateMap` ask to be mapped. -/
def memberListOf (args : List Argument) : MemberList :=
  (args.findSome? fun a =>
    match a.form with
    | .access text =>
      if Catalog.endsIn text "MemberList.None" then some .none
      else if Catalog.endsIn text "MemberList.Source" then some .source
      else Option.none
    | _ => Option.none).getD .destination

/-- The source members whose own members a call of `IncludeMembers` adds. -/
def includedIn (c : Call) : List (List String) :=
  (Directive.lambdas c.args).filterMap (·.body.memberPath)

/-- The converter that a call of `ConvertUsing` sets, as written. -/
def converterText (c : Call) : String :=
  if c.typeArgs.isEmpty then Directive.argumentText c.args
  else "ConvertUsing<" ++ Directive.typeArgumentText c.typeArgs ++ ">"

/-- The depth that a call of `MaxDepth` sets; none for an argument that is no number. -/
def depthIn? (c : Call) : Option Nat := c.args.head?.bind fun a => readDepth? a.text

/-- The lambdas of a call that run while values are mapped. -/
def runIn (c : Call) : List MappingExpression :=
  (Directive.lambdas c.args).map fun l => ⟨none, c.name, l.body⟩

end Registration

/-- What the calls of a chain have said so far. -/
structure Reading where
  registration : Registration
  /-- `ReverseMap` was called. -/
  reversed : Bool

namespace Reading

/-- What is known of a mapping between two types before any call after `root`. -/
def start (id fileIndex : Nat) (file : String) (ns : Option String) (chain : Chain) (root : Call)
    (types : TypeExpr × TypeExpr) : Reading where
  registration :=
    { id
      file
      fileIndex
      source := types.1
      destination := types.2
      ns
      directives := []
      reverseDirectives := []
      sourceDirectives := []
      reverse := none
      includes := []
      includedMembers := []
      converter := none
      memberList := Registration.memberListOf root.args
      maxDepth := none
      preservesReferences := false
      expressions := []
      chain }
  reversed := false

/-- Reads the call at a position of a chain of `length` calls. -/
def add (length : Nat) (s : Reading) : Nat × Call → Reading
  | (i, c) =>
    let r := s.registration
    match c.name with
    | "ReverseMap" =>
      { registration :=
          if r.reverse.isNone then
            { r with reverse := some ⟨i, c.ownSpan, c.segment, i + 1 < length⟩ }
          else r
        reversed := true }
    | "ForMember" | "ForPath" | "ForCtorParam" =>
      let directives := Directive.ofCall i c
      let r := { r with expressions := r.expressions ++ Directive.expressionsOfCall c }
      { s with
        registration :=
          if s.reversed then { r with reverseDirectives := r.reverseDirectives ++ directives }
          else { r with directives := r.directives ++ directives } }
    | "ForSourceMember" =>
      if s.reversed then s
      else
        let more := (SourceDirective.read? i c).toList
        { s with registration := { r with sourceDirectives := r.sourceDirectives ++ more } }
    | "Include" | "IncludeBase" =>
      { s with registration := { r with includes := r.includes ++ (Include.read? c).toList } }
    | "IncludeMembers" =>
      if s.reversed then s
      else
        let more := Registration.includedIn c
        { s with registration := { r with includedMembers := r.includedMembers ++ more } }
    | "ConvertUsing" =>
      let r := { r with expressions := r.expressions ++ Registration.runIn c }
      { s with
        registration :=
          if s.reversed then r else { r with converter := some (Registration.converterText c) } }
    | "ConstructUsing" | "BeforeMap" | "AfterMap" =>
      { s with
        registration := { r with expressions := r.expressions ++ Registration.runIn c } }
    | "MaxDepth" =>
      if s.reversed then s
      else { s with registration := { r with maxDepth := Registration.depthIn? c } }
    | "PreserveReferences" =>
      if s.reversed then s
      else { s with registration := { r with preservesReferences := true } }
    | _ => s

end Reading

namespace Registration

/-- The calls after `CreateMap` with their positions. -/
def configuring (chain : Chain) : List (Nat × Call) :=
  (chain.calls.zipIdx.drop 1).map fun (c, i) => (i, c)

/-- What the calls of a chain say about a mapping between two types. -/
def ofCalls (id fileIndex : Nat) (file : String) (ns : Option String) (chain : Chain) (root : Call)
    (types : TypeExpr × TypeExpr) : Registration :=
  let start := Reading.start id fileIndex file ns chain root types
  ((configuring chain).foldl (Reading.add chain.calls.length) start).registration

/-- The registration that a chain of a file stands for. -/
def ofChain? (c : Catalog) (fileIndex : Nat) (file : Source.File) (id : Nat) (chain : Chain) :
    Option Registration :=
  if Recognition.isMapping c file chain then do
    let root ← chain.calls.head?
    let types ← Include.pair? root
    pure (ofCalls id fileIndex file.path (Recognition.namespaceOf c chain) chain root types)
  else none

/-- A chain registers a mapping of the types that its first call names. -/
theorem ofChain?_eq_some_iff {c : Catalog} {fileIndex : Nat} {file : Source.File} {id : Nat}
    {chain : Chain} {r : Registration} : ofChain? c fileIndex file id chain = some r ↔
      Recognition.isMapping c file chain = true ∧ ∃ root types,
        chain.calls.head? = some root ∧ Include.pair? root = some types ∧
          ofCalls id fileIndex file.path (Recognition.namespaceOf c chain) chain root types = r := by
  rw [ofChain?]
  split
  · next h => simp [h, Option.bind_eq_some_iff]
  · next h => simp [h]

/-- The chains of all files, each with its file and the position of the file. -/
def chainsOf (files : List Source.File) : List (Nat × Source.File × Chain) :=
  files.zipIdx.flatMap fun (f, i) => f.chains.map fun chain => (i, f, chain)

/-- The registrations of the chains from position `id` on. -/
def numbered (c : Catalog) : Nat → List (Nat × Source.File × Chain) → List Registration
  | _, [] => []
  | id, (i, f, chain) :: rest =>
    match ofChain? c i f id chain with
    | some r => r :: numbered c (id + 1) rest
    | none => numbered c id rest

/-- The registrations of all files, each with its position as identifier. -/
def ofFiles (c : Catalog) (files : List Source.File) : List Registration :=
  numbered c 0 (chainsOf files)

end Registration
end MappingAudit
