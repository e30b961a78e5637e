/-
# Detectors of smells

Each detector looks for one sort of costly work.  It decides by the names of called
methods, of what they are called on, of members and of created types.
-/

import MappingAudit.Smell.Basic

namespace MappingAudit

/-- The sorts of costly work. -/
inductive Detector where
  | database
  | fileSystem
  | network
  | reflection
  | nonDeterministic
  | blockingAsync
  | doubleEnumeration
  | deepProjection
  deriving Repr, DecidableEq, Inhabited

namespace Detector

open Source (Summary CallSite AccessSite CreationSite)

/-- Every detector, in the order in which they run. -/
def all : List Detector :=
  [database, fileSystem, network, reflection, nonDeterministic, blockingAsync, doubleEnumeration,
    deepProjection]

/-- The name. -/
def name : Detector → String
  | database => "database"
  | fileSystem => "file-system"
  | network => "network"
  | reflection => "reflection"
  | nonDeterministic => "non-deterministic"
  | blockingAsync => "blocking-async"
  | doubleEnumeration => "double-enumeration"
  | deepProjection => "deep-projection"

/-- The last name of what a call is made on; empty for a call on nothing. -/
def receiverName (c : CallSite) : String := (c.receiver.map Smell.lastName).getD ""

/-- Smells at the calls that satisfy a condition, described with the method. -/
def atCalls (e : Summary) (p : CallSite → Bool) (what : String) : List Smell :=
  (e.calls.filter p).map fun c => ⟨c.span, what ++ " (" ++ c.method ++ ")"⟩

/-- Smells where one of some types is created, described with the type. -/
def atCreations (e : Summary) (types : List String) (what : String) : List Smell :=
  (e.creations.filter fun c => types.contains (Smell.lastName c.typeName)).map fun c =>
    ⟨c.span, what ++ " (" ++ c.typeName ++ ")"⟩

/-- Methods that query a database, whatever they are called on. -/
def queryMethods : List String :=
  ["FindAsync", "FromSqlRaw", "FromSqlInterpolated", "SqlQuery", "ExecuteSqlRaw", "SaveChanges",
    "SaveChangesAsync"]

/-- The small form of a letter; the long `ſ` counts as `s`. -/
def foldCase (c : Char) : Char := if c = 'ſ' then 's' else c.toLower

/-- The endings of names of a persistence context. -/
def contextEndings : List String := ["context", "dbset", "repository"]

/-- The name is one that a persistence context usually has. -/
def isContextName (name : String) : Bool :=
  let cs := name.toList.map foldCase
  let rest := (Pieces.dropHead? ['_'] cs).getD cs
  (contextEndings.any fun w => w.toList.isSuffixOf cs && name.toList.all CharClass.word) ||
    rest == "db".toList || rest == "session".toList

/-- The call queries a persistence context: by its method, or by what it is called
on, unless that is the mapped value itself. -/
def isQuery (e : Summary) (c : CallSite) (receiver : String) : Bool :=
  let names := Smell.receiverNames receiver
  queryMethods.contains c.method || (names.head? != e.parameter && names.any isContextName)

/-- Queries of a persistence context. -/
def queries (e : Summary) : List Smell :=
  e.calls.filterMap fun c => do
    let receiver ← c.receiver
    if isQuery e c receiver then
      pure ⟨c.span, "queries a persistence context (" ++ receiver ++ "." ++ c.method ++ ")"⟩
    else none

/-- Use of files and directories. -/
def fileAccesses (e : Summary) : List Smell :=
  atCalls e (fun c => ["File", "Directory"].contains (receiverName c)) "reads the file system" ++
    atCreations e ["FileStream", "StreamReader", "StreamWriter", "FileInfo", "DirectoryInfo"]
      "opens a file"

/-- Methods that use the network. -/
def networkMethods : List String :=
  ["GetAsync", "PostAsync", "PutAsync", "DeleteAsync", "SendAsync", "GetStringAsync",
    "GetByteArrayAsync", "GetStreamAsync", "GetFromJsonAsync", "DownloadString", "DownloadData",
    "UploadString", "GetResponse"]

/-- Use of the network. -/
def networkUses (e : Summary) : List Smell :=
  atCalls e (fun c => networkMethods.contains c.method || receiverName c == "Dns")
      "makes a network call" ++
    atCreations e ["HttpClient", "WebClient", "TcpClient", "UdpClient", "Socket", "SmtpClient"]
      "creates a network client"

/-- Methods that inspect types. -/
def reflectionMethods : List String :=
  ["GetProperty", "GetProperties", "GetMethod", "GetMethods", "GetField", "GetFields",
    "GetCustomAttribute", "GetCustomAttributes", "GetValue", "SetValue", "InvokeMember",
    "MakeGenericType"]

/-- The call inspects types. -/
def isReflection (c : CallSite) : Bool :=
  reflectionMethods.contains c.method ||
    (receiverName c == "Activator" && c.method == "CreateInstance") ||
    (receiverName c == "Type" && c.method == "GetType")

/-- Members whose value changes from one moment to the next. -/
def volatileMembers : List String :=
  ["DateTime.Now", "DateTime.UtcNow", "DateTime.Today", "DateTimeOffset.Now",
    "DateTimeOffset.UtcNow", "Environment.TickCount"]

/-- The changing member that an access reads, itself or a member of it. -/
def volatile? (a : AccessSite) : Option String :=
  volatileMembers.find? fun m =>
    a.text == m || (m ++ ".").toList.isPrefixOf a.text.toList

/-- The call gives another value each time. -/
def isGenerator (c : CallSite) : Bool :=
  (receiverName c == "Guid" && c.method == "NewGuid") ||
    Catalog.endsIn (c.receiver.getD "") "Random.Shared"

/-- Values that differ from call to call. -/
def changingValues (e : Summary) : List Smell :=
  e.accesses.filterMap (fun a =>
      (volatile? a).map fun m => ⟨a.span, "reads a changing value (" ++ m ++ ")"⟩) ++
    atCalls e isGenerator "generates a new value on every call" ++
    (e.creations.filter fun c => Smell.lastName c.typeName == "Random").map fun c =>
      ⟨c.span, "creates a random number generator"⟩

/-- The call waits for a task. -/
def isWait (c : CallSite) : Bool :=
  c.method == "Wait" ||
    (c.method == "GetResult" && c.receiver.any fun r => Catalog.endsIn r "GetAwaiter()")

/-- Places that wait for a task to end. -/
def waits (e : Summary) : List Smell :=
  ((e.accesses.filter fun a => Catalog.endsIn a.text ".Result").map fun a =>
      ⟨a.span, "blocks on an asynchronous result (" ++ a.text ++ ")"⟩) ++
    atCalls e isWait "blocks on an asynchronous operation"

/-- Methods that go through a sequence. -/
def enumeratingMethods : List String :=
  ["Count", "LongCount", "Sum", "Average", "Min", "Max", "Any", "All", "First", "FirstOrDefault",
    "Last", "LastOrDefault", "Single", "SingleOrDefault", "ElementAt", "Contains", "Aggregate",
    "ToList", "ToArray"]

/-- What is known to be no sequence: a string literal, or a member of another type. -/
def isScalar (scope : Smell.Scope) (e : Summary) (receiver : String) : Bool :=
  receiver.toList.head? == some '"' ||
    (Smell.receiverShape? scope e receiver).any fun s => !s.underlying.isCollection

/-- The sequence that a call goes through, as text without blanks. -/
def enumerated? (scope : Smell.Scope) (e : Summary) (c : CallSite) : Option (String × Span) := do
  let receiver ← c.receiver
  let text := String.ofList (receiver.toList.filter fun ch => !CharClass.blank ch)
  if enumeratingMethods.contains c.method && !isScalar scope e text then pure (text, c.span)
  else none

/-- Reports each sequence where it is gone through the second time; `before` lists
those gone through already. -/
def repeated : List String → List (String × Span) → List Smell
  | _, [] => []
  | before, (s, span) :: rest =>
    (if before.count s == 1 then [⟨span, "enumerates " ++ s ++ " more than once"⟩] else []) ++
      repeated (s :: before) rest

/-- Projections nested to `limit` levels or more. -/
def deepProjections (limit : Nat) (e : Summary) : List Smell :=
  if e.projectionDepth < max limit 1 then []
  else [⟨e.span, "nests " ++ toString e.projectionDepth ++ " levels of projections"⟩]

/-- The smells that a detector finds in a lambda. -/
def run (scope : Smell.Scope) (limit : Nat) (e : Summary) : Detector → List Smell
  | database => Smell.outermost (queries e)
  | fileSystem => Smell.outermost (fileAccesses e)
  | network => Smell.outermost (networkUses e)
  | reflection => Smell.outermost (atCalls e isReflection "uses reflection")
  | nonDeterministic => Smell.outermost (changingValues e)
  | blockingAsync => Smell.outermost (waits e)
  | doubleEnumeration => repeated [] (e.calls.filterMap (enumerated? scope e))
  | deepProjection => deepProjections limit e

end Detector

/-- Whether all smells of a lambda are reported or the first alone. -/
inductive SmellMode where
  | first
  | all
  deriving Repr, DecidableEq, Inhabited

namespace Smell

/-- The smells of a lambda with the detectors that found them. -/
def ofSummary (mode : SmellMode) (limit : Nat) (scope : Scope) (e : Source.Summary) :
    List (Detector × Smell) :=
  let found := Detector.all.flatMap fun d => (d.run scope limit e).map fun s => (d, s)
  match mode with
  | .first => found.take 1
  | .all => found

end Smell
end MappingAudit
