/-
# Collections

The collection types of the framework fall into seven kinds.  The kind decides
which collections the mapper converts into each other without help.
-/

namespace MappingAudit

/-- The kinds of collections. -/
inductive CollectionKind where
  | array
  | list
  | sequence
  | set
  | dictionary
  | queue
  | stack
  deriving Repr, DecidableEq, Inhabited

namespace CollectionKind

/-- Every kind. -/
def all : List CollectionKind := [array, list, sequence, set, dictionary, queue, stack]

/-- The name of a kind. -/
def name : CollectionKind → String
  | array => "array"
  | list => "list"
  | sequence => "sequence"
  | set => "set"
  | dictionary => "dictionary"
  | queue => "queue"
  | stack => "stack"

/-- The kind of a name. -/
def ofName? (s : String) : Option CollectionKind := all.find? (·.name == s)

/-- The type names of each kind. -/
def typeNames : CollectionKind → List String
  | array => []
  | list => ["List", "IList", "ICollection", "IReadOnlyList", "IReadOnlyCollection", "Collection",
      "ReadOnlyCollection", "ObservableCollection", "LinkedList", "ImmutableList", "ImmutableArray"]
  | sequence => ["IEnumerable", "IQueryable", "IOrderedEnumerable"]
  | set => ["HashSet", "ISet", "SortedSet", "IReadOnlySet", "ImmutableHashSet"]
  | dictionary => ["Dictionary", "IDictionary", "IReadOnlyDictionary", "SortedDictionary",
      "ConcurrentDictionary", "ImmutableDictionary"]
  | queue => ["Queue", "ConcurrentQueue"]
  | stack => ["Stack", "ConcurrentStack"]

/-- Dictionaries have a key type and a value type, others one element type. -/
def arity : CollectionKind → Nat
  | dictionary => 2
  | _ => 1

/-- The kind of a generic type name with its number of type arguments. -/
def classify (typeName : String) (arity : Nat) : Option CollectionKind :=
  (all.find? fun k => k.typeNames.contains typeName).filter fun k => k.arity == arity

/-- Collections whose elements have positions. -/
def isOrdered : CollectionKind → Bool
  | array | list => true
  | _ => false

/-- The mapper fills a `d` from an `s` without help. -/
def convertible (s d : CollectionKind) : Bool :=
  s == d || (s != dictionary && d != dictionary &&
    (d == sequence || (s == array && d == list) || (s == list && d == array)))

end CollectionKind
end MappingAudit
