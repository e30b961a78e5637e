/-
# The nearest declaration of a name

The members of a type are read off its line of base classes.  The line is what one gets by
going from base class to base class until there is none or one comes again
(`Catalog.isLine_ancestors`).  Of all public declarations of a name along the line the first
one counts, also when it allows less than what is asked for or its type cannot be read; then
the name is not a member, whatever is declared further up.  `nearest_declarations_kept` says
so for every catalog, with bases that lead in a circle and generic ones too.
-/

import MappingAudit.CSharp.Declarations
import MappingAudit.Catalog.Reach
import MappingAudit.Proofs.GenericArguments

namespace MappingAudit

/-! ### The line of base classes -/

/-- There are no more unseen types than types. -/
theorem Reach.unseen_le (n : Nat) (seen : List Nat) : unseen n seen ≤ n := by
  have hle := List.length_filter_le (fun i => !seen.contains i) (List.range n)
  rwa [List.length_range] at hle

namespace Catalog

variable {c : Catalog} {id i j : Id} {seen : List Id} {b : TypeExpr.Bindings} {n : Nat}

/-- The base class of a type. -/
def base? (c : Catalog) (id : Id) : Option Id := (c.parent? id).map (·.1)

/-- The line goes from `id` to its base class, on to the base class of that one and so forth,
past none that is in `seen` and past none twice. -/
structure IsLine (c : Catalog) (seen : List Id) (id : Id) (line : List Id) : Prop where
  head_eq : line.head? = some id
  isChain : line.IsChain fun i j => c.base? i = some j
  nodup : line.Nodup
  not_mem : ∀ i ∈ line, i ∉ seen
  /-- It ends where there is no base class, or only one that came already. -/
  ends : ∀ i ∈ line.getLast?, ∀ j ∈ c.base? i, j ∈ seen ∨ j ∈ line

/-- A type with a base class is in the catalog. -/
theorem lt_size_of_parent? {base : Id × TypeExpr} (h : c.parent? id = some base) : id < c.size := by
  obtain ⟨e, he, -⟩ := Option.bind_eq_some_iff.1 h
  exact (List.getElem?_eq_some_iff.1 he).1

/-- The way up ends at a type that was seen. -/
theorem climb_of_mem (h : id ∈ seen) : c.climb n seen id b = [] := by
  cases n with
  | zero => rfl
  | succ n => rw [climb, if_pos (List.contains_iff_mem.2 h)]

/-- A type whose base class was seen, or that has none, is a line by itself. -/
theorem isLine_singleton (hid : id ∉ seen) (hend : ∀ j ∈ c.base? id, j ∈ id :: seen) :
    c.IsLine seen id [id] where
  head_eq := rfl
  isChain := .singleton _
  nodup := List.nodup_singleton _
  not_mem i hi := by rwa [List.mem_singleton.1 hi]
  ends i hi j hj := by
    obtain rfl : id = i := Option.some.inj hi
    rcases List.mem_cons.1 (hend j hj) with rfl | hseen
    · exact Or.inr (List.mem_singleton_self _)
    · exact Or.inl hseen

/-- The line of the base class goes on the line of a type. -/
theorem IsLine.cons {line : List Id} (hid : id ∉ seen) (hbase : c.base? id = some j)
    (h : c.IsLine (id :: seen) j line) : c.IsLine seen id (id :: line) := by
  obtain ⟨rest, rfl⟩ : ∃ rest, line = j :: rest := by
    cases hline : line with
    | nil =>
      have hhead := h.head_eq
      rw [hline] at hhead
      cases hhead
    | cons a rest =>
      have hhead := h.head_eq
      rw [hline] at hhead
      exact ⟨rest, by rw [Option.some.inj hhead]⟩
  refine ⟨rfl, ?_, ?_, ?_, ?_⟩
  · exact List.isChain_cons_cons.2 ⟨hbase, h.isChain⟩
  · exact List.nodup_cons.2 ⟨fun hmem => h.not_mem id hmem List.mem_cons_self, h.nodup⟩
  · intro i hi
    rcases List.mem_cons.1 hi with rfl | hi
    · exact hid
    · exact fun hseen => h.not_mem i hi (List.mem_cons_of_mem _ hseen)
  · intro i hi k hk
    rw [List.getLast?_cons_cons] at hi
    rcases h.ends i hi k hk with hseen | hline
    · rcases List.mem_cons.1 hseen with rfl | hseen
      · exact Or.inr List.mem_cons_self
      · exact Or.inl hseen
    · exact Or.inr (List.mem_cons_of_mem _ hline)

/-- **The climb goes the whole way up**: as long as its bound exceeds the number of types
that have not come, the bound does not end it. -/
theorem isLine_climb (hid : id ∉ seen) (hn : Reach.unseen c.size seen < n) :
    c.IsLine seen id ((c.climb n seen id b).map (·.1)) := by
  induction n generalizing seen id b with
  | zero => exact absurd hn (Nat.not_lt_zero _)
  | succ n ih =>
    have hcontains : seen.contains id = false := by simpa using hid
    rw [climb, hcontains, if_neg Bool.false_ne_true, List.map_cons]
    cases hparent : c.parent? id with
    | none => exact isLine_singleton hid fun j hj => by simp [base?, hparent] at hj
    | some base =>
      have hbase : c.base? id = some base.1 := by rw [base?, hparent, Option.map_some]
      by_cases hmem : base.1 ∈ id :: seen
      · simp only [climb_of_mem hmem]
        refine isLine_singleton hid fun j hj => ?_
        rw [hbase] at hj
        exact Option.some.inj hj ▸ hmem
      · have hlt := Reach.unseen_cons_lt (lt_size_of_parent? hparent) hcontains
        exact (ih hmem (by omega)).cons hid hbase

/-- Going up without type arguments adds to a chain what the climb with them finds. -/
theorem ancestorsFrom_eq (hid : id ∉ seen) (b : TypeExpr.Bindings) :
    c.ancestorsFrom n (id :: seen) id = seen.reverse ++ (c.climb (n + 1) seen id b).map (·.1) := by
  have hcontains : seen.contains id = false := by simpa using hid
  induction n generalizing seen id b with
  | zero =>
    rw [ancestorsFrom, climb, hcontains, if_neg Bool.false_ne_true, List.reverse_cons]
    cases c.parent? id <;> rfl
  | succ n ih =>
    rw [ancestorsFrom, climb, hcontains, if_neg Bool.false_ne_true]
    cases hparent : c.parent? id with
    | none => exact List.reverse_cons
    | some base =>
      by_cases hmem : base.1 ∈ id :: seen
      · simp only [List.contains_iff_mem.2 hmem, if_true, climb_of_mem hmem]
        exact List.reverse_cons
      · have hnot : (id :: seen).contains base.1 = false := by simpa using hmem
        simp only [hnot, Bool.false_eq_true, if_false]
        rw [ih hmem _ hnot, List.reverse_cons, List.append_assoc]
        rfl

/-- Type arguments have no part in who the base classes are. -/
theorem map_fst_lineage (c : Catalog) (id : Id) (args : List TypeExpr) :
    (c.lineage id args).map (·.1) = c.ancestors id :=
  (ancestorsFrom_eq List.not_mem_nil (c.bind id args)).symm

/-- **The ancestors of a type** are its whole line of base classes. -/
theorem isLine_ancestors (c : Catalog) (id : Id) : c.IsLine [] id (c.ancestors id) := by
  rw [← map_fst_lineage c id []]
  exact isLine_climb List.not_mem_nil (Nat.lt_succ_of_le (Reach.unseen_le c.size []))

/-! ### Declarations along the line -/

/-- The public members of its values that a type declares. -/
def declarations (c : Catalog) (id : Id) : List Source.DeclaredMember :=
  match c.get? id with
  | none => []
  | some e => e.members.filter fun d => d.isPublic && !d.isStatic

/-- The public members that the types of a line declare, one type after the other. -/
def walk (c : Catalog) (line : List Id) : List (Id × Source.DeclaredMember) :=
  line.flatMap fun i => (c.declarations i).map (i, ·)

/-- The first declaration of a name along a line. -/
def nearest? (c : Catalog) (line : List Id) (name : String) :
    Option (Id × Source.DeclaredMember) :=
  (c.walk line).find? (·.2.name == name)

end Catalog

/-! ### Members -/

namespace Member

variable {c : Catalog} {a : Access} {id owner : Catalog.Id} {args : List TypeExpr}
variable {m : Member} {f : Found} {fs : List Found} {name : String}

/-- A declaration with the type that it stands in. -/
def Found.place (f : Found) : Catalog.Id × Source.DeclaredMember := (f.declaring, f.member)

/-- Found members stand where the type of a step declares them. -/
theorem map_place_foundIn (c : Catalog) (step : Catalog.Id × TypeExpr.Bindings) :
    (foundIn c step).map Found.place = (c.declarations step.1).map (step.1, ·) := by
  rw [foundIn, Catalog.declarations]
  cases c.get? step.1 with
  | none => rfl
  | some e => rw [List.map_map]; rfl

/-- Along several steps they are found in the order of the types. -/
theorem map_place_flatMap_foundIn (c : Catalog) (steps : List (Catalog.Id × TypeExpr.Bindings)) :
    (steps.flatMap (foundIn c)).map Found.place = c.walk (steps.map (·.1)) := by
  induction steps with
  | nil => rfl
  | cons step steps ih =>
    rw [List.flatMap_cons, List.map_append, ih, map_place_foundIn]
    rfl

/-- The declarations along the line of a type. -/
def allFound (c : Catalog) (id : Catalog.Id) (args : List TypeExpr) : List Found :=
  (c.lineage id args).flatMap (foundIn c)

/-- The members found for a type are those declared along its ancestors. -/
theorem map_place_allFound (c : Catalog) (id : Catalog.Id) (args : List TypeExpr) :
    (allFound c id args).map Found.place = c.walk (c.ancestors id) := by
  rw [allFound, map_place_flatMap_foundIn, Catalog.map_fst_lineage]

/-- The first declaration of a name is the first one found. -/
theorem nearest?_eq (c : Catalog) (id : Catalog.Id) (args : List TypeExpr) (name : String) :
    c.nearest? (c.ancestors id) name =
      ((allFound c id args).find? (·.member.name == name)).map Found.place := by
  rw [Catalog.nearest?, ← map_place_allFound c id args, List.find?_map]
  rfl

/-- The nearest members are found members, in their order. -/
theorem nearest_sublist (seen : List String) (fs : List Found) : (nearest seen fs).Sublist fs := by
  induction fs generalizing seen with
  | nil => exact .slnil
  | cons f fs ih =>
    rw [nearest]
    split
    · exact (ih seen).cons _
    · exact (ih _).cons_cons _

/-- The first member of a name that was not seen is among the nearest. -/
theorem mem_nearest_of_find? {seen : List String} (hseen : name ∉ seen)
    (h : fs.find? (·.member.name == name) = some f) : f ∈ nearest seen fs := by
  induction fs generalizing seen with
  | nil => cases h
  | cons g fs ih =>
    rw [nearest]
    by_cases hname : g.member.name = name
    · rw [List.find?_cons_of_pos (by simpa using hname)] at h
      obtain rfl := Option.some.inj h
      rw [if_neg (by rwa [List.contains_iff_mem, hname])]
      exact List.mem_cons_self
    · rw [List.find?_cons_of_neg (by simpa using hname)] at h
      split
      · exact ih hseen h
      · refine List.mem_cons_of_mem _ (ih ?_ h)
        rw [List.mem_cons, not_or]
        exact ⟨fun heq => hname heq.symm, hseen⟩

/-- What is kept are the first declarations of their names. -/
theorem mem_nearest_iff : f ∈ nearest [] fs ↔ fs.find? (·.member.name == f.member.name) = some f :=
  ⟨find?_of_mem_nearest, mem_nearest_of_find? List.not_mem_nil⟩

/-- The member is what its declaration `d` says, as a member of the values of `owner`. -/
structure Declares (d : Source.DeclaredMember) (owner : Catalog.Id) (m : Member) : Prop where
  name_eq : m.name = d.name
  owner_eq : m.owner = owner
  readable_eq : m.readable = d.readable
  writable_eq : m.writable = d.writable
  required_eq : m.required = d.isRequired
  span_eq : m.span = d.span

/-- A found member that can be used is what its declaration says. -/
theorem of_ofFound? (h : ofFound? c owner f = some m) :
    m.declaring = f.declaring ∧ Declares f.member owner m := by
  obtain ⟨t, -, rfl⟩ := Option.map_eq_some_iff.1 h
  exact ⟨rfl, ⟨rfl, rfl, rfl, rfl, rfl, rfl⟩⟩

/-- A found member can be used exactly when its type can be read. -/
theorem isSome_ofFound? (c : Catalog) (owner : Catalog.Id) (f : Found) :
    (ofFound? c owner f).isSome = (TypeExpr.read? f.member.typeText).isSome :=
  Option.isSome_map

/-- **Membership**: the first declaration of the name allows the access and has a type that
can be read. -/
theorem mem_ofDeclared_iff :
    m ∈ ofDeclared c a id args ↔
      ∃ f, (allFound c id args).find? (·.member.name == m.name) = some f ∧
        a.admits f.member = true ∧ ofFound? c id f = some m := by
  rw [ofDeclared, List.mem_filterMap]
  constructor
  · rintro ⟨f, hf, hm⟩
    obtain ⟨hnear, hadmits⟩ := List.mem_filter.1 hf
    rw [name_of_ofFound? hm]
    exact ⟨f, mem_nearest_iff.1 hnear, hadmits, hm⟩
  · rintro ⟨f, hfind, hadmits, hm⟩
    rw [name_of_ofFound? hm] at hfind
    exact ⟨f, List.mem_filter.2 ⟨mem_nearest_iff.2 hfind, hadmits⟩, hm⟩

/-- The members that can be used stand in the order of the found ones. -/
theorem map_place_sublist (c : Catalog) (owner : Catalog.Id) (fs : List Found) :
    ((fs.filterMap (ofFound? c owner)).map fun m => (m.declaring, m.name)).Sublist
      (fs.map fun f => (f.declaring, f.member.name)) := by
  induction fs with
  | nil => exact .slnil
  | cons f fs ih =>
    cases h : ofFound? c owner f with
    | none => exact (List.filterMap_cons_none h ▸ ih).cons _
    | some m =>
      rw [List.filterMap_cons_some h, List.map_cons, List.map_cons, name_of_ofFound? h,
        (of_ofFound? h).1]
      exact ih.cons_cons _

/-- Members come in the order of the line. -/
theorem ofDeclared_sublist (c : Catalog) (a : Access) (id : Catalog.Id) (args : List TypeExpr) :
    ((ofDeclared c a id args).map fun m => (m.declaring, m.name)).Sublist
      ((c.walk (c.ancestors id)).map fun p => (p.1, p.2.name)) := by
  rw [← map_place_allFound c id args, List.map_map]
  exact (map_place_sublist c id _).trans
    ((List.filter_sublist.trans (nearest_sublist [] _)).map _)

/-- Members that can be accessed in a way are a part of all members. -/
theorem ofDeclared_eq_filter {p : Member → Bool}
    (hp : ∀ f m, ofFound? c id f = some m → a.admits f.member = p m) :
    ofDeclared c a id args = (ofDeclared c .any id args).filter p := by
  rw [ofDeclared, ofDeclared, List.filterMap_filter, List.filterMap_filter, List.filter_filterMap]
  refine List.filterMap_congr fun f _ => ?_
  show (if a.admits f.member then ofFound? c id f else none) = (ofFound? c id f).filter p
  cases hm : ofFound? c id f with
  | none => simp
  | some m => rw [Option.filter_some, hp f m hm]

/-- The members of a type that is asked for by its shape. -/
theorem ofShape_eq {s : Shape} (hid : s.underlying.id? = some id)
    (hresolved : s.underlying.resolved = true) (a : Access) :
    ofShape c a s = ofDeclared c a id s.underlying.expr.genericArgs := by
  rw [ofShape, hid]
  exact if_pos hresolved

end Member

/-- **The nearest declarations are kept.**  Take any declared type that has a meaning.  Its
line of base classes is followed to its end, whatever the bases are.  The members that are
asked for have different names; a name is among them if and only if its first declaration
along the line allows what is asked for and has a type that can be read.  Each member is what
this declaration says and belongs to the type that it stands in, and members come in the
order of the line.  What can be read, and what can be written, are those of all members that
can. -/
theorem nearest_declarations_kept (c : Catalog) (a : Access) (s : Shape) {id : Catalog.Id}
    (hid : s.underlying.id? = some id) (hresolved : s.underlying.resolved = true) :
    c.IsLine [] id (c.ancestors id) ∧
      ((Member.ofShape c a s).map (·.name)).Nodup ∧
      (∀ name, (∃ m ∈ Member.ofShape c a s, m.name = name) ↔
        ∃ i d, c.nearest? (c.ancestors id) name = some (i, d) ∧ a.admits d = true ∧
          (TypeExpr.read? d.typeText).isSome = true) ∧
      (∀ m ∈ Member.ofShape c a s, ∃ d,
        c.nearest? (c.ancestors id) m.name = some (m.declaring, d) ∧ Member.Declares d id m) ∧
      ((Member.ofShape c a s).map fun m => (m.declaring, m.name)).Sublist
        ((c.walk (c.ancestors id)).map fun p => (p.1, p.2.name)) ∧
      Member.ofShape c .readable s = (Member.ofShape c .any s).filter (·.readable) ∧
      Member.ofShape c .writable s = (Member.ofShape c .any s).filter (·.writable) := by
  refine ⟨c.isLine_ancestors id, Member.nodup_ofShape c a s, ?_⟩
  simp only [Member.ofShape_eq hid hresolved]
  refine ⟨fun name => ?_, fun m hm => ?_, Member.ofDeclared_sublist c a id _,
    Member.ofDeclared_eq_filter fun f m hm => (Member.of_ofFound? hm).2.readable_eq.symm,
    Member.ofDeclared_eq_filter fun f m hm => (Member.of_ofFound? hm).2.writable_eq.symm⟩
  · rw [Member.nearest?_eq c id s.underlying.expr.genericArgs]
    constructor
    · rintro ⟨m, hm, rfl⟩
      obtain ⟨f, hfind, hadmits, hfound⟩ := Member.mem_ofDeclared_iff.1 hm
      refine ⟨f.declaring, f.member, by rw [hfind]; rfl, hadmits, ?_⟩
      rw [← Member.isSome_ofFound? c id, hfound, Option.isSome_some]
    · rintro ⟨i, d, hfind, hadmits, hread⟩
      obtain ⟨f, hf, heq⟩ := Option.map_eq_some_iff.1 hfind
      obtain ⟨rfl, rfl⟩ := Prod.mk.inj heq
      rw [← Member.isSome_ofFound? c id] at hread
      obtain ⟨m, hm⟩ := Option.isSome_iff_exists.1 hread
      have hname : m.name = name :=
        (Member.name_of_ofFound? hm).trans (beq_iff_eq.1 (List.find?_some hf :))
      exact ⟨m, Member.mem_ofDeclared_iff.2 ⟨f, by rwa [hname], hadmits, hm⟩, hname⟩
  · obtain ⟨f, hfind, -, hfound⟩ := Member.mem_ofDeclared_iff.1 hm
    obtain ⟨hdeclaring, hdeclares⟩ := Member.of_ofFound? hfound
    refine ⟨f.member, ?_, hdeclares⟩
    rw [Member.nearest?_eq c id s.underlying.expr.genericArgs, hfind, hdeclaring]
    rfl

/-- A generic type whose base class derives from it in turn.  Of the declarations of the type
one can only be written, one is private and one is static. -/
def circular : Catalog := .ofFiles [.read "M.cs"
  ("class B:D<int>\x7bpublic int Base\x7bget;\x7dpublic int Hidden\x7bget;\x7d" ++
    "public int Secret\x7bget;\x7d\x7dclass D<T>:B\x7bpublic T Own\x7bget;\x7d" ++
    "public T Hidden\x7bset;\x7dprivate T Secret\x7bget;\x7dpublic static T Base\x7bget;\x7d\x7d")]

/-- The type with an argument. -/
def circularShape : Shape := .describe circular none (.named ["D"] [.named ["int"] []])

/-- Where a name is declared first, and whether that can be read and has a known type. -/
def circularNearest (name : String) : Option (Catalog.Id × Bool × Bool) :=
  (circular.nearest? (circular.ancestors 1) name).map fun p =>
    (p.1, Access.readable.admits p.2, (TypeExpr.read? p.2.typeText).isSome)

set_option maxRecDepth 100000 in
/-- The hidden member is found on the type itself, where it cannot be read, and the private one
is passed over for the one of the base class. -/
theorem circularNearest_eq :
    circularShape.underlying.id? = some 1 ∧ circularShape.underlying.resolved = true ∧
      circularNearest "Hidden" = some (1, false, true) ∧
        circularNearest "Secret" = some (0, true, true) := by
  decide +kernel

/-- What can only be written hides the member of the base class, and what is private does
not. -/
theorem nearest_declarations_kept_circular :
    circularShape.underlying.id? = some 1 ∧ circularShape.underlying.resolved = true ∧
      circular.IsLine [] 1 (circular.ancestors 1) ∧
        (¬ ∃ m ∈ Member.ofShape circular .readable circularShape, m.name = "Hidden") ∧
          ∃ m ∈ Member.ofShape circular .readable circularShape,
            m.name = "Secret" ∧ m.declaring = 0 ∧ m.owner = 1 := by
  obtain ⟨hid, hresolved, hhidden, hsecret⟩ := circularNearest_eq
  obtain ⟨hline, -, hmem, hdeclared, -⟩ :=
    nearest_declarations_kept circular .readable circularShape hid hresolved
  refine ⟨hid, hresolved, hline, fun hex => ?_, ?_⟩
  · obtain ⟨i, d, hd, hadmits, -⟩ := (hmem "Hidden").1 hex
    rw [circularNearest, hd, Option.map_some, hadmits] at hhidden
    cases hhidden
  · obtain ⟨⟨i, d⟩, hd, heq⟩ := Option.map_eq_some_iff.1 hsecret
    simp only [Prod.mk.injEq] at heq
    obtain ⟨rfl, hadmits, hread⟩ := heq
    obtain ⟨m, hm, hname⟩ := (hmem "Secret").2 ⟨0, d, hd, hadmits, hread⟩
    obtain ⟨d', hd', hdeclares⟩ := hdeclared m hm
    rw [hname, hd, Option.some.injEq, Prod.mk.injEq] at hd'
    exact ⟨m, hm, hname, hd'.1.symm, hdeclares.owner_eq⟩

end MappingAudit
