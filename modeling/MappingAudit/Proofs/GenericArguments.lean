/-
# What becomes of a type argument

A member whose declared type is a type parameter has the type that is given for the parameter,
also where base classes hand it on (`Catalog.lookup_of_mem_climb`).  What is handed on is the
text of the type.  It is read in the namespace of the class that declares the member, not in
the one where it was written: the member has the given type exactly when all names of that
type mean the same in both (`generic_argument_iff`), and `argument_of_other_namespace` shows
a member that gets a type of the same name.
-/

import MappingAudit.CSharp.Declarations
import MappingAudit.Proofs.MemberClasses
import MappingAudit.Proofs.ShapeNames
import MappingAudit.Proofs.Substitutions

namespace MappingAudit

/-! ### Parameters and what is put in their place -/

namespace TypeExpr

/-- A single name without arguments, as type parameters are written. -/
def plainName? : TypeExpr → Option String
  | named [name] [] => some name
  | _ => none

variable {b : Bindings} {t u : TypeExpr} {name : String}

/-- A type of a plain name is that name. -/
theorem eq_of_plainName? (h : t.plainName? = some name) : t = named [name] [] := by
  unfold plainName? at h
  split at h
  · rw [Option.some.inj h]
  · cases h

/-- A bound name stands for its type. -/
theorem substitute_of_plainName? (h : t.plainName? = some name) (hb : b.lookup name = some u) :
    t.substitute b = u := by
  rw [eq_of_plainName? h, substitute, hb, Option.getD_some]

end TypeExpr

namespace Catalog

variable {c : Catalog} {id d : Id} {b bd : TypeExpr.Bindings} {args : List TypeExpr}
variable {n : Nat} {seen : List Id} {p q r : String} {t : TypeExpr}

/-- Arguments may be changed before they are bound or after. -/
theorem bind_map (c : Catalog) (id : Id) (args : List TypeExpr) (f : TypeExpr → TypeExpr) :
    c.bind id (args.map f) = (c.bind id args).map fun p => (p.1, f p.2) := by
  rw [bind, bind]
  split
  · rw [List.zip_map_right, List.map_reverse]
    rfl
  · rfl

/-- **One step up**: a base class whose parameter `q` is given the parameter `p` of the class
below binds it to what `p` is bound to. -/
theorem lookup_bind_substituteAll
    (hq : ((c.bind id args).lookup q).bind (·.plainName?) = some p) (hb : b.lookup p = some t) :
    (c.bind id (TypeExpr.substituteAll b args)).lookup q = some t := by
  obtain ⟨u, hu, hname⟩ := Option.bind_eq_some_iff.1 hq
  rw [TypeExpr.substituteAll_eq_map, bind_map, TypeExpr.lookup_map_snd, hu, Option.map_some,
    TypeExpr.substitute_of_plainName? hname hb]

/-- The parameter `p` of a type is handed on, from base class to base class, as the parameter
`r` of the class `d` in its lineage. -/
inductive HandsOn (c : Catalog) (d : Id) (r : String) : Id → String → Prop where
  | here : HandsOn c d r d r
  /-- The base class has a parameter `q` in whose place `p` is written. -/
  | up {id : Id} {p q : String} {base : Id × TypeExpr} (hne : id ≠ d)
      (hbase : base ∈ c.parent? id)
      (hq : ((c.bind base.1 base.2.genericArgs).lookup q).bind (·.plainName?) = some p)
      (hrest : HandsOn c d r base.1 q) : HandsOn c d r id p

/-- The way up passes no type that was seen. -/
theorem not_mem_of_mem_climb (h : (d, bd) ∈ c.climb n seen id b) : d ∉ seen := by
  induction n generalizing seen id b with
  | zero => exact absurd h List.not_mem_nil
  | succ n ih =>
    rw [climb] at h
    split at h
    · exact absurd h List.not_mem_nil
    next hnew =>
    rcases List.mem_cons.1 h with heq | h
    · obtain ⟨rfl, -⟩ := Prod.mk.inj heq
      simpa using hnew
    · split at h
      · exact fun hmem => ih h (List.mem_cons_of_mem _ hmem)
      · exact absurd h List.not_mem_nil

/-- **The whole way up**: a parameter that is handed on to a class of the lineage is bound
there to what the type itself binds it to. -/
theorem lookup_of_mem_climb (hpass : c.HandsOn d r id p) (h : (d, bd) ∈ c.climb n seen id b)
    (hb : b.lookup p = some t) : bd.lookup r = some t := by
  induction hpass generalizing n seen b with
  | here =>
    cases n with
    | zero => exact absurd h List.not_mem_nil
    | succ n =>
      rw [climb] at h
      split at h
      · exact absurd h List.not_mem_nil
      rcases List.mem_cons.1 h with heq | h
      · rw [(Prod.mk.inj heq).2, hb]
      · split at h
        · exact absurd List.mem_cons_self (not_mem_of_mem_climb h)
        · exact absurd h List.not_mem_nil
  | @up id p q base hne hbase hq _ ih =>
    cases n with
    | zero => exact absurd h List.not_mem_nil
    | succ n =>
      rw [climb, Option.mem_def.1 hbase] at h
      split at h
      · exact absurd h List.not_mem_nil
      rcases List.mem_cons.1 h with heq | h
      · exact absurd (Prod.mk.inj heq).1.symm hne
      · exact ih h (lookup_bind_substituteAll hq hb)

end Catalog

/-! ### Where a member comes from -/

namespace Member

/-- The namespace of the class that declares the member. -/
def ns (c : Catalog) (m : Member) : Option String := (c.get? m.declaring).bind (·.ns)

/-- The declaration of the member: the first of its name in the class that declares it. -/
def declaration? (c : Catalog) (m : Member) : Option Source.DeclaredMember :=
  (c.get? m.declaring).bind fun e =>
    (e.members.filter fun d => d.isPublic && !d.isStatic).find? (·.name == m.name)

variable {c : Catalog} {a : Access} {s : Shape} {m : Member} {f : Found}
variable {owner : Catalog.Id} {args : List TypeExpr}

/-- What is kept is the first of its name. -/
theorem find?_of_mem_nearest {seen : List String} {fs : List Found} (h : f ∈ nearest seen fs) :
    fs.find? (·.member.name == f.member.name) = some f := by
  induction fs generalizing seen with
  | nil => exact absurd h List.not_mem_nil
  | cons g fs ih =>
    have hskip (hne : g.member.name ≠ f.member.name) {seen : List String}
        (h : f ∈ nearest seen fs) :
        (g :: fs).find? (·.member.name == f.member.name) = some f := by
      rw [List.find?_cons_of_neg (by simpa using hne), ih h]
    rw [nearest] at h
    split at h
    · next hseen =>
      refine hskip (fun heq => not_mem_of_mem_nearest h ?_) h
      rwa [← heq, ← List.contains_iff_mem]
    · rcases List.mem_cons.1 h with rfl | h
      · exact List.find?_cons_of_pos (beq_self_eq_true _)
      · exact hskip (fun heq => not_mem_of_mem_nearest h (heq ▸ List.mem_cons_self)) h

/-- A member that is the first of its name in one class. -/
theorem of_find?_foundIn {step : Catalog.Id × TypeExpr.Bindings} {name : String}
    (h : (foundIn c step).find? (·.member.name == name) = some f) :
    ∃ e, c.get? step.1 = some e ∧ f.declaring = step.1 ∧ f.ns = e.ns ∧ f.bindings = step.2 ∧
      (e.members.filter fun d => d.isPublic && !d.isStatic).find? (·.name == name) =
        some f.member := by
  rw [foundIn] at h
  split at h
  · cases h
  · next e he =>
    rw [List.find?_map] at h
    obtain ⟨d, hd, rfl⟩ := Option.map_eq_some_iff.1 h
    exact ⟨e, he, rfl, rfl, rfl, hd⟩

/-- **Where a member comes from**: a class of the lineage declares it, and its type is read
in the namespace of that class, with what the parameters of the class are bound to. -/
theorem of_mem_ofDeclared (h : m ∈ ofDeclared c a owner args) :
    ∃ b d t, (m.declaring, b) ∈ c.lineage owner args ∧ m.declaration? c = some d ∧
      TypeExpr.read? d.typeText = some t ∧
        m.shape = Shape.describe c (m.ns c) (t.substitute b) := by
  obtain ⟨f, hf, hm⟩ := List.mem_filterMap.1 h
  have hfirst := find?_of_mem_nearest (List.mem_filter.1 hf).1
  rw [List.find?_flatMap] at hfirst
  obtain ⟨step, hstep, hfirst⟩ := List.exists_of_findSome?_eq_some hfirst
  obtain ⟨e, he, hdeclaring, hns, hbindings, hd⟩ := of_find?_foundIn hfirst
  obtain ⟨t, ht, rfl⟩ := Option.map_eq_some_iff.1 hm
  refine ⟨step.2, f.member, t, ?_, ?_, ht, ?_⟩
  · rwa [hdeclaring]
  · rw [declaration?, hdeclaring, he, Option.bind_some, hd]
  · rw [ns, hdeclaring, he, Option.bind_some, ← hns, ← hbindings]

/-- The members of a type that is written in a namespace and declared. -/
theorem mem_ofDeclared_of_mem_ofShape {ns : Option String} {path : List String}
    {id : Catalog.Id} (hid : (Shape.describe c ns (.named path args)).id? = some id)
    (h : m ∈ ofShape c a (Shape.describe c ns (.named path args))) :
    m ∈ ofDeclared c a id args := by
  obtain ⟨e, -, hdeclared⟩ := Shape.describe_eq_declared hid
  rw [ofShape, hdeclared] at h
  simp only [Shape.underlying, Shape.id?, Shape.expr, TypeExpr.genericArgs,
    Shape.exprs_describeAll] at h
  split at h
  · exact h
  · exact absurd h List.not_mem_nil

end Member

/-- **What becomes of a type argument.**  Take a declared type with arguments, written in a
namespace, of whose parameters `p` is given the type `t`.  Take any of its members, also an
inherited one, whose declared type is a parameter that `p` is handed on to.  The type of the
member is what `t` means in the namespace of the class that declares it.  This is what `t`
means where it was written, and so of the same key, if and only if every name of `t` means
the same there. -/
theorem generic_argument_iff (c : Catalog) (a : Access) (ns : Option String)
    (path : List String) (args : List TypeExpr) {id : Catalog.Id} {m : Member}
    {d : Source.DeclaredMember} {p r : String} {t : TypeExpr}
    (hid : (Shape.describe c ns (.named path args)).id? = some id)
    (hm : m ∈ Member.ofShape c a (Shape.describe c ns (.named path args)))
    (hd : m.declaration? c = some d)
    (hr : (TypeExpr.read? d.typeText).bind (·.plainName?) = some r)
    (hpass : c.HandsOn m.declaring r id p) (ht : (c.bind id args).lookup p = some t) :
    m.shape = Shape.describe c (m.ns c) t ∧
      (m.shape = Shape.describe c ns t ↔
        (Shape.describe c ns t).meansIn c (m.ns c) = true) ∧
        ((Shape.describe c ns t).meansIn c (m.ns c) = true →
          m.shape.key = (Shape.describe c ns t).key) := by
  obtain ⟨b, d', u, hlineage, hd', hu, hshape⟩ :=
    Member.of_mem_ofDeclared (Member.mem_ofDeclared_of_mem_ofShape hid hm)
  obtain rfl : d = d' := Option.some.inj (hd.symm.trans hd')
  rw [hu, Option.bind_some] at hr
  rw [TypeExpr.substitute_of_plainName? hr (Catalog.lookup_of_mem_climb hpass hlineage ht)]
    at hshape
  have hiff := Shape.describe_eq_iff c (m.ns c) ns t
  rw [← hshape] at hiff
  exact ⟨hshape, hiff, fun hmeans => congrArg Shape.key (hiff.2 hmeans)⟩

/-- The type of the name `I`. -/
def plainI : TypeExpr := .named ["I"] []

/-- The type `A.G<I>`, written in `B`. -/
def genericOfI (c : Catalog) : Shape := Shape.describe c (some "B") (.named ["A", "G"] [plainI])

/-- A generic type that hands its parameter on to its base class, and a type to put in. -/
def holders : Catalog := .ofFiles [.read "M.cs"
  ("namespace A\x7bclass Holder<U>\x7bpublic U Item\x7bget;\x7d\x7d" ++
    "class G<T>:Holder<T>\x7b\x7d\x7dnamespace B\x7brecord I;\x7d")]

set_option maxRecDepth 100000 in
/-- In `holders` an argument is handed on to the base class and means another type there. -/
theorem holders_handOn : (genericOfI holders).id? = some 1 ∧
    (∃ base ∈ holders.parent? 1, base.1 = 0 ∧
      ((holders.bind base.1 base.2.genericArgs).lookup "U").bind (·.plainName?) = some "T") ∧
      ∃ m ∈ Member.ofShape holders .any (genericOfI holders), m.declaring = 0 ∧
        (∃ d ∈ m.declaration? holders,
          (TypeExpr.read? d.typeText).bind (·.plainName?) = some "U") ∧
          ∃ t ∈ (holders.bind 1 [plainI]).lookup "T",
            (Shape.describe holders (some "B") t).key = "B.I" ∧
              (Shape.describe holders (some "B") t).meansIn holders (m.ns holders) = true := by
  decide +kernel

/-- The inherited member has the type that is given for the parameter. -/
theorem generic_argument_inherited :
    ∃ m ∈ Member.ofShape holders .any (genericOfI holders),
      m.declaring = 0 ∧ m.shape.key = "B.I" := by
  obtain ⟨hid, ⟨base, hbase, hdeclaring, hq⟩, m, hm, hdecl, ⟨d, hd, hr⟩, t, ht, hkey, hmeans⟩ :=
    holders_handOn
  have hpass : holders.HandsOn m.declaring "U" 1 "T" := by
    refine .up (by rw [hdecl]; decide) hbase hq ?_
    rw [hdeclaring, hdecl]
    exact .here
  have hkeys := (generic_argument_iff holders .any (some "B") ["A", "G"] [plainI] hid hm hd hr hpass
    ht).2.2 hmeans
  exact ⟨m, hm, hdecl, hkeys.trans hkey⟩

/-- Two types `I`, and a generic type beside one of them. -/
def twoNamespaces : Catalog := .ofFiles [.read "M.cs"
  "namespace A\x7brecord I;record G<T>(T P);\x7dnamespace B\x7brecord I;\x7d"]

set_option maxRecDepth 100000 in
/-- **A type of another namespace is put in**: in `B`, the argument of `A.G<I>` is `B.I`, but
the member whose declared type is the parameter has the type `A.I`. -/
theorem argument_of_other_namespace :
    (genericOfI twoNamespaces).id? = some 1 ∧ (genericOfI twoNamespaces).resolved = true ∧
      (genericOfI twoNamespaces).key = "A.G<B.I>" ∧
        (twoNamespaces.get? 1).map (·.typeParams) = some ["T"] ∧
          (Shape.describe twoNamespaces (some "B") plainI).key = "B.I" ∧
            ∃ m ∈ Member.ofShape twoNamespaces .any (genericOfI twoNamespaces),
              m.name = "P" ∧ m.declaring = 1 ∧
                (m.declaration? twoNamespaces).map (·.typeText) = some "T" ∧
                  m.shape.key = "A.I" := by
  decide +kernel

end MappingAudit
