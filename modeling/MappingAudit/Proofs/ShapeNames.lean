/-
# What the names of a type mean elsewhere

A shape is what a written type means in a namespace.  Its text means the same in another
namespace exactly when each of its names does (`Shape.IsMeant.describe_expr_iff`).  Members
have shapes that are meant by their texts in some namespace
(`Member.isMeant_of_mem_ofShape`), and so have all types that missing mappings are between
(`Missing.of_mem_pairs`).
-/

import MappingAudit.Check.Nested
import MappingAudit.Proofs.NameLookup
import Mathlib.Data.List.Basic

namespace MappingAudit

namespace Catalog

variable {c : Catalog} {t : TypeExpr} {ns : Option String} {id : Id}

/-- A name means a type of the catalog. -/
theorem exists_of_resolveType (h : c.resolveType t ns = some id) : ∃ e, c.get? id = some e := by
  obtain ⟨path, -, h⟩ := Option.bind_eq_some_iff.1 h
  obtain ⟨e, he, -⟩ := mem_idsWhere.1 (mem_candidates_of_resolve h)
  exact ⟨e, he⟩

end Catalog

namespace Shape

mutual

/-- Every name of the type means in a namespace what it stands for. -/
def meansIn (c : Catalog) (ns : Option String) : Shape → Bool
  | builtin _ => true
  | declared path args id _ _ =>
    c.resolveType (.named path (exprs args)) ns == some id && allMeanIn c ns args
  | collection _ _ element => meansIn c ns element
  | dictionary _ k v => meansIn c ns k && meansIn c ns v
  | array element _ => meansIn c ns element
  | tuple items => allMeanIn c ns items
  | nullable inner => meansIn c ns inner
  | unknown t => (c.resolveType t ns).isNone

/-- Every name of the types means in a namespace what it stands for. -/
def allMeanIn (c : Catalog) (ns : Option String) : List Shape → Bool
  | [] => true
  | s :: ss => meansIn c ns s && allMeanIn c ns ss

end

/-! ### The shape of a name -/

variable {c : Catalog} {ns ns' : Option String} {path : List String} {args : List TypeExpr}

/-- A kind of collections has as many arguments as the type it was told from. -/
theorem length_of_classify {name : String} {n : Nat} {kind : CollectionKind}
    (h : CollectionKind.classify name n = some kind) : kind.arity = n := by
  obtain ⟨-, harity⟩ := Option.filter_eq_some_iff.1 h
  exact beq_iff_eq.1 harity

/-- A name is built in, a dictionary, a collection of another kind, or left to the catalog,
whatever the catalog. -/
theorem ofName_cases (path : List String) (args : List TypeExpr) :
    (args = [] ∧ ∀ c ns ss, ofName c ns path args ss = builtin path) ∨
      (∃ a b, args = [a, b] ∧ ∀ c ns k v, ofName c ns path args [k, v] = dictionary path k v) ∨
        (∃ a kind, args = [a] ∧ ∀ c ns e, ofName c ns path args [e] = collection path kind e) ∨
          ∀ c ns ss, ss.length = args.length →
            ofName c ns path args ss = ofCatalog c ns path args ss := by
  by_cases hbuiltin : (args.isEmpty && isBuiltinPath path) = true
  · refine Or.inl ⟨by simpa using (Bool.and_eq_true_iff.1 hbuiltin).1, fun c ns ss => ?_⟩
    simp only [ofName, hbuiltin, if_true]
  · cases hclass : CollectionKind.classify (simple path) args.length with
    | none =>
      refine Or.inr (Or.inr (Or.inr fun c ns ss _ => ?_))
      simp only [ofName, hbuiltin, hclass, Bool.false_eq_true, if_false]
    | some kind =>
      have harity := length_of_classify hclass
      by_cases hkind : kind = .dictionary
      · subst hkind
        obtain ⟨a, b, rfl⟩ := List.length_eq_two.1 harity.symm
        refine Or.inr (Or.inl ⟨a, b, rfl, fun c ns k v => ?_⟩)
        simp only [ofName, hbuiltin, hclass, Bool.false_eq_true, if_false]
      · have hone : args.length = 1 := by
          rw [← harity]
          cases kind <;> first | rfl | exact absurd rfl hkind
        obtain ⟨a, rfl⟩ := List.length_eq_one_iff.1 hone
        refine Or.inr (Or.inr (Or.inl ⟨a, kind, rfl, fun c ns e => ?_⟩))
        simp only [ofName, hbuiltin, hclass, Bool.false_eq_true, if_false]

/-- A name that means nothing is unknown; else it is the type that is declared. -/
theorem ofCatalog_cases (c : Catalog) (ns : Option String) (path : List String)
    (args : List TypeExpr) :
    (c.resolveType (.named path args) ns = none ∧
        ∀ ss, ofCatalog c ns path args ss = unknown (.named path args)) ∨
      ∃ id e, c.resolveType (.named path args) ns = some id ∧ c.get? id = some e ∧
        ∀ ss, ofCatalog c ns path args ss = declared path ss id e.kind e.qualifiedName := by
  cases hid : c.resolveType (.named path args) ns with
  | none => exact Or.inl ⟨rfl, fun ss => by simp only [ofCatalog, hid]⟩
  | some id =>
    obtain ⟨e, he⟩ := Catalog.exists_of_resolveType hid
    exact Or.inr ⟨id, e, rfl, he, fun ss => by simp only [ofCatalog, hid, he]⟩

/-- A type that the catalog decides holds no elements. -/
theorem ownElement?_ofCatalog (c : Catalog) (ns : Option String) (path : List String)
    (args : List TypeExpr) (ss : List Shape) :
    (ofCatalog c ns path args ss).ownElement? = none := by
  rcases ofCatalog_cases c ns path args with ⟨-, h⟩ | ⟨id, e, -, -, h⟩ <;> rw [h, ownElement?] <;>
    simp

/-! ### The text of a shape -/

/-- Several types have as many descriptions. -/
theorem length_describeAll (c : Catalog) (ns : Option String) (ts : List TypeExpr) :
    (describeAll c ns ts).length = ts.length := by
  induction ts with
  | nil => rfl
  | cons t ts ih => rw [describeAll, List.length_cons, List.length_cons, ih]

/-- A name that stands for a declared type has the shape of that type. -/
theorem describe_eq_declared {id : Catalog.Id}
    (h : (describe c ns (.named path args)).id? = some id) :
    ∃ e, c.get? id = some e ∧ describe c ns (.named path args) =
      declared path (describeAll c ns args) id e.kind e.qualifiedName := by
  rw [describe] at h ⊢
  rcases ofName_cases path args with
    ⟨rfl, hshape⟩ | ⟨_, _, rfl, hshape⟩ | ⟨_, _, rfl, hshape⟩ | hshape
  · rw [hshape] at h
    cases h
  · rw [describeAll, describeAll, describeAll, hshape] at h
    cases h
  · rw [describeAll, describeAll, hshape] at h
    cases h
  · rw [hshape c ns _ (length_describeAll c ns args)] at h ⊢
    rcases ofCatalog_cases c ns path args with ⟨-, hshape⟩ | ⟨id', e, -, he, hshape⟩
    · rw [hshape] at h
      cases h
    · rw [hshape] at h ⊢
      obtain rfl := Option.some.inj h
      exact ⟨e, he, rfl⟩

mutual

/-- A shape is written as the type that it is the shape of. -/
theorem expr_describe (c : Catalog) (ns : Option String) :
    ∀ t : TypeExpr, (describe c ns t).expr = t
  | .named path args => by
    have hargs := exprs_describeAll c ns args
    rw [describe]
    rcases ofName_cases path args with
      ⟨rfl, h⟩ | ⟨a, b, rfl, h⟩ | ⟨a, kind, rfl, h⟩ | h
    · rw [h, expr]
    · simp only [describeAll, exprs, List.cons.injEq, and_true] at hargs ⊢
      rw [h, expr, hargs.1, hargs.2]
    · simp only [describeAll, exprs, List.cons.injEq, and_true] at hargs ⊢
      rw [h, expr, hargs]
    · rw [h c ns _ (length_describeAll c ns args)]
      rcases ofCatalog_cases c ns path args with ⟨-, hshape⟩ | ⟨id, e, -, -, hshape⟩
      · rw [hshape, expr]
      · rw [hshape, expr, hargs]
  | .array element rank => by rw [describe, expr, expr_describe c ns element]
  | .nullable inner => by rw [describe, expr, expr_describe c ns inner]
  | .tuple items => by rw [describe, expr, exprs_describeAll c ns items]

/-- Each description keeps its type. -/
theorem exprs_describeAll (c : Catalog) (ns : Option String) :
    ∀ ts : List TypeExpr, exprs (describeAll c ns ts) = ts
  | [] => rfl
  | t :: ts => by rw [describeAll, exprs, expr_describe c ns t, exprs_describeAll c ns ts]

end

mutual

/-- A type has the same shape in another namespace when its names mean the same there. -/
theorem describe_eq_iff (c : Catalog) (ns ns' : Option String) :
    ∀ t : TypeExpr, describe c ns t = describe c ns' t ↔ (describe c ns' t).meansIn c ns = true
  | .named path args => by
    have hargs := describeAll_eq_iff c ns ns' args
    rw [describe, describe]
    rcases ofName_cases path args with
      ⟨rfl, h⟩ | ⟨a, b, rfl, h⟩ | ⟨a, kind, rfl, h⟩ | h
    · simp only [h, meansIn]
    · simp only [describeAll, allMeanIn, List.cons.injEq, and_true, Bool.and_true] at hargs ⊢
      simpa only [h, meansIn, dictionary.injEq, true_and] using hargs
    · simp only [describeAll, allMeanIn, List.cons.injEq, and_true, Bool.and_true] at hargs ⊢
      simpa only [h, meansIn, collection.injEq, true_and] using hargs
    · rw [h c ns _ (length_describeAll c ns args), h c ns' _ (length_describeAll c ns' args)]
      rcases ofCatalog_cases c ns' path args with ⟨-, hshape'⟩ | ⟨id', e', -, he', hshape'⟩
      · rcases ofCatalog_cases c ns path args with ⟨hnone, hshape⟩ | ⟨id, e, hid, -, hshape⟩
        · simp [hshape, hshape', meansIn, hnone]
        · simp [hshape, hshape', meansIn, hid]
      · rw [hshape', meansIn, exprs_describeAll]
        rcases ofCatalog_cases c ns path args with ⟨hnone, hshape⟩ | ⟨id, e, hid, he, hshape⟩
        · simp [hshape, hnone]
        · rw [hshape, hid, Bool.and_eq_true, ← hargs, beq_iff_eq, Option.some.injEq]
          constructor
          · intro heq
            injection heq with _ hss hids
            exact ⟨hids, hss⟩
          · rintro ⟨rfl, hss⟩
            obtain rfl := Option.some.inj (he.symm.trans he')
            rw [hss]
  | .array element rank => by
    simpa only [describe, meansIn, array.injEq, and_true] using describe_eq_iff c ns ns' element
  | .nullable inner => by
    simpa only [describe, meansIn, nullable.injEq] using describe_eq_iff c ns ns' inner
  | .tuple items => by
    simpa only [describe, meansIn, tuple.injEq] using describeAll_eq_iff c ns ns' items

/-- Types have the same descriptions in two namespaces exactly when the names in those of the
second mean the same in the first. -/
theorem describeAll_eq_iff (c : Catalog) (ns ns' : Option String) :
    ∀ ts : List TypeExpr,
      describeAll c ns ts = describeAll c ns' ts ↔ allMeanIn c ns (describeAll c ns' ts) = true
  | [] => by simp only [describeAll, allMeanIn]
  | t :: ts => by
    simp only [describeAll, allMeanIn, List.cons.injEq, Bool.and_eq_true,
      describe_eq_iff c ns ns' t, describeAll_eq_iff c ns ns' ts]

end

/-- The text of the type means the type in some namespace. -/
def IsMeant (c : Catalog) (s : Shape) : Prop := ∃ ns, describe c ns s.expr = s

/-- A description means its type in the namespace it was made for. -/
theorem isMeant_describe (c : Catalog) (ns : Option String) (t : TypeExpr) :
    IsMeant c (describe c ns t) :=
  ⟨ns, by rw [expr_describe]⟩

/-- **The text of a type means the type exactly where all its names do.** -/
theorem IsMeant.describe_expr_iff {s : Shape} (h : IsMeant c s) (ns : Option String) :
    describe c ns s.expr = s ↔ s.meansIn c ns = true := by
  obtain ⟨ns', hs⟩ := h
  have hiff := describe_eq_iff c ns ns' s.expr
  rwa [hs] at hiff

/-! ### Parts of a type -/

namespace IsMeant

variable {s k v element inner : Shape} {kind : CollectionKind} {rank : Nat}

/-- The type within an optional type is meant. -/
theorem of_nullable (h : IsMeant c (.nullable inner)) : IsMeant c inner := by
  obtain ⟨ns, h⟩ := h
  rw [expr, describe, nullable.injEq] at h
  exact ⟨ns, h⟩

/-- So are the elements of an array. -/
theorem of_array (h : IsMeant c (.array element rank)) : IsMeant c element := by
  obtain ⟨ns, h⟩ := h
  rw [expr, describe, array.injEq] at h
  exact ⟨ns, h.1⟩

/-- So are those of a collection. -/
theorem of_collection (h : IsMeant c (.collection path kind element)) : IsMeant c element := by
  obtain ⟨ns, h⟩ := h
  rw [expr, describe, describeAll, describeAll] at h
  rcases ofName_cases path [element.expr] with
    ⟨hargs, -⟩ | ⟨a, b, hargs, -⟩ | ⟨a, kind', -, hshape⟩ | hshape
  · cases hargs
  · cases hargs
  · rw [hshape, collection.injEq] at h
    exact ⟨ns, h.2.2⟩
  · rw [hshape c ns _ rfl] at h
    have hnone := ownElement?_ofCatalog c ns path [element.expr] [describe c ns element.expr]
    rw [h] at hnone
    cases hnone

/-- So are the values of a dictionary. -/
theorem of_dictionary (h : IsMeant c (.dictionary path k v)) : IsMeant c v := by
  obtain ⟨ns, h⟩ := h
  rw [expr, describe, describeAll, describeAll, describeAll] at h
  rcases ofName_cases path [k.expr, v.expr] with
    ⟨hargs, -⟩ | ⟨a, b, -, hshape⟩ | ⟨a, kind', hargs, -⟩ | hshape
  · cases hargs
  · rw [hshape, dictionary.injEq] at h
    exact ⟨ns, h.2.2⟩
  · cases hargs
  · rw [hshape c ns _ rfl] at h
    have hnone := ownElement?_ofCatalog c ns path [k.expr, v.expr]
      [describe c ns k.expr, describe c ns v.expr]
    rw [h] at hnone
    cases hnone

/-- So is a type that is no longer optional. -/
theorem underlying (h : IsMeant c s) : IsMeant c s.underlying := by
  cases s with
  | nullable inner => exact h.of_nullable
  | _ => exact h

/-- So are the elements, whatever the type is. -/
theorem of_ownElement? (h : IsMeant c s) (he : s.ownElement? = some element) :
    IsMeant c element := by
  fun_induction ownElement? s with
  | case1 path kind e => exact Option.some.inj he ▸ h.of_collection
  | case2 path k v => exact Option.some.inj he ▸ h.of_dictionary
  | case3 e rank => exact Option.some.inj he ▸ h.of_array
  | case4 inner ih => exact ih h.of_nullable he
  | case5 => cases he

/-- So is the type that all layers of elements are around. -/
theorem core (h : IsMeant c s) : IsMeant c s.core := by
  fun_induction Shape.core s with
  | case1 path kind e ih => exact ih h.of_collection
  | case2 path k v ih => exact ih h.of_dictionary
  | case3 e rank ih => exact ih h.of_array
  | case4 inner _ ih => exact ih h.of_nullable
  | case5 inner => exact h
  | case6 => exact h

/-- So are the elements in the innermost layer. -/
theorem of_innermost? (h : IsMeant c s) (he : s.innermost? = some element) :
    IsMeant c element := by
  obtain ⟨e, hown, rfl⟩ := Option.map_eq_some_iff.1 he
  exact (h.underlying.of_ownElement? hown).core

end IsMeant
end Shape

/-! ### Members -/

section Members

variable {c : Catalog} {a : Access} {s : Shape} {m : Member}

/-- The types of members are meant, for they are described where they are declared. -/
theorem Member.isMeant_of_mem_ofShape (h : m ∈ Member.ofShape c a s) : m.shape.IsMeant c := by
  rw [ofShape] at h
  split at h
  · split at h
    · obtain ⟨f, -, hm⟩ := List.mem_filterMap.1 h
      obtain ⟨t, -, rfl⟩ := Option.map_eq_some_iff.1 hm
      exact Shape.isMeant_describe c f.ns _
    · exact absurd h List.not_mem_nil
  · exact absurd h List.not_mem_nil

namespace Model

/-- A member that is found by its name is one of the members. -/
theorem mem_of_named? {ms : List Member} {name : String} (h : named? ms name = some m) : m ∈ ms :=
  List.mem_of_find?_eq_some h

/-- The first words name a member, and what is left names one of its members or leads on. -/
theorem flatten?_cases {n : Nat} {words path : List String} {ms : List Member}
    (h : flatten? c (n + 1) words ms = some (path, m)) :
    ∃ k < words.length - 1, ∃ head, named? ms (String.join (words.take (k + 1))) = some head ∧
      head.shape.underlying.isComplex = true ∧
        ((path = [head.name, m.name] ∧
            named? (readableOf c head) (String.join (words.drop (k + 1))) = some m) ∨
          ∃ rest, path = head.name :: rest ∧
            flatten? c n (words.drop (k + 1)) (readableOf c head) = some (rest, m)) := by
  obtain ⟨k, hk, h⟩ := List.exists_of_findSome?_eq_some h
  obtain ⟨head, hhead, h⟩ := Option.bind_eq_some_iff.1 h
  refine ⟨k, List.mem_range.1 hk, head, hhead, ?_⟩
  split at h
  · next hcomplex =>
    refine ⟨hcomplex, ?_⟩
    simp only at h
    split at h
    · next found hfound =>
      obtain ⟨rfl, rfl⟩ := Prod.mk.inj (Option.some.inj h)
      exact Or.inl ⟨rfl, hfound⟩
    · obtain ⟨⟨rest, x⟩, hx, heq⟩ := Option.map_eq_some_iff.1 h
      obtain ⟨rfl, rfl⟩ := Prod.mk.inj heq
      exact Or.inr ⟨rest, rfl, hx⟩
  · cases h

/-- A member at the end of a flattened path has a type that is meant. -/
theorem isMeant_of_flatten? {n : Nat} {words path : List String} {ms : List Member}
    (hms : ∀ x ∈ ms, x.shape.IsMeant c) (h : flatten? c n words ms = some (path, m)) :
    m.shape.IsMeant c := by
  induction n generalizing words ms path with
  | zero => cases h
  | succ n ih =>
    obtain ⟨k, -, head, -, -, hrest⟩ := flatten?_cases h
    have hinner : ∀ x ∈ readableOf c head, x.shape.IsMeant c :=
      fun x hx => Member.isMeant_of_mem_ofShape hx
    rcases hrest with ⟨-, hm⟩ | ⟨rest, -, hrest⟩
    · exact hinner _ (mem_of_named? hm)
    · exact ih hinner hrest

/-- So has the member that a name is matched with. -/
theorem isMeant_of_match? {source : Model} {name : String} {found : SourceMatch}
    (hms : ∀ x ∈ source.members, x.shape.IsMeant c) (h : source.match? c name = some found) :
    found.member.shape.IsMeant c := by
  rw [match?] at h
  split at h
  · next x hx =>
    obtain rfl := Option.some.inj h
    exact hms x (List.mem_of_find?_eq_some hx)
  · split at h
    · next x hx =>
      obtain rfl := Option.some.inj h
      exact hms x (List.mem_of_find?_eq_some hx)
    · obtain ⟨⟨path, x⟩, hx, rfl⟩ := Option.map_eq_some_iff.1 h
      exact isMeant_of_flatten? hms hx

end Model
end Members

/-! ### Missing mappings -/

namespace Missing

/-- The texts of both types mean the types in some namespaces. -/
def IsMeant (c : Catalog) (p : ShapePair) : Prop := p.1.IsMeant c ∧ p.2.IsMeant c

variable {c : Catalog} {registry : Registry} {p : ShapePair}

/-- A mapping that elements need is meant, when their collections are. -/
theorem isMeant_of_ofMembers? {s d : Shape} (hs : s.IsMeant c) (hd : d.IsMeant c)
    (h : ofMembers? s d = some p) : IsMeant c p := by
  rw [ofMembers?] at h
  split at h
  · exact Option.some.inj h ▸ ⟨hs.underlying, hd.underlying⟩
  · obtain ⟨se, hse, h⟩ := Option.bind_eq_some_iff.1 h
    obtain ⟨de, hde, h⟩ := Option.bind_eq_some_iff.1 h
    simp only at h
    split at h
    · exact Option.some.inj h ▸
        ⟨(hs.of_innermost? hse).underlying, (hd.of_innermost? hde).underlying⟩
    · cases h
  · cases h

/-- What a mapping needs is meant. -/
theorem isMeant_of_mem_successors {q : ShapePair} (h : p ∈ successors c q) : IsMeant c p := by
  obtain ⟨d, hd, h⟩ := List.mem_filterMap.1 h
  obtain ⟨found, hfound, h⟩ := Option.bind_eq_some_iff.1 h
  exact isMeant_of_ofMembers?
    (Model.isMeant_of_match? (fun x hx => Member.isMeant_of_mem_ofShape hx) hfound)
    (Member.isMeant_of_mem_ofShape hd) h

/-- Fresh pairs are not registered. -/
theorem of_mem_fresh {found level : List ShapePair} (h : p ∈ fresh registry found level) :
    p ∈ level ∧ registry.containsShapes p.1 p.2 = false := by
  induction level generalizing found with
  | nil => exact absurd h List.not_mem_nil
  | cons q qs ih =>
    rw [fresh] at h
    split at h
    · next hnew =>
      rcases List.mem_cons.1 h with rfl | h
      · rw [isNew, Bool.and_eq_true, Bool.not_eq_true'] at hnew
        exact ⟨List.mem_cons_self, hnew.1⟩
      · exact ⟨List.mem_cons_of_mem _ (ih h).1, (ih h).2⟩
    · exact ⟨List.mem_cons_of_mem _ (ih h).1, (ih h).2⟩

/-- The missing mappings that are added to meant ones are meant, and none of them is registered.
-/
theorem of_mem_close {n : Nat} {found level : List ShapePair}
    (hfound : ∀ q ∈ found, IsMeant c q ∧ registry.containsShapes q.1 q.2 = false)
    (hlevel : ∀ q ∈ level, IsMeant c q) (h : p ∈ close c registry n found level) :
    IsMeant c p ∧ registry.containsShapes p.1 p.2 = false := by
  have hfresh (found level : List ShapePair) (hlevel : ∀ q ∈ level, IsMeant c q) :
      ∀ q ∈ fresh registry found level, IsMeant c q ∧ registry.containsShapes q.1 q.2 = false :=
    fun q hq => ⟨hlevel q (of_mem_fresh hq).1, (of_mem_fresh hq).2⟩
  induction n generalizing found level with
  | zero =>
    rw [close] at h
    rcases List.mem_append.1 h with h | h
    · exact hfound p h
    · exact hfresh found level hlevel p h
  | succ n ih =>
    rw [close] at h
    refine ih (fun q hq => ?_) (fun q hq => ?_) h
    · rcases List.mem_append.1 hq with hq | hq
      · exact hfound q hq
      · exact hfresh found level hlevel q hq
    · obtain ⟨origin, -, hq⟩ := List.mem_flatMap.1 hq
      exact isMeant_of_mem_successors hq

/-- **Missing mappings** are between types that their texts mean somewhere, and none of
them is registered. -/
theorem of_mem_pairs {s d : Shape} (hs : s.IsMeant c) (hd : d.IsMeant c)
    (h : p ∈ pairs c registry s d) :
    IsMeant c p ∧ registry.containsShapes p.1 p.2 = false :=
  of_mem_close (fun q hq => absurd hq List.not_mem_nil)
    (fun q hq => by rw [List.mem_singleton.1 hq]; exact ⟨hs, hd⟩) h

end Missing
end MappingAudit
