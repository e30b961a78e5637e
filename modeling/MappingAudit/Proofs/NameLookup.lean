/-
# What a name means among declared types

A name may mean the types that it names in full or, when there are none, those whose
qualified names end in it.  Of these the ones with the right number of parameters count, and
of several the one of the namespace (`Catalog.resolve_bind_get?`).

A type that has the name in full keeps all others out, whatever its number of parameters and
its namespace.  So a type of the global namespace hides one of the namespace where the name
stands (`own_namespace_iff`), and when it has another number of parameters, the name means
nothing there (`own_namespace_hidden`).  Types with other numbers of parameters take part in
no other way (`other_arities_ignored`).
-/

import MappingAudit.CSharp.Declarations
import MappingAudit.Catalog.Resolve
import MappingAudit.Proofs.CatalogEntries
import MappingAudit.Proofs.TextPieces

namespace MappingAudit
namespace Catalog

variable {c : Catalog} {p q : Entry → Bool} {name : String} {ns : Option String}
variable {e : Entry} {id i : Id} {n : Nat}

/-! ### Positions of entries -/

/-- An entry stands at its position. -/
theorem mem_zipIdx_iff {x : Entry × Nat} : x ∈ c.entries.zipIdx ↔ c.get? x.2 = some x.1 := by
  rw [List.mem_zipIdx_iff_getElem?, get?]

/-- A search finds the positions of the entries that are asked for. -/
theorem mem_idsWhere : id ∈ c.idsWhere p ↔ ∃ e, c.get? id = some e ∧ p e = true := by
  simp only [idsWhere, List.mem_map, List.mem_filter]
  constructor
  · rintro ⟨⟨e, i⟩, ⟨hmem, hp⟩, rfl⟩
    exact ⟨e, mem_zipIdx_iff.1 hmem, hp⟩
  · rintro ⟨e, he, hp⟩
    exact ⟨(e, id), ⟨mem_zipIdx_iff.2 he, hp⟩, rfl⟩

/-- Every entry has a position. -/
theorem mem_entries_iff : e ∈ c.entries ↔ ∃ id, c.get? id = some e := List.mem_iff_getElem?

/-- A search depends on what is asked of the entries only. -/
theorem idsWhere_congr (h : ∀ e ∈ c.entries, p e = q e) : c.idsWhere p = c.idsWhere q := by
  refine congrArg (List.map Prod.snd) (List.filter_congr fun x hx => h x.1 ?_)
  exact mem_entries_iff.2 ⟨x.2, mem_zipIdx_iff.1 hx⟩

/-- The entries at the positions are those that the positions were chosen for. -/
theorem map_get?_idsWhere (c : Catalog) (p : Entry → Bool) :
    (c.idsWhere p).map c.get? = (c.entries.filter p).map some := by
  have hget : ∀ x ∈ c.entries.zipIdx.filter fun x => p x.1, c.get? x.2 = some x.1 :=
    fun x hx => mem_zipIdx_iff.1 (List.mem_filter.1 hx).1
  calc (c.idsWhere p).map c.get?
      = (c.entries.zipIdx.filter fun x => p x.1).map fun x => some x.1 := by
        rw [idsWhere, List.map_map]
        exact List.map_congr_left hget
    _ = ((c.entries.zipIdx.map (·.1)).filter p).map some := by
        rw [List.filter_map, List.map_map]
        rfl
    _ = (c.entries.filter p).map some := by rw [List.zipIdx_map_fst]

/-- Of chosen positions those whose entries also satisfy another condition. -/
theorem filter_idsWhere (c : Catalog) (p q : Entry → Bool) :
    (c.idsWhere p).filter (c.satisfies q) = c.idsWhere fun e => p e && q e := by
  have hsatisfies : ∀ x ∈ c.entries.zipIdx.filter fun x => p x.1,
      (c.satisfies q ∘ (·.2)) x = q x.1 := fun x hx => by
    have hx := mem_zipIdx_iff.1 (List.mem_filter.1 hx).1
    rw [Function.comp_apply, satisfies, hx, Option.any_some]
  rw [idsWhere, List.filter_map, List.filter_congr hsatisfies, List.filter_filter]
  exact congrArg (List.map Prod.snd) (List.filter_congr fun x _ => Bool.and_comm _ _)

/-- The first position is that of the first entry that satisfies the condition. -/
theorem head?_idsWhere (c : Catalog) (p : Entry → Bool) :
    (c.idsWhere p).head? = c.entries.findIdx? p := by
  rw [idsWhere, List.head?_map, List.head?_filter, List.findIdx?_eq_fst_find?_zipIdx]

/-! ### Candidates -/

/-- A type has the qualified name. -/
def declaresName (c : Catalog) (name : String) : Bool := c.entries.any (·.qualifiedName == name)

/-- The name may mean the type, if the number of parameters fits. -/
def mayMean (c : Catalog) (name : String) (e : Entry) : Bool :=
  if c.declaresName name then e.qualifiedName == name
  else e.name == lastSegment name && endsWithName name e

/-- Nothing has a qualified name exactly when no type declares it. -/
theorem withQualifiedName_eq_nil_iff : c.withQualifiedName name = [] ↔ c.declaresName name = false := by
  rw [List.eq_nil_iff_forall_not_mem, declaresName, List.any_eq_false]
  constructor
  · intro h e he hname
    obtain ⟨id, hid⟩ := mem_entries_iff.1 he
    exact h id (mem_idsWhere.2 ⟨e, hid, hname⟩)
  · intro h id hid
    obtain ⟨e, he, hname⟩ := mem_idsWhere.1 hid
    exact h e (mem_entries_iff.2 ⟨id, he⟩) hname

/-- The candidates for a name are the types that it may mean. -/
theorem candidates_eq (c : Catalog) (name : String) :
    c.candidates name = c.idsWhere (c.mayMean name) := by
  unfold mayMean
  rw [candidates]
  split
  · next h => simp only [withQualifiedName_eq_nil_iff.1 h, Bool.false_eq_true, if_false]
  · next h =>
    have hdeclares : c.declaresName name = true := by
      rw [← Bool.not_eq_false, ← withQualifiedName_eq_nil_iff]
      exact h
    simp only [hdeclares, if_true]
    rfl

/-! ### The type that is chosen -/

section

variable {α β : Type} {x : α} {xs : List α} {keep : Option (α → Bool)}

/-- Of one element this one, of several the only one that is kept. -/
def chosen? (keep : Option (α → Bool)) : List α → Option α
  | [] => none
  | [x] => some x
  | xs => keep.bind fun p => only? (xs.filter p)

/-- The only element of a list is one of its elements. -/
theorem mem_of_only? (h : only? xs = some x) : x ∈ xs := by
  match xs, h with
  | [y], h => exact Option.some.inj h ▸ List.mem_singleton_self y

/-- A chosen element is one of the elements. -/
theorem mem_of_chosen? (h : chosen? keep xs = some x) : x ∈ xs := by
  match xs, h with
  | [y], h => exact Option.some.inj h ▸ List.mem_singleton_self y
  | y :: z :: xs, h =>
    obtain ⟨p, -, h⟩ := Option.bind_eq_some_iff.1 h
    exact (List.mem_filter.1 (mem_of_only? h)).1

/-- Where one element is kept, it is chosen. -/
theorem chosen?_of_filter {p : α → Bool} (h : xs.filter p = [x]) :
    chosen? (some p) xs = some x := by
  match xs with
  | [] => cases h
  | [y] =>
    have hx : x ∈ [y] := (List.mem_filter.1 (h ▸ List.mem_singleton_self x)).1
    rw [List.mem_singleton.1 hx]
    rfl
  | y :: z :: xs =>
    show only? ((y :: z :: xs).filter p) = some x
    rw [h]
    rfl

/-- The only element can be picked before or after the elements are mapped. -/
theorem map_only? (f : α → β) (xs : List α) : (only? xs).map f = only? (xs.map f) := by
  match xs with
  | [] => rfl
  | [x] => rfl
  | x :: y :: xs => rfl

/-- Elements are chosen by what is kept of them. -/
theorem map_chosen? (f : α → β) (keep : Option (β → Bool)) (xs : List α) :
    (chosen? (keep.map (· ∘ f)) xs).map f = chosen? keep (xs.map f) := by
  match xs, keep with
  | [], _ => rfl
  | [x], _ => rfl
  | x :: y :: xs, none => rfl
  | x :: y :: xs, some p =>
    show (only? ((x :: y :: xs).filter (p ∘ f))).map f = only? (((x :: y :: xs).map f).filter p)
    rw [map_only?, List.filter_map]

end

/-- **What a name means**: the type that is chosen among those that it may mean and that have
the right number of parameters. -/
theorem resolve_eq (c : Catalog) (name : String) (n : Nat) (ns : Option String) :
    c.resolve name n ns = chosen? (ns.map fun m => c.satisfies (·.ns == some m))
      (c.idsWhere fun e => c.mayMean name e && e.arity == n) := by
  rw [← filter_idsWhere, ← candidates_eq, resolve]
  rcases (c.candidates name).filter (c.satisfies (·.arity == n)) with _ | ⟨x, _ | ⟨y, ids⟩⟩
  · rfl
  · rfl
  · cases ns <;> rfl

/-- A name means a candidate with the number of parameters. -/
theorem mem_candidates_of_resolve (h : c.resolve name n ns = some id) :
    id ∈ c.idsWhere fun e => c.mayMean name e && e.arity == n := by
  rw [resolve_eq] at h
  exact mem_of_chosen? h

/-- Its entry is chosen among the entries in the same way. -/
theorem resolve_bind_get? (c : Catalog) (name : String) (n : Nat) (ns : Option String) :
    (c.resolve name n ns).bind c.get? = chosen? (ns.map fun m e => e.ns == some m)
      (c.entries.filter fun e => c.mayMean name e && e.arity == n) := by
  -- Positions are chosen by the entries at them, and the entries are chosen the same way.
  let keep : Option (Option Entry → Bool) := ns.map fun m o => o.any (·.ns == some m)
  have hget : keep.map (· ∘ c.get?) = ns.map fun m => c.satisfies (·.ns == some m) := by
    cases ns <;> rfl
  have hsome : keep.map (· ∘ some) = ns.map fun m e => e.ns == some m := by cases ns <;> rfl
  have hmap : (c.resolve name n ns).map c.get? = (chosen? (ns.map fun m e => e.ns == some m)
      (c.entries.filter fun e => c.mayMean name e && e.arity == n)).map some := by
    rw [resolve_eq, ← hget, map_chosen?, map_get?_idsWhere, ← map_chosen?, hsome]
  have hjoin := congrArg (·.bind id) hmap
  simpa only [Option.bind_map, Function.id_comp, Option.bind_fun_some] using hjoin

/-! ### Types with other numbers of parameters -/

/-- The qualified name of the type that a name means. -/
def resolvedName? (c : Catalog) (name : String) (n : Nat) (ns : Option String) : Option String :=
  ((c.resolve name n ns).bind c.get?).map (·.qualifiedName)

/-- A type has the qualified name, but none with `n` parameters has. -/
def isTaken (c : Catalog) (name : String) (n : Nat) : Bool :=
  c.declaresName name && !c.entries.any fun e => e.qualifiedName == name && e.arity == n

/-- What a name may mean depends on the catalog only by whether its qualified name is declared.
-/
theorem mayMean_congr {c c' : Catalog} (h : c'.declaresName name = c.declaresName name) :
    c'.mayMean name = c.mayMean name := by
  funext e
  rw [mayMean, mayMean, h]

/-- **Types with other numbers of parameters** matter to what a name means only when they have
the name in full and no type with the right number has it.  Then the name means nothing; else
it means what it means in the files without them. -/
theorem other_arities_ignored (files : List Source.File) (name : String) (n : Nat)
    (ns : Option String) :
    (ofFiles files).resolvedName? name n ns =
      if (ofFiles files).isTaken name n then none
      else (ofFiles (files.map (·.withArity n))).resolvedName? name n ns := by
  have hentries := entries_withArity files n
  generalize ofFiles files = c at hentries ⊢
  generalize ofFiles (files.map (·.withArity n)) = c' at hentries ⊢
  rw [resolvedName?, resolvedName?, resolve_bind_get?, resolve_bind_get?, hentries,
    List.filter_filter]
  have hdeclares' : c'.declaresName name =
      c.entries.any fun e => e.qualifiedName == name && e.arity == n := by
    simp only [declaresName, hentries, List.any_filter, Bool.and_comm]
  split
  · next htaken =>
    obtain ⟨hdeclares, hnone⟩ := Bool.and_eq_true_iff.1 htaken
    rw [Bool.not_eq_true', List.any_eq_false] at hnone
    have hnil : c.entries.filter (fun e => c.mayMean name e && e.arity == n) = [] := by
      simpa only [mayMean, if_pos hdeclares, List.filter_eq_nil_iff] using hnone
    rw [hnil]
    rfl
  · next htaken =>
    have hdeclares : c'.declaresName name = c.declaresName name := by
      cases hname : c.declaresName name with
      | true => simpa [isTaken, hname, hdeclares'] using htaken
      | false =>
        rw [declaresName, List.any_eq_false] at hname
        rw [hdeclares', List.any_eq_false]
        exact fun e he h => hname e he (Bool.and_eq_true_iff.1 h).1
    simp only [mayMean_congr hdeclares, Bool.and_assoc, Bool.and_self]

/-- Two types of one name: a generic one of the global namespace, and one of a namespace. -/
def genericNamesake : List Source.File := [.read "P.cs"
  "class I<T>\x7b\x7dnamespace N\x7bclass I\x7b\x7d\x7d"]

set_option maxRecDepth 100000 in
/-- **Another number of parameters gets in the way**: without the generic type the name means
the other one, and with it nothing. -/
theorem other_arity_blocks :
    (ofFiles genericNamesake).resolvedName? "I" 0 none = none ∧
      (ofFiles (genericNamesake.map (·.withArity 0))).resolvedName? "I" 0 none = some "N.I" := by
  decide +kernel

/-! ### The namespace of the text -/

/-- A name without dots is its own last segment. -/
theorem lastSegment_eq_self (h : '.' ∉ name.toList) : lastSegment name = name := by
  have hsplit : Pieces.splitAt (· == '.') name.toList = [name.toList] :=
    Pieces.splitAt_of_forall fun c hc => beq_eq_false_iff_ne.2 fun heq => h (heq ▸ hc)
  rw [lastSegment, Pieces.lastPiece, hsplit]
  exact String.ofList_toList

/-- A type of the global namespace and in no other type is named in full by its name; the
qualified name of any other ends in its name after a dot. -/
theorem qualifiedName_cases {files : List Source.File} (he : e ∈ (ofFiles files).entries) :
    (e.ns = none ∧ e.qualifiedName = e.name) ∨
      ∃ outer, e.qualifiedName = outer ++ "." ++ e.name := by
  obtain ⟨containers, hname⟩ := exists_containers he
  rw [Source.qualify, ← List.append_assoc] at hname
  by_cases hnil : e.ns.toList ++ containers = []
  · refine Or.inl ⟨?_, ?_⟩
    · simpa using (List.append_eq_nil_iff.1 hnil).1
    · rw [hname, hnil]
      simp [Pieces.join]
  · refine Or.inr ⟨Pieces.join "." (e.ns.toList ++ containers), ?_⟩
    rw [hname, Pieces.join_append hnil (List.cons_ne_nil _ _)]
    simp [Pieces.join]

/-- The qualified name of a type of some files ends with its name. -/
theorem endsWithName_name {files : List Source.File} (he : e ∈ (ofFiles files).entries) :
    endsWithName e.name e = true := by
  rw [endsWithName, Bool.or_eq_true]
  rcases qualifiedName_cases he with ⟨-, hname⟩ | ⟨outer, hname⟩
  · exact Or.inl (beq_iff_eq.2 hname)
  · refine Or.inr (List.isSuffixOf_iff_suffix.2 ⟨outer.toList, ?_⟩)
    rw [hname, ← String.toList_append, String.append_assoc]

/-- A name without dots may mean the types of that name, unless a type has it in full. -/
theorem mayMean_eq_name {files : List Source.File} (hname : '.' ∉ name.toList)
    (hdeclares : (ofFiles files).declaresName name = false) (he : e ∈ (ofFiles files).entries) :
    (ofFiles files).mayMean name e = (e.name == name) := by
  rw [mayMean, hdeclares, if_neg Bool.false_ne_true, lastSegment_eq_self hname]
  cases heq : e.name == name with
  | false => rfl
  | true => rw [← beq_iff_eq.1 heq, endsWithName_name he]; rfl

/-- **The namespace of the text comes first** among types of a name without dots.  The name
means the only type of the namespace, with the right number of parameters, if and only if no
type has the name in full, whatever its number of parameters. -/
theorem own_namespace_iff (files : List Source.File) {name m : String} {n : Nat} {id : Id}
    (hname : '.' ∉ name.toList)
    (hid : (ofFiles files).idsWhere
      (fun e => e.name == name && e.arity == n && e.ns == some m) = [id]) :
    (ofFiles files).resolve name n (some m) = some id ↔
      ∀ e ∈ (ofFiles files).entries, e.qualifiedName ≠ name := by
  have hdeclares_iff : (∀ e ∈ (ofFiles files).entries, e.qualifiedName ≠ name) ↔
      (ofFiles files).declaresName name = false := by
    simp [declaresName, List.any_eq_false]
  rw [hdeclares_iff]
  constructor
  · intro h
    obtain ⟨e, he, hmean⟩ := mem_idsWhere.1 (mem_candidates_of_resolve h)
    obtain ⟨e', he', hown⟩ := mem_idsWhere.1 (hid ▸ List.mem_singleton_self id)
    obtain rfl := Option.some.inj (he.symm.trans he')
    rw [Bool.and_eq_true, beq_iff_eq (a := e.ns)] at hown
    rw [← Bool.not_eq_true]
    intro hdeclares
    rw [mayMean, if_pos hdeclares, Bool.and_eq_true, beq_iff_eq] at hmean
    rcases qualifiedName_cases (mem_entries_iff.2 ⟨id, he⟩) with ⟨hns, -⟩ | ⟨outer, hq⟩
    · rw [hns] at hown
      cases hown.2
    · refine hname ?_
      rw [← hmean.1, hq]
      simp [String.toList_append]
  · intro hdeclares
    rw [resolve_eq, Option.map_some]
    refine chosen?_of_filter ?_
    rw [filter_idsWhere, ← hid]
    refine idsWhere_congr fun e he => ?_
    rw [mayMean_eq_name hname hdeclares he]

/-- Types of one name in two namespaces, in one of them a generic one too. -/
def namesakes : List Source.File := [.read "P.cs"
  "namespace M\x7bclass I\x7b\x7d\x7dnamespace N\x7bclass I<T>\x7b\x7dclass I\x7b\x7d\x7d"]

set_option maxRecDepth 100000 in
/-- One type of `namesakes` fits the name in `N` without parameters, and none has it as a
qualified name. -/
theorem namesakes_unique : (ofFiles namesakes).idsWhere
    (fun e => e.name == "I" && e.arity == 0 && e.ns == some "N") = [2] ∧
      ∀ e ∈ (ofFiles namesakes).entries, e.qualifiedName ≠ "I" := by
  decide +kernel

/-- In each namespace the name means its own type. -/
theorem own_namespace_namesakes : '.' ∉ "I".toList ∧
    (ofFiles namesakes).idsWhere (fun e => e.name == "I" && e.arity == 0 && e.ns == some "N") =
      [2] ∧ (ofFiles namesakes).resolve "I" 0 (some "N") = some 2 :=
  ⟨by decide, namesakes_unique.1,
    (own_namespace_iff namesakes (by decide) namesakes_unique.1).2 namesakes_unique.2⟩

set_option maxRecDepth 100000 in
/-- **A type is hidden in its own namespace**: it is the only one of its name there, and the
only one without parameters anywhere, but its name means nothing. -/
theorem own_namespace_hidden :
    (ofFiles genericNamesake).idsWhere
        (fun e => e.name == "I" && e.arity == 0 && e.ns == some "N") = [1] ∧
      (ofFiles genericNamesake).resolve "I" 0 (some "N") = none := by
  decide +kernel

end Catalog
end MappingAudit
