/-
# A catalog that is indexed as it grows

Types are looked up by their qualified names and by their names.  A table keeps the positions
of the types under both, and is changed one declaration at a time: a part of a type that is
there is merged into its entry and changes no index, and any other declaration goes to the end
of the table and of one list in each index (`Catalog.Table.add`).

After every declaration both indexes hold what a search through all entries finds
(`Table.Sound`), so the table is the catalog, and nothing is lost: every position stands once
under each of its two names, in order, and every declaration is in an entry with all that it
brings (`nothing_lost`).

If the parts of a type are declared as such and in one namespace, a name means the same type
in whatever order the files come (`resolvedName?_perm`).
-/

import MappingAudit.CSharp.Declarations
import MappingAudit.Proofs.DeclaredNames
import Mathlib.Data.List.Nodup

namespace MappingAudit
namespace Catalog

variable {c : Catalog} {p q : Entry → Bool} {e : Entry} {es : List Entry} {id : Id}
variable {file : Source.File} {files : List Source.File} {d : Source.Declaration}

/-! ### Positions of entries that satisfy a condition -/

/-- The positions of certain entries can be found without the entries. -/
theorem idsWhere_eq (es : List Entry) (p : Entry → Bool) :
    (Catalog.mk es).idsWhere p = ((es.map p).zipIdx.filter (·.1)).map (·.2) := by
  rw [idsWhere, List.zipIdx_map, List.filter_map, List.map_map]
  rfl

/-- An entry at the end has the last position. -/
theorem idsWhere_concat (es : List Entry) (e : Entry) (p : Entry → Bool) :
    (Catalog.mk (es ++ [e])).idsWhere p =
      (Catalog.mk es).idsWhere p ++ if p e then [es.length] else [] := by
  rw [idsWhere_eq, idsWhere_eq, List.map_append, List.zipIdx_append, List.filter_append,
    List.map_append, List.length_map, Nat.zero_add, List.map_singleton]
  congr 1
  cases hp : p e <;> rfl

/-- What changes an entry but not the condition changes no position. -/
theorem idsWhere_modify {f : Entry → Entry} (hp : ∀ e, p (f e) = p e) (es : List Entry) (id : Id) :
    (Catalog.mk (es.modify id f)).idsWhere p = (Catalog.mk es).idsWhere p := by
  have hmap : (es.modify id f).map p = es.map p := by
    apply List.ext_getElem?
    intro i
    rw [List.getElem?_map, List.getElem?_map, List.getElem?_modify]
    split
    · cases es[i]? with
      | none => rfl
      | some e => exact congrArg some (hp e)
    · cases es[i]? <;> rfl
  rw [idsWhere_eq, idsWhere_eq, hmap]

/-- Positions are found in their order. -/
theorem pairwise_idsWhere (c : Catalog) (p : Entry → Bool) :
    (c.idsWhere p).Pairwise (· < ·) := by
  have hrange : c.entries.zipIdx.map (·.2) = List.range c.entries.length := by
    rw [List.zipIdx_map_snd, List.range_eq_range']
  have hsub : (c.idsWhere p).Sublist (List.range c.entries.length) :=
    hrange ▸ List.filter_sublist.map _
  exact List.pairwise_lt_range.sublist hsub

/-- The position of an entry is found once if the entry is asked for, and else never. -/
theorem count_idsWhere (he : c.get? id = some e) (p : Entry → Bool) :
    (c.idsWhere p).count id = if p e then 1 else 0 := by
  have hnodup : (c.idsWhere p).Nodup := (pairwise_idsWhere c p).imp Nat.ne_of_lt
  have hmem : id ∈ c.idsWhere p ↔ p e = true := by
    rw [mem_idsWhere]
    constructor
    · rintro ⟨e', he', hp⟩
      rwa [Option.some.inj (he.symm.trans he')]
    · exact fun hp => ⟨e, he, hp⟩
  rw [hnodup.count]
  simp only [hmem]

/-! ### Indexes -/

/-- Positions of entries by key. -/
abbrev Index := List (String × List Id)

namespace Index

/-- The positions under a key. -/
def ids (ix : Index) (key : String) : List Id := (ix.lookup key).getD []

/-- Puts a position behind those that are under the key already. -/
def push (key : String) (id : Id) : Index → Index
  | [] => [(key, [id])]
  | (k, ids) :: ix => if key = k then (k, ids ++ [id]) :: ix else (k, ids) :: push key id ix

/-- The first key of an index is looked at first. -/
theorem ids_cons (k : String) (is : List Id) (ix : Index) (key : String) :
    ids ((k, is) :: ix) key = if k = key then is else ix.ids key := by
  rw [ids, List.lookup_cons, ids]
  split
  · next hk => rw [if_pos (beq_iff_eq.1 hk).symm, Option.getD_some]
  · next hk => rw [if_neg (Ne.symm (beq_eq_false_iff_ne.1 hk))]

/-- A position that is put under a key stands behind the others there. -/
theorem ids_push (key : String) (id : Id) (ix : Index) (k : String) :
    (push key id ix).ids k = ix.ids k ++ if key = k then [id] else [] := by
  induction ix with
  | nil =>
    rw [push, ids_cons]
    rfl
  | cons r ix ih =>
    obtain ⟨k', is⟩ := r
    rw [push, ids_cons]
    split
    · next hkey =>
      rw [ids_cons, hkey]
      split
      · rfl
      · rw [List.append_nil]
    · next hkey =>
      rw [ids_cons]
      split
      · next hk => rw [if_neg fun h => hkey (h.trans hk.symm), List.append_nil]
      · exact ih

end Index

/-- The index lists the positions of entries: each once, under the key of its entry, and in
order under each key. -/
structure Index.Lists (ix : Index) (es : List Entry) (key : Entry → String) : Prop where
  once (id : Id) (e : Entry) (he : es[id]? = some e) (k : String) :
    (ix.ids k).count id = if key e = k then 1 else 0
  known (k : String) (id : Id) (h : id ∈ ix.ids k) : id < es.length
  ascending (k : String) : (ix.ids k).Pairwise (· < ·)

/-- An index that holds what a search finds lists every position once. -/
theorem Index.lists_of_ids {ix : Index} {key : Entry → String}
    (h : ∀ k, ix.ids k = (Catalog.mk es).idsWhere (key · == k)) : ix.Lists es key where
  once id e he k := by
    rw [h k, count_idsWhere (c := .mk es) he]
    simp only [beq_iff_eq]
  known k id hid := by
    rw [h k] at hid
    obtain ⟨e, he, -⟩ := mem_idsWhere.1 hid
    exact (List.getElem?_eq_some_iff.1 he).1
  ascending k := h k ▸ pairwise_idsWhere _ _

/-- Entries with the positions under the two names of each. -/
structure Table where
  entries : List Entry := []
  byQualifiedName : Index := []
  byName : Index := []

namespace Table

/-- The entry that a declaration is a part of: the first one of its qualified name with as
many type parameters. -/
def whole? (t : Table) (d : Source.Declaration) : Option Id :=
  (t.byQualifiedName.ids d.qualifiedName).find?
    fun id => t.entries[id]?.any (·.arity == d.typeParams.length)

/-- Puts a declaration at the end. -/
def append (t : Table) (file : Source.File) (d : Source.Declaration) : Table where
  entries := t.entries ++ [Entry.ofDeclaration file d]
  byQualifiedName := t.byQualifiedName.push d.qualifiedName t.entries.length
  byName := t.byName.push d.name t.entries.length

/-- Enters a declaration. -/
def add (t : Table) (file : Source.File) (d : Source.Declaration) : Table :=
  match t.whole? d with
  | some id =>
    if d.isPartial then { t with entries := t.entries.modify id (·.merge file d) }
    else t.append file d
  | none => t.append file d

/-- The table of some files. -/
def ofFiles (files : List Source.File) : Table :=
  (parts files).foldl (fun t p => t.add p.1 p.2) {}

/-- The indexes hold what a search through the entries finds. -/
structure Sound (t : Table) : Prop where
  byQualifiedName (key : String) :
    t.byQualifiedName.ids key = (Catalog.mk t.entries).withQualifiedName key
  byName (key : String) : t.byName.ids key = (Catalog.mk t.entries).withName key

variable {t : Table}

/-- The index leads to the entry that a search would find. -/
theorem Sound.whole?_eq (h : t.Sound) (d : Source.Declaration) :
    t.whole? d = t.entries.findIdx? (·.declares d) := by
  calc t.whole? d
      = ((Catalog.mk t.entries).idsWhere (·.qualifiedName == d.qualifiedName)).find?
          ((Catalog.mk t.entries).satisfies (·.arity == d.typeParams.length)) := by
        rw [whole?, h.byQualifiedName]
        rfl
    _ = ((Catalog.mk t.entries).idsWhere (·.declares d)).head? := by
        rw [← List.head?_filter, filter_idsWhere]
        rfl
    _ = t.entries.findIdx? (·.declares d) := head?_idsWhere _ _

/-- Indexes hold a new entry. -/
theorem Sound.append (h : t.Sound) (file : Source.File) (d : Source.Declaration) :
    (t.append file d).Sound where
  byQualifiedName key := by
    rw [Table.append, Index.ids_push, h.byQualifiedName]
    refine Eq.trans ?_ (idsWhere_concat t.entries (Entry.ofDeclaration file d) _).symm
    simp [Entry.ofDeclaration, withQualifiedName]
  byName key := by
    rw [Table.append, Index.ids_push, h.byName]
    refine Eq.trans ?_ (idsWhere_concat t.entries (Entry.ofDeclaration file d) _).symm
    simp [Entry.ofDeclaration, withName]

/-- **One declaration** is entered as in a catalog, and the indexes stay sound. -/
theorem Sound.add (h : t.Sound) (file : Source.File) (d : Source.Declaration) :
    (t.add file d).Sound ∧ Catalog.mk (t.add file d).entries = (Catalog.mk t.entries).add file d := by
  rw [Table.add, Catalog.add, h.whole?_eq]
  cases t.entries.findIdx? (·.declares d) with
  | none => exact ⟨h.append file d, rfl⟩
  | some id =>
    simp only
    split
    · refine ⟨⟨fun key => ?_, fun key => ?_⟩, rfl⟩
      · have hsame (e : Entry) : (e.merge file d).qualifiedName = e.qualifiedName := rfl
        exact (h.byQualifiedName key).trans
          (idsWhere_modify (fun e => by rw [hsame]) t.entries id).symm
      · have hsame (e : Entry) : (e.merge file d).name = e.name := rfl
        exact (h.byName key).trans (idsWhere_modify (fun e => by rw [hsame]) t.entries id).symm
    · exact ⟨h.append file d, rfl⟩

/-- After any declarations the indexes are sound, and the entries are those of the catalog. -/
theorem Sound.foldl_add (h : t.Sound) (ps : List (Source.File × Source.Declaration)) :
    (ps.foldl (fun t p => t.add p.1 p.2) t).Sound ∧
      Catalog.mk (ps.foldl (fun t p => t.add p.1 p.2) t).entries =
        (Catalog.mk t.entries).enterAll ps := by
  induction ps generalizing t with
  | nil => exact ⟨h, rfl⟩
  | cons p ps ih =>
    obtain ⟨hsound, hadd⟩ := h.add p.1 p.2
    obtain ⟨hall, hentries⟩ := ih hsound
    refine ⟨hall, hentries.trans ?_⟩
    rw [hadd]
    rfl

/-- The table is the catalog: what it finds under a name is what the catalog finds, and every
position stands once under each of the two names of its entry. -/
structure Indexes (t : Table) (c : Catalog) : Prop where
  entries_eq : t.entries = c.entries
  ids_byQualifiedName (key : String) : t.byQualifiedName.ids key = c.withQualifiedName key
  ids_byName (key : String) : t.byName.ids key = c.withName key
  byQualifiedName : t.byQualifiedName.Lists c.entries (·.qualifiedName)
  byName : t.byName.Lists c.entries (·.name)

/-- **The table of some files is their catalog.** -/
theorem indexes_ofFiles (files : List Source.File) :
    (ofFiles files).Indexes (Catalog.ofFiles files) := by
  have hempty : Sound {} := ⟨fun _ => rfl, fun _ => rfl⟩
  obtain ⟨hsound, hfold⟩ := hempty.foldl_add (parts files)
  have hcatalog : Catalog.ofFiles files = Catalog.mk (ofFiles files).entries :=
    (Catalog.ofFiles_eq files).trans hfold.symm
  rw [hcatalog]
  exact ⟨rfl, hsound.byQualifiedName, hsound.byName,
    Index.lists_of_ids hsound.byQualifiedName, Index.lists_of_ids hsound.byName⟩

end Table

/-- Every declaration of the files is in an entry. -/
theorem exists_holds_ofFiles (hfile : file ∈ files) (hd : d ∈ file.declarations) :
    ∃ e ∈ (ofFiles files).entries, e.Holds file d := by
  have hpart : (file, d) ∈ parts files :=
    List.mem_flatMap.2 ⟨file, hfile, List.mem_map_of_mem hd⟩
  obtain ⟨before, after, hparts⟩ := List.append_of_mem hpart
  have hentered : IsEntered files file d (place d (enterAll {} before).entries) :=
    ⟨before, after, hparts, rfl⟩
  obtain ⟨e, he, hholds⟩ := hentered.exists_entry
  exact ⟨e, mem_entries_iff.2 ⟨_, he⟩, hholds⟩

/-! ### What lookups see of types -/

/-- What lookups see of a type. -/
structure Signature where
  name : String
  qualifiedName : String
  ns : Option String
  arity : Nat
  deriving DecidableEq

/-- What tells types apart. -/
def Signature.key (s : Signature) : String × Nat := (s.qualifiedName, s.arity)

/-- The name may mean the type, if the number of parameters fits. -/
def Signature.isMeant (ss : List Signature) (name : String) (s : Signature) : Bool :=
  if ss.any (·.qualifiedName == name) then s.qualifiedName == name
  else s.name == lastSegment name &&
    (s.qualifiedName == name || endsIn s.qualifiedName ("." ++ name))

/-- The type that a name means. -/
def meant? (ss : List Signature) (name : String) (n : Nat) (ns : Option String) :
    Option Signature :=
  chosen? (ns.map fun m s => s.ns == some m) (ss.filter fun s => s.isMeant ss name && s.arity == n)

end Catalog

/-- What lookups see of an entry. -/
def Entry.signature (e : Entry) : Catalog.Signature := ⟨e.name, e.qualifiedName, e.ns, e.arity⟩

/-- What lookups see of the entry of a declaration that stands alone. -/
def Source.Declaration.signature (d : Source.Declaration) : Catalog.Signature :=
  ⟨d.name, d.qualifiedName, d.ns, d.typeParams.length⟩

namespace Catalog

variable {c : Catalog} {e : Entry} {d : Source.Declaration} {files files' : List Source.File}
variable {ps : List (Source.File × Source.Declaration)} {ss ss' : List Signature} {s : Signature}

/-- Signatures decide what a name means. -/
theorem resolvedName?_eq (c : Catalog) (name : String) (n : Nat) (ns : Option String) :
    c.resolvedName? name n ns =
      (meant? (c.entries.map Entry.signature) name n ns).map (·.qualifiedName) := by
  let keep : Option (Signature → Bool) := ns.map fun m s => s.ns == some m
  have hkeep : keep.map (· ∘ Entry.signature) = ns.map fun m e => e.ns == some m := by
    cases ns <;> rfl
  have hmeant (e : Entry) : e.signature.isMeant (c.entries.map Entry.signature) name =
      c.mayMean name e := by
    rw [Signature.isMeant, List.any_map]
    rfl
  have hfilter : (c.entries.map Entry.signature).filter
      (fun s => s.isMeant (c.entries.map Entry.signature) name && s.arity == n) =
        (c.entries.filter fun e => c.mayMean name e && e.arity == n).map Entry.signature := by
    rw [List.filter_map]
    refine congrArg _ (List.filter_congr fun e _ => ?_)
    rw [Function.comp_apply, hmeant]
    rfl
  rw [meant?, hfilter, ← map_chosen? Entry.signature keep, hkeep, resolvedName?,
    resolve_bind_get?, Option.map_map]
  rfl

section

variable {α : Type} {xs ys : List α}

/-- The only element of a list is so in every order. -/
theorem only?_perm (h : xs.Perm ys) : only? xs = only? ys := by
  match xs, ys, h with
  | [], ys, h => rw [List.nil_perm.1 h]
  | [x], ys, h => rw [List.singleton_perm.1 h]
  | x :: y :: xs, [], h => exact absurd h.length_eq (by simp)
  | x :: y :: xs, [z], h => exact absurd h.length_eq (by simp)
  | x :: y :: xs, z :: w :: ys, _ => rfl

/-- What is chosen does not depend on the order. -/
theorem chosen?_perm (keep : Option (α → Bool)) (h : xs.Perm ys) :
    chosen? keep xs = chosen? keep ys := by
  match xs, ys, h with
  | [], ys, h => rw [List.nil_perm.1 h]
  | [x], ys, h => rw [List.singleton_perm.1 h]
  | x :: y :: xs, [], h => exact absurd h.length_eq (by simp)
  | x :: y :: xs, [z], h => exact absurd h.length_eq (by simp)
  | x :: y :: xs, z :: w :: ys, h =>
    cases keep with
    | none => rfl
    | some p => exact only?_perm (h.filter p)

end

/-- Which type a name means does not depend on the order of the types. -/
theorem meant?_perm (h : ss.Perm ss') (name : String) (n : Nat) (ns : Option String) :
    meant? ss name n ns = meant? ss' name n ns := by
  have hmeant : Signature.isMeant ss name = Signature.isMeant ss' name := by
    funext s
    rw [Signature.isMeant, Signature.isMeant, h.any_eq]
  rw [meant?, meant?, hmeant]
  exact chosen?_perm _ (h.filter _)

/-! ### Types that are declared in parts -/

/-- Declarations of one qualified name and number of type parameters are parts of a type, and
stand in one namespace. -/
def ArePartsOfOne (p q : Source.File × Source.Declaration) : Prop :=
  p.2.signature.key = q.2.signature.key →
    p.2.isPartial = true ∧ q.2.isPartial = true ∧ p.2.ns = q.2.ns

instance (p q : Source.File × Source.Declaration) : Decidable (ArePartsOfOne p q) :=
  inferInstanceAs (Decidable (_ → _))

instance : Std.Symm ArePartsOfOne := ⟨fun _ _ h hkey =>
  have ⟨hp, hq, hns⟩ := h hkey.symm
  ⟨hq, hp, hns.symm⟩⟩

/-- Every type of the files that is declared more than once is declared in parts, all of them
in one namespace. -/
def OnlyParts (files : List Source.File) : Prop := (parts files).Pairwise ArePartsOfOne

instance (files : List Source.File) : Decidable (OnlyParts files) :=
  inferInstanceAs (Decidable (List.Pairwise _ _))

/-- An entry is the type of a declaration with its qualified name and number of parameters. -/
theorem declares_iff : e.declares d = true ↔ e.signature.key = d.signature.key := by
  rw [Entry.declares, Bool.and_eq_true, beq_iff_eq, beq_iff_eq, Signature.key, Signature.key,
    Prod.mk.injEq]
  rfl

/-- A declaration that is no part of a type that is there brings its own signature. -/
theorem map_signature_entering (file : Source.File) (d : Source.Declaration) (es : List Entry) :
    (entering file d es).map Entry.signature =
      if d.isPartial = true ∧ ∃ e ∈ es, e.declares d = true then es.map Entry.signature
      else es.map Entry.signature ++ [d.signature] := by
  induction es with
  | nil =>
    rw [if_neg (by simp)]
    rfl
  | cons a es ih =>
    rw [entering]
    by_cases hhere : (d.isPartial && a.declares d) = true
    · obtain ⟨hpartial, hdeclares⟩ := Bool.and_eq_true_iff.1 hhere
      rw [if_pos hhere, if_pos ⟨hpartial, a, List.mem_cons_self, hdeclares⟩]
      rfl
    · rw [if_neg hhere, List.map_cons, ih]
      have hrest : (d.isPartial = true ∧ ∃ e ∈ a :: es, e.declares d = true) ↔
          d.isPartial = true ∧ ∃ e ∈ es, e.declares d = true := by
        rw [Bool.and_eq_true, not_and] at hhere
        constructor
        · rintro ⟨hpartial, e, he, hdeclares⟩
          rcases List.mem_cons.1 he with rfl | he
          · exact absurd hdeclares (hhere hpartial)
          · exact ⟨hpartial, e, he, hdeclares⟩
        · rintro ⟨hpartial, e, he, hdeclares⟩
          exact ⟨hpartial, e, List.mem_cons_of_mem a he, hdeclares⟩
      simp only [hrest]
      split <;> rfl

/-- **Each type has one entry**, if types are declared in parts. -/
theorem nodup_key_enterAll (hparts : ps.Pairwise ArePartsOfOne)
    (hfresh : ∀ e ∈ c.entries, ∀ p ∈ ps, e.declares p.2 = true → p.2.isPartial = true)
    (hnodup : (c.entries.map (·.signature.key)).Nodup) :
    ((c.enterAll ps).entries.map (·.signature.key)).Nodup := by
  induction ps generalizing c with
  | nil => exact hnodup
  | cons p ps ih =>
    obtain ⟨hp, hps⟩ := List.pairwise_cons.1 hparts
    have hkeys (es : List Entry) :
        es.map (·.signature.key) = (es.map Entry.signature).map Signature.key := by
      rw [List.map_map]
      rfl
    have hadd := map_signature_entering p.1 p.2 c.entries
    rw [← entries_add] at hadd
    refine ih hps ?fresh ?nodup
    case fresh =>
      intro e he q hq hdeclares
      have hsig : e.signature ∈ (c.add p.1 p.2).entries.map Entry.signature :=
        List.mem_map_of_mem he
      have hcases : e.signature ∈ c.entries.map Entry.signature ∨ e.signature = p.2.signature := by
        rw [hadd] at hsig
        split at hsig
        · exact Or.inl hsig
        · exact (List.mem_append.1 hsig).imp_right List.mem_singleton.1
      rcases hcases with hold | hnew
      · obtain ⟨e', he', hsame⟩ := List.mem_map.1 hold
        refine hfresh e' he' q (List.mem_cons_of_mem p hq) ?_
        rw [declares_iff, hsame]
        exact declares_iff.1 hdeclares
      · rw [declares_iff, hnew] at hdeclares
        exact (hp q hq hdeclares).2.1
    case nodup =>
      rw [hkeys, hadd]
      split
      · rwa [← hkeys]
      · next hnew =>
        rw [List.map_append, ← hkeys]
        refine List.nodup_append.2 ⟨hnodup, List.nodup_singleton _, ?_⟩
        rintro k hk k' hk' rfl
        obtain ⟨e, he, rfl⟩ := List.mem_map.1 hk
        have hdeclares : e.declares p.2 = true := declares_iff.2 (List.mem_singleton.1 hk')
        exact hnew ⟨hfresh e he p List.mem_cons_self hdeclares, e, he, hdeclares⟩

/-- Of the parts of one type all have its signature, if names hold no dots. -/
theorem signature_eq_of_key_eq (hparts : ps.Pairwise ArePartsOfOne)
    (hnames : ∀ p ∈ ps, '.' ∉ p.2.name.toList) {p q : Source.File × Source.Declaration}
    (hp : p ∈ ps) (hq : q ∈ ps) (hkey : p.2.signature.key = q.2.signature.key) :
    p.2.signature = q.2.signature := by
  by_cases hsame : p = q
  · rw [hsame]
  · obtain ⟨-, -, hns⟩ := hparts.forall hp hq hsame hkey
    obtain ⟨hqualified, harity⟩ := Prod.mk.inj hkey
    have hname : p.2.name = q.2.name := by
      have hlast := congrArg lastSegment hqualified
      rwa [Source.Declaration.signature, Source.Declaration.signature,
        Source.Declaration.qualifiedName, Source.Declaration.qualifiedName,
        Source.lastSegment_qualify (hnames p hp), Source.lastSegment_qualify (hnames q hq)] at hlast
    rw [Source.Declaration.signature, Source.Declaration.signature, hname, hns]
    congr 1

/-- The entries have the signatures of the declarations. -/
theorem mem_signatures_iff (hparts : OnlyParts files) (hplain : ∀ f ∈ files, f.HasPlainNames) :
    s ∈ (ofFiles files).entries.map Entry.signature ↔
      ∃ p ∈ parts files, p.2.signature = s := by
  have hnames : ∀ p ∈ parts files, '.' ∉ p.2.name.toList := by
    intro p hp
    obtain ⟨file, hfile, hmem⟩ := List.mem_flatMap.1 hp
    obtain ⟨d, hd, rfl⟩ := List.mem_map.1 hmem
    exact hplain file hfile d hd
  have hbrought : ∀ e ∈ (ofFiles files).entries, ∃ p ∈ parts files, p.2.signature = e.signature := by
    rw [ofFiles_eq]
    exact forall_mem_enterAll (P := fun e => ∃ p ∈ parts files, p.2.signature = e.signature)
      (fun p hp => ⟨p, hp, rfl⟩) (fun _ _ _ h => h) (fun e he => absurd he List.not_mem_nil)
  constructor
  · intro hs
    obtain ⟨e, he, rfl⟩ := List.mem_map.1 hs
    exact hbrought e he
  · rintro ⟨p, hp, rfl⟩
    obtain ⟨file, hfile, hmem⟩ := List.mem_flatMap.1 hp
    obtain ⟨d, hd, rfl⟩ := List.mem_map.1 hmem
    obtain ⟨e, he, hholds⟩ := exists_holds_ofFiles hfile hd
    obtain ⟨q, hq, hsig⟩ := hbrought e he
    have hkey : q.2.signature.key = d.signature.key :=
      (congrArg Signature.key hsig).trans (declares_iff.1 hholds.declares)
    have hsame := signature_eq_of_key_eq hparts hnames hq hp hkey
    exact List.mem_map.2 ⟨e, he, hsig.symm.trans hsame⟩

/-- **Files in another order** give types of the same signatures, if types are declared in
parts and names hold no dots. -/
theorem signatures_perm (hperm : files.Perm files') (hparts : OnlyParts files)
    (hplain : ∀ f ∈ files, f.HasPlainNames) :
    ((ofFiles files).entries.map Entry.signature).Perm
      ((ofFiles files').entries.map Entry.signature) := by
  have hperm' : (parts files).Perm (parts files') := hperm.flatMap_right _
  have hparts' : OnlyParts files' := (hperm'.pairwise_iff (fun h => symm h)).1 hparts
  have hplain' : ∀ f ∈ files', f.HasPlainNames := fun f hf => hplain f (hperm.mem_iff.2 hf)
  have hnodup {files : List Source.File} (h : OnlyParts files) :
      ((ofFiles files).entries.map Entry.signature).Nodup := by
    have hkeys : ((ofFiles files).entries.map (·.signature.key)).Nodup := by
      rw [ofFiles_eq]
      exact nodup_key_enterAll h (fun e he => absurd he List.not_mem_nil) List.nodup_nil
    refine List.Nodup.of_map Signature.key ?_
    rwa [List.map_map]
  refine (List.perm_ext_iff_of_nodup (hnodup hparts) (hnodup hparts')).2 fun s => ?_
  rw [mem_signatures_iff hparts hplain, mem_signatures_iff hparts' hplain']
  simp only [hperm'.mem_iff]

/-- What a name means does not depend on the order of the files then. -/
theorem resolvedName?_perm (hperm : files.Perm files') (hparts : OnlyParts files)
    (hplain : ∀ f ∈ files, f.HasPlainNames) (name : String) (n : Nat) (ns : Option String) :
    (ofFiles files').resolvedName? name n ns = (ofFiles files).resolvedName? name n ns := by
  rw [resolvedName?_eq, resolvedName?_eq, meant?_perm (signatures_perm hperm hparts hplain)]

/-- **Nothing is lost.**  The table that is indexed as it grows is the catalog of the files, and
what it finds under a name is what the catalog finds.  Every position stands once under the
qualified name and once under the name of its entry and nowhere else, in order.  Every
declaration is in an entry of its qualified name and number of type parameters, with its file,
its bases, its imports and a member of each of its members' names.  If types that are declared
more than once are declared in parts, in one namespace each, then every name means the same
type in whatever order the files come; this is so for types whose names hold no dots, as all
names that are read from a text. -/
theorem nothing_lost (files : List Source.File) :
    (Table.ofFiles files).Indexes (ofFiles files) ∧
      (∀ f ∈ files, ∀ d ∈ f.declarations, ∃ e ∈ (ofFiles files).entries, e.Holds f d) ∧
      (∀ path source, (Source.File.read path source).HasPlainNames) ∧
      ((∀ f ∈ files, f.HasPlainNames) → OnlyParts files →
        ∀ files', files.Perm files' → ∀ name n ns,
          (ofFiles files').resolvedName? name n ns = (ofFiles files).resolvedName? name n ns) :=
  ⟨Table.indexes_ofFiles files, fun _ hf _ hd => exists_holds_ofFiles hf hd,
    Source.hasPlainNames_read,
    fun hplain hparts _ hperm => resolvedName?_perm hperm hparts hplain⟩

/-- A type in two parts, each in a file of its own, and a type of another namespace. -/
def twoParts : List Source.File :=
  [.read "A.cs" "namespace N\x7bpartial class P\x7bpublic int X;\x7d\x7d",
    .read "B.cs" "using AutoMapper;namespace N\x7bpartial class P:Q\x7b\x7d\x7dclass R\x7b\x7d"]

set_option maxRecDepth 100000 in
/-- The one type of `twoParts` that is declared twice is declared in parts. -/
theorem onlyParts_twoParts : OnlyParts twoParts := by
  decide +kernel

/-- Its names are names without dots. -/
theorem hasPlainNames_twoParts : ∀ f ∈ twoParts, f.HasPlainNames := by
  intro f hf
  rcases List.mem_cons.1 hf with rfl | hf
  · exact Source.hasPlainNames_read _ _
  · obtain rfl := List.mem_singleton.1 hf
    exact Source.hasPlainNames_read _ _

/-- A name means the same type when the files are swapped. -/
theorem nothing_lost_twoParts :
    (∀ f ∈ twoParts, f.HasPlainNames) ∧ OnlyParts twoParts ∧
      ∀ name n ns, (ofFiles twoParts.reverse).resolvedName? name n ns =
        (ofFiles twoParts).resolvedName? name n ns := by
  obtain ⟨-, -, -, hmeaning⟩ := nothing_lost twoParts
  exact ⟨hasPlainNames_twoParts, onlyParts_twoParts,
    hmeaning hasPlainNames_twoParts onlyParts_twoParts _ (List.reverse_perm twoParts).symm⟩

end Catalog
end MappingAudit
