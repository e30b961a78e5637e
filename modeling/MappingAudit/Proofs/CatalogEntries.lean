/-
# How the entries of a catalog come about

The declarations of all files are entered one after the other.  Each goes to a place of its
own or becomes part of the entry that is there (`Catalog.place`), entries only ever grow, and
they stay where they are.  So the entry of a declaration holds everything that the declaration
brings (`Catalog.IsEntered.exists_entry`), and an entry's qualified name ends in its name
(`Catalog.exists_containers`).

Parts are merged into an entry of the same number of type parameters.  So types with other
numbers of parameters have no part in an entry: without their declarations the catalog has
the same entries with that number of parameters (`Catalog.entries_withArity`).
-/

import MappingAudit.Catalog.Basic
import Mathlib.Data.List.Basic

namespace MappingAudit

/-! ### Entries that grow -/

namespace Entry

variable {e e' e'' : Entry} {file : Source.File} {d : Source.Declaration}

/-- The entry became the other one by parts that were added to its type. -/
structure GrowsTo (e e' : Entry) : Prop where
  qualifiedName_eq : e'.qualifiedName = e.qualifiedName
  arity_eq : e'.arity = e.arity
  bases_subset : e.bases ⊆ e'.bases
  members_subset : e.members ⊆ e'.members
  files_subset : e.files ⊆ e'.files
  imports : e.importsFramework = true → e'.importsFramework = true

/-- An entry becomes itself. -/
theorem GrowsTo.refl (e : Entry) : e.GrowsTo e where
  qualifiedName_eq := rfl
  arity_eq := rfl
  bases_subset := List.Subset.refl _
  members_subset := List.Subset.refl _
  files_subset := List.Subset.refl _
  imports := id

/-- Parts may be added again. -/
theorem GrowsTo.trans (h : e.GrowsTo e') (h' : e'.GrowsTo e'') : e.GrowsTo e'' where
  qualifiedName_eq := h'.qualifiedName_eq.trans h.qualifiedName_eq
  arity_eq := h'.arity_eq.trans h.arity_eq
  bases_subset := List.Subset.trans h.bases_subset h'.bases_subset
  members_subset := List.Subset.trans h.members_subset h'.members_subset
  files_subset := List.Subset.trans h.files_subset h'.files_subset
  imports := fun himports => h'.imports (h.imports himports)

/-- Adding new elements adds them all and takes none away. -/
theorem mem_foldl_addNew {α : Type} [BEq α] [LawfulBEq α] {x : α} {xs ys : List α} :
    x ∈ ys.foldl addNew xs ↔ x ∈ xs ∨ x ∈ ys := by
  induction ys generalizing xs with
  | nil => simp
  | cons y ys ih =>
    rw [List.foldl_cons, ih, addNew]
    split
    · next hmem =>
      rw [List.contains_iff_mem] at hmem
      constructor
      · exact Or.imp_right (List.mem_cons_of_mem y)
      · rintro (hx | hx)
        · exact Or.inl hx
        · rcases List.mem_cons.1 hx with rfl | hx
          · exact Or.inl hmem
          · exact Or.inr hx
    · simp [or_assoc]

/-- Adding an element keeps the others. -/
theorem mem_addNew {α : Type} [BEq α] [LawfulBEq α] {x y : α} {xs : List α} :
    y ∈ addNew xs x ↔ y ∈ xs ∨ y = x := by
  have hone : y ∈ [x].foldl addNew xs ↔ y ∈ xs ∨ y ∈ [x] := mem_foldl_addNew
  simpa using hone

/-- Members stay when others are added. -/
theorem subset_foldl_addMember (ms added : List Source.DeclaredMember) :
    ms ⊆ added.foldl addMember ms := by
  induction added generalizing ms with
  | nil => exact List.Subset.refl ms
  | cons a added ih =>
    refine List.Subset.trans ?_ (ih (addMember ms a))
    rw [addMember]
    split
    · exact List.Subset.refl ms
    · exact List.subset_append_left ms [a]

/-- Afterwards there is a member of every name that was to be added. -/
theorem exists_mem_foldl_addMember {m : Source.DeclaredMember}
    {added : List Source.DeclaredMember} (h : m ∈ added) (ms : List Source.DeclaredMember) :
    ∃ m' ∈ added.foldl addMember ms, m'.name = m.name := by
  induction added generalizing ms with
  | nil => cases h
  | cons a added ih =>
    rcases List.mem_cons.1 h with rfl | h
    · have hnow : ∃ m' ∈ addMember ms m, m'.name = m.name := by
        rw [addMember]
        split
        · next htaken =>
          obtain ⟨m', hm', hname⟩ := List.any_eq_true.1 htaken
          exact ⟨m', hm', beq_iff_eq.1 hname⟩
        · exact ⟨m, List.mem_append_right ms List.mem_cons_self, rfl⟩
      obtain ⟨m', hm', hname⟩ := hnow
      exact ⟨m', subset_foldl_addMember _ added hm', hname⟩
    · exact ih h (addMember ms a)

/-- Another part adds to an entry. -/
theorem growsTo_merge (e : Entry) (file : Source.File) (d : Source.Declaration) :
    e.GrowsTo (e.merge file d) where
  qualifiedName_eq := rfl
  arity_eq := rfl
  bases_subset _ hb := mem_foldl_addNew.2 (Or.inl hb)
  members_subset := subset_foldl_addMember e.members d.members
  files_subset _ hf := mem_addNew.2 (Or.inl hf)
  imports himports := by rw [merge, himports, Bool.true_or]

/-- The entry is the type of a declaration of the file and has what the declaration brings. -/
structure Holds (e : Entry) (file : Source.File) (d : Source.Declaration) : Prop where
  declares : e.declares d = true
  bases_subset : d.bases ⊆ e.bases
  /-- Members keep their names; of several of one name the first is kept. -/
  members : ∀ m ∈ d.members, ∃ m' ∈ e.members, m'.name = m.name
  file_mem : file.path ∈ e.files
  imports : file.importsFramework = true → e.importsFramework = true

/-- An entry keeps what a declaration brought when parts are added. -/
theorem Holds.mono (h : e.Holds file d) (hgrows : e.GrowsTo e') : e'.Holds file d where
  declares := by
    rw [Entry.declares, hgrows.qualifiedName_eq, hgrows.arity_eq]
    exact h.declares
  bases_subset := List.Subset.trans h.bases_subset hgrows.bases_subset
  members m hm := by
    obtain ⟨m', hm', hname⟩ := h.members m hm
    exact ⟨m', hgrows.members_subset hm', hname⟩
  file_mem := hgrows.files_subset h.file_mem
  imports himports := hgrows.imports (h.imports himports)

/-- A new entry has what its declaration brings. -/
theorem holds_ofDeclaration (file : Source.File) (d : Source.Declaration) :
    (ofDeclaration file d).Holds file d where
  declares := by simp [Entry.declares, ofDeclaration, arity]
  bases_subset := List.Subset.refl _
  members m hm := ⟨m, hm, rfl⟩
  file_mem := List.mem_singleton.2 rfl
  imports := id

/-- An entry has what a further part of it brings. -/
theorem holds_merge (h : e.declares d = true) (file : Source.File) :
    (e.merge file d).Holds file d where
  declares := h
  bases_subset _ hb := mem_foldl_addNew.2 (Or.inr hb)
  members m hm := exists_mem_foldl_addMember hm e.members
  file_mem := mem_addNew.2 (Or.inr rfl)
  imports himports := by rw [merge, himports, Bool.or_true]

end Entry

namespace Catalog

variable {c : Catalog} {file : Source.File} {files : List Source.File} {d : Source.Declaration}
variable {e : Entry} {es : List Entry} {id : Id} {n : Nat}

/-! ### Entering one declaration -/

/-- The entries after a declaration is entered. -/
def entering (file : Source.File) (d : Source.Declaration) : List Entry → List Entry
  | [] => [Entry.ofDeclaration file d]
  | e :: es => if d.isPartial && e.declares d then e.merge file d :: es else e :: entering file d es

/-- The position that a declaration is entered at. -/
def place (d : Source.Declaration) : List Entry → Id
  | [] => 0
  | e :: es => if d.isPartial && e.declares d then 0 else place d es + 1

/-- A declaration that is no part gets an entry at the end. -/
theorem entering_of_not_partial (h : d.isPartial = false) (file : Source.File) (es : List Entry) :
    entering file d es = es ++ [Entry.ofDeclaration file d] := by
  induction es with
  | nil => rfl
  | cons e es ih => simp [entering, h, ih]

/-- Entering a declaration, from entry to entry. -/
theorem entries_add (c : Catalog) (file : Source.File) (d : Source.Declaration) :
    (c.add file d).entries = entering file d c.entries := by
  rcases c with ⟨es⟩
  cases hpartial : d.isPartial with
  | false =>
    rw [entering_of_not_partial hpartial, add]
    cases es.findIdx? (·.declares d) <;> simp [hpartial]
  | true =>
    induction es with
    | nil => rfl
    | cons e es ih =>
      rw [add] at ih ⊢
      simp only [List.findIdx?_cons, entering, hpartial, Bool.true_and, if_true] at ih ⊢
      by_cases hdeclares : e.declares d = true
      · simp only [if_pos hdeclares]
        rfl
      · simp only [if_neg hdeclares, ← ih]
        cases es.findIdx? (·.declares d) <;> rfl

/-- What declarations bring and merging keeps, entering a declaration keeps. -/
theorem forall_mem_entering {P : Entry → Prop} (hnew : P (Entry.ofDeclaration file d))
    (hmerge : ∀ e, P e → P (e.merge file d)) (h : ∀ e ∈ es, P e) :
    ∀ e ∈ entering file d es, P e := by
  induction es with
  | nil => exact fun e he => List.mem_singleton.1 he ▸ hnew
  | cons a es ih =>
    obtain ⟨ha, hes⟩ := List.forall_mem_cons.1 h
    rw [entering]
    split
    · exact List.forall_mem_cons.2 ⟨hmerge a ha, hes⟩
    · exact List.forall_mem_cons.2 ⟨ha, ih hes⟩

/-- Entries stay where they are and only grow. -/
theorem exists_growsTo_entering (file : Source.File) (d : Source.Declaration)
    (h : es[id]? = some e) : ∃ e', (entering file d es)[id]? = some e' ∧ e.GrowsTo e' := by
  induction es generalizing id with
  | nil => cases h
  | cons a es ih =>
    rw [entering]
    cases id with
    | zero =>
      obtain rfl := Option.some.inj h
      split
      · exact ⟨_, rfl, Entry.growsTo_merge _ _ _⟩
      · exact ⟨_, rfl, .refl _⟩
    | succ id =>
      rw [List.getElem?_cons_succ] at h
      split
      · exact ⟨e, h, .refl _⟩
      · exact ih h

/-- The entry at the place of a declaration holds it. -/
theorem exists_holds_entering (file : Source.File) (d : Source.Declaration) (es : List Entry) :
    ∃ e, (entering file d es)[place d es]? = some e ∧ e.Holds file d := by
  induction es with
  | nil => exact ⟨_, rfl, Entry.holds_ofDeclaration file d⟩
  | cons a es ih =>
    rw [entering, place]
    split
    · next h => exact ⟨_, rfl, Entry.holds_merge (Bool.and_eq_true_iff.1 h).2 file⟩
    · exact ih

/-- A declaration with another number of type parameters changes no entry with this one. -/
theorem filter_entering (file : Source.File) (d : Source.Declaration) (es : List Entry) (n : Nat) :
    (entering file d es).filter (·.arity == n) =
      if d.typeParams.length == n then entering file d (es.filter (·.arity == n))
      else es.filter (·.arity == n) := by
  have hnew : (Entry.ofDeclaration file d).arity = d.typeParams.length := rfl
  induction es with
  | nil =>
    rw [List.filter_nil, entering, List.filter_cons, hnew]
    rfl
  | cons a es ih =>
    rw [entering, List.filter_cons (x := a)]
    split
    · next hdeclares =>
      have harity : a.arity = d.typeParams.length := by
        have := (Bool.and_eq_true_iff.1 (Bool.and_eq_true_iff.1 hdeclares).2).2
        exact beq_iff_eq.1 this
      have hmerge : (a.merge file d).arity = d.typeParams.length := harity
      rw [List.filter_cons, hmerge, harity]
      split
      · rw [entering, if_pos hdeclares]
      · rfl
    · next hdeclares =>
      rw [List.filter_cons, ih]
      split
      · split
        · rw [entering, if_neg hdeclares]
        · rfl
      · rfl

/-! ### Entering all declarations -/

/-- The declarations of some files, each with its file. -/
def parts (files : List Source.File) : List (Source.File × Source.Declaration) :=
  files.flatMap fun f => f.declarations.map (f, ·)

/-- Enters declarations one after the other. -/
def enterAll (c : Catalog) (ps : List (Source.File × Source.Declaration)) : Catalog :=
  ps.foldl (fun c p => c.add p.1 p.2) c

/-- The declarations of the first file come first. -/
theorem parts_cons (file : Source.File) (files : List Source.File) :
    parts (file :: files) = file.declarations.map (file, ·) ++ parts files := rfl

/-- The catalog of some files has their declarations entered one after the other. -/
theorem ofFiles_eq (files : List Source.File) : ofFiles files = enterAll {} (parts files) := by
  have hfold (c : Catalog) : files.foldl addFile c = enterAll c (parts files) := by
    induction files generalizing c with
    | nil => rfl
    | cons f files ih =>
      rw [List.foldl_cons, ih, parts_cons, enterAll, enterAll, List.foldl_append, List.foldl_map]
      rfl
  exact hfold {}

variable {ps : List (Source.File × Source.Declaration)}

/-- What declarations bring and merging keeps, every entry has. -/
theorem forall_mem_enterAll {P : Entry → Prop}
    (hnew : ∀ p ∈ ps, P (Entry.ofDeclaration p.1 p.2))
    (hmerge : ∀ e, ∀ p ∈ ps, P e → P (e.merge p.1 p.2)) (h : ∀ e ∈ c.entries, P e) :
    ∀ e ∈ (c.enterAll ps).entries, P e := by
  induction ps generalizing c with
  | nil => exact h
  | cons p ps ih =>
    obtain ⟨hp, hps⟩ := List.forall_mem_cons.1 hnew
    refine ih hps (fun e q hq => hmerge e q (List.mem_cons_of_mem p hq)) ?_
    rw [entries_add]
    exact forall_mem_entering hp (fun e => hmerge e p List.mem_cons_self) h

/-- Entries keep their positions, and further declarations only add to them. -/
theorem exists_growsTo_enterAll (ps : List (Source.File × Source.Declaration))
    (h : c.get? id = some e) :
    ∃ e', (c.enterAll ps).get? id = some e' ∧ e.GrowsTo e' := by
  induction ps generalizing c e with
  | nil => exact ⟨e, h, .refl e⟩
  | cons p ps ih =>
    obtain ⟨e', he', hgrows⟩ := exists_growsTo_entering p.1 p.2 h
    rw [← entries_add] at he'
    obtain ⟨e'', he'', hgrows'⟩ := ih he'
    exact ⟨e'', he'', hgrows.trans hgrows'⟩

/-- The declaration, one of the file's, is entered at the position, after those before it in
the files. -/
def IsEntered (files : List Source.File) (file : Source.File) (d : Source.Declaration)
    (id : Id) : Prop :=
  ∃ before after, parts files = before ++ (file, d) :: after ∧
    place d (enterAll {} before).entries = id

/-- **The entry of a declaration** holds what the declaration brings, whatever is entered
before and after it. -/
theorem IsEntered.exists_entry (h : IsEntered files file d id) :
    ∃ e, (ofFiles files).get? id = some e ∧ e.Holds file d := by
  obtain ⟨before, after, hparts, rfl⟩ := h
  obtain ⟨e, he, hholds⟩ := exists_holds_entering file d (enterAll {} before).entries
  rw [← entries_add] at he
  obtain ⟨e', he', hgrows⟩ := exists_growsTo_enterAll after he
  refine ⟨e', ?_, hholds.mono hgrows⟩
  rw [ofFiles_eq, hparts, enterAll, List.foldl_append]
  exact he'

/-- The first declaration of the first file is entered first. -/
theorem isEntered_zero {ds : List Source.Declaration} (h : file.declarations = d :: ds) :
    IsEntered (file :: files) file d 0 :=
  ⟨[], ds.map (file, ·) ++ parts files, by rw [parts_cons, h]; rfl, rfl⟩

/-- The qualified name of a type is made of its namespace, the types around it and its name. -/
theorem exists_containers (he : e ∈ (ofFiles files).entries) :
    ∃ containers, e.qualifiedName = Source.qualify e.ns (containers ++ [e.name]) := by
  rw [ofFiles_eq] at he
  refine forall_mem_enterAll
    (P := fun e => ∃ cs, e.qualifiedName = Source.qualify e.ns (cs ++ [e.name]))
    (fun p _ => ⟨p.2.containers, rfl⟩) (fun e p _ h => h) ?_ e he
  exact fun e he => absurd he List.not_mem_nil

end Catalog

/-! ### Types of one number of parameters -/

/-- The file without its types that have another number of parameters. -/
def Source.File.withArity (n : Nat) (file : Source.File) : Source.File :=
  { file with declarations := file.declarations.filter (·.typeParams.length == n) }

namespace Catalog

variable {c c' : Catalog} {n : Nat}

/-- Leaving types out of the files leaves their declarations out. -/
theorem parts_withArity (files : List Source.File) (n : Nat) :
    parts (files.map (·.withArity n)) =
      ((parts files).filter (·.2.typeParams.length == n)).map fun p => (p.1.withArity n, p.2) := by
  induction files with
  | nil => rfl
  | cons f files ih =>
    rw [List.map_cons, parts_cons, ih, parts_cons, List.filter_append, List.map_append,
      List.filter_map, List.map_map]
    rfl

/-- Types with another number of parameters change no other entry. -/
theorem entries_enterAll_withArity (ps : List (Source.File × Source.Declaration))
    (h : c'.entries = c.entries.filter (·.arity == n)) :
    (c'.enterAll ((ps.filter (·.2.typeParams.length == n)).map
      fun p => (p.1.withArity n, p.2))).entries =
        (c.enterAll ps).entries.filter (·.arity == n) := by
  induction ps generalizing c c' with
  | nil => exact h
  | cons p ps ih =>
    have hfilter := filter_entering p.1 p.2 c.entries n
    rw [← entries_add] at hfilter
    rw [List.filter_cons]
    split at hfilter
    · next harity =>
      rw [if_pos harity]
      -- Of a file only its path and its imports are entered, and these stay the same.
      have hadd : (c'.add p.1 p.2).entries = (c.add p.1 p.2).entries.filter (·.arity == n) := by
        rw [hfilter, entries_add, h]
      exact ih hadd
    · next harity =>
      rw [if_neg harity]
      have hadd : c'.entries = (c.add p.1 p.2).entries.filter (·.arity == n) :=
        h.trans hfilter.symm
      exact ih hadd

/-- **Without the types of other numbers of parameters** the files give the same entries with
this number of parameters. -/
theorem entries_withArity (files : List Source.File) (n : Nat) :
    (ofFiles (files.map (·.withArity n))).entries =
      (ofFiles files).entries.filter (·.arity == n) := by
  rw [ofFiles_eq, ofFiles_eq, parts_withArity]
  exact entries_enterAll_withArity (parts files) rfl

end Catalog
end MappingAudit
