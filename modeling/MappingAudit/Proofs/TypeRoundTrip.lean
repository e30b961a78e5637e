/-
# Plain types are read back from their texts

A type is plain when its names are identifiers, it has no shorter spelling, and it says nothing
that its text leaves out (`TypeExpr.IsPlain`).  The conditions are on what a type is made of,
one for each thing that reading changes: a leading `global` would be dropped (`dropGlobal_eq`),
a framework name would become a keyword (`useKeyword_eq`), and `Nullable` of one type or an
optional type made optional again would become `T?`.  So a plain type is in single form
(`IsPlain.isCanonical`) and is read back from its text as it is (`read_toText`).
-/

import MappingAudit.Proofs.TypeTexts

namespace MappingAudit
namespace TypeExpr

/-- A dotted name of identifiers that has no shorter spelling. -/
structure IsPlainPath (path : List String) : Prop where
  nonempty : path ≠ []
  segments : ∀ name ∈ path, name ≠ "" ∧ name.toList.all CharClass.segment = true
  notGlobal : 1 < path.length → path.head? ≠ some "global"
  notFramework : ∀ name ∈ path, (keyword? name).isSome → path ≠ [name] ∧ path ≠ ["System", name]

instance (path : List String) : Decidable (IsPlainPath path) :=
  decidable_of_iff (path ≠ [] ∧
      (∀ name ∈ path, name ≠ "" ∧ name.toList.all CharClass.segment = true) ∧
        (1 < path.length → path.head? ≠ some "global") ∧
          ∀ name ∈ path, (keyword? name).isSome → path ≠ [name] ∧ path ≠ ["System", name])
    ⟨fun ⟨hne, hsegments, hglobal, hframework⟩ => ⟨hne, hsegments, hglobal, hframework⟩,
      fun h => ⟨h.nonempty, h.segments, h.notGlobal, h.notFramework⟩⟩

/-- A type of plain names, without a `Nullable<T>`, a `T??`, an array without dimensions or an
empty tuple anywhere in it. -/
inductive IsPlain : TypeExpr → Prop
  | named {path : List String} {args : List TypeExpr} (hpath : IsPlainPath path)
    (hnullable : args.length = 1 → path.getLast? ≠ some "Nullable")
    (hargs : ∀ a ∈ args, IsPlain a) : IsPlain (named path args)
  | array {element : TypeExpr} {rank : Nat} (hrank : 1 ≤ rank) (helement : IsPlain element) :
    IsPlain (array element rank)
  | nullable {inner : TypeExpr} (hnot : inner.isNullable = false) (hinner : IsPlain inner) :
    IsPlain (nullable inner)
  | tuple {items : List TypeExpr} (hne : items ≠ []) (hitems : ∀ a ∈ items, IsPlain a) :
    IsPlain (tuple items)

/-- The characters of plain names are characters of names, and none of them is `@`. -/
theorem isName_of_segments {name : String} (hne : name ≠ "")
    (h : name.toList.all CharClass.segment = true) : isName name = true := by
  rw [List.all_eq_true] at h
  have hchars : ∀ c ∈ name.toList, Token.nameChar c = true := by
    intro c hc
    have hsegment := h c hc
    rw [CharClass.segment] at hsegment
    rw [Token.nameChar, hsegment, Bool.true_or]
  have hat : name.toList.head? ≠ some '@' := by
    intro hhead
    exact absurd (h '@' (List.mem_of_mem_head? hhead)) (by decide)
  rw [isName, Bool.and_eq_true, Bool.and_eq_true, List.all_eq_true, bne_iff_ne]
  refine ⟨⟨?_, hchars⟩, hat⟩
  simpa using hne

namespace IsPlainPath

variable {path : List String}

/-- A plain path does not start with `global`. -/
theorem dropGlobal_eq (h : IsPlainPath path) : dropGlobal path = path := by
  unfold dropGlobal
  split
  · exact absurd rfl (h.notGlobal (by simp))
  · rfl

/-- It is not one that has a keyword. -/
theorem useKeyword_eq (h : IsPlainPath path) : useKeyword path = path := by
  unfold useKeyword
  split
  · next name =>
    cases hname : keyword? name with
    | none => rfl
    | some k =>
      have hnot := h.notFramework name List.mem_cons_self (by rw [hname]; rfl)
      exact absurd rfl hnot.1
  · next name =>
    cases hname : keyword? name with
    | none => rfl
    | some k =>
      have hnot := h.notFramework name (List.mem_cons_of_mem _ List.mem_cons_self)
        (by rw [hname]; rfl)
      exact absurd rfl hnot.2
  · rfl

end IsPlainPath

/-- Several types are canonical when each of them is. -/
theorem areCanonical_iff {ts : List TypeExpr} :
    areCanonical ts = true ↔ ∀ t ∈ ts, t.isCanonical = true := by
  induction ts with
  | nil => simp [areCanonical]
  | cons t ts ih => simp [areCanonical, ih]

/-- Plain types are in single form. -/
theorem IsPlain.isCanonical {t : TypeExpr} (h : t.IsPlain) : t.isCanonical = true := by
  induction h with
  | @named path args hpath hnullable _ ih =>
    have hnames : path.all isName = true := by
      rw [List.all_eq_true]
      intro name hname
      exact isName_of_segments (hpath.segments name hname).1 (hpath.segments name hname).2
    have hform : useKeyword (dropGlobal path) = path := by
      rw [hpath.dropGlobal_eq, hpath.useKeyword_eq]
    have hlast : (path.getLast? == some "Nullable" && args.length == 1) = false := by
      rw [Bool.and_eq_false_imp]
      intro hlast
      rw [beq_eq_false_iff_ne]
      exact fun hone => hnullable hone (beq_iff_eq.1 hlast)
    have hne : path.isEmpty = false := by simpa using hpath.nonempty
    rw [TypeExpr.isCanonical, hne, hnames, hform, hlast, areCanonical_iff.2 ih, BEq.rfl]
    rfl
  | array hrank _ ih =>
    rw [TypeExpr.isCanonical, ih, Bool.true_and, decide_eq_true_iff]
    exact hrank
  | nullable hnot _ ih =>
    rw [TypeExpr.isCanonical, ih, hnot]
    rfl
  | @tuple items hne _ ih =>
    have hne : items.isEmpty = false := by simpa using hne
    rw [TypeExpr.isCanonical, hne, areCanonical_iff.2 ih]
    rfl

/-- Plain types with one text are one type. -/
theorem IsPlain.eq_of_toText_eq {t u : TypeExpr} (ht : t.IsPlain) (hu : u.IsPlain)
    (h : t.toText = u.toText) : t = u := by
  have hread := read?_toText ht.isCanonical
  rw [h, read?_toText hu.isCanonical] at hread
  exact (Option.some.inj hread).symm

/-- **A plain type is read back from its text.** -/
theorem read_toText {t : TypeExpr} (h : t.IsPlain) : read t.toText = .ok t := by
  have hread := read?_toText h.isCanonical
  rw [read?] at hread
  cases hresult : read t.toText with
  | error e =>
    rw [hresult] at hread
    cases hread
  | ok u =>
    rw [hresult] at hread
    exact congrArg _ (Option.some.inj hread)

/-- A plain name without arguments. -/
theorem isPlain_name {name : String} (h : IsPlainPath [name]) : (named [name] []).IsPlain :=
  .named h (fun hone => absurd hone (by simp)) (fun _ ha => absurd ha List.not_mem_nil)

/-- The rows of a table: `(string, A.B_1<T>[,])?[]`. -/
def rowsType : TypeExpr :=
  .array (.nullable (.tuple [.named ["string"] [],
    .array (.named ["A", "B_1"] [.named ["T"] []]) 2])) 1

/-- The type of the example is plain. -/
theorem isPlain_rowsType : rowsType.IsPlain := by
  have hstring : (named ["string"] []).IsPlain := isPlain_name (by decide +kernel)
  have hT : (named ["T"] []).IsPlain := isPlain_name (by decide +kernel)
  have hB : (named ["A", "B_1"] [named ["T"] []]).IsPlain := by
    refine .named (by decide +kernel) (by decide) ?_
    simpa using hT
  refine .array (Nat.le_refl 1) (.nullable rfl (.tuple (by simp) ?_))
  simpa using And.intro hstring (IsPlain.array (by decide : 1 ≤ 2) hB)

/-- The suffixes of an array of optional tuples are read in the order in which they stand. -/
theorem read_toText_rowsType : rowsType.IsPlain ∧
    rowsType.toText = "(string, A.B_1<T>[,])?[]" ∧
      read "(string, A.B_1<T>[,])?[]" = .ok rowsType := by
  have htext : rowsType.toText = "(string, A.B_1<T>[,])?[]" := by decide +kernel
  have hread := read_toText isPlain_rowsType
  rw [htext] at hread
  exact ⟨isPlain_rowsType, htext, hread⟩

end TypeExpr
end MappingAudit
