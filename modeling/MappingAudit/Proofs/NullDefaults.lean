/-
# Values in place of null

A source member that may be `null` fills a destination member that may not, and the fix
writes a value to take in place of `null`.  The value is chosen by the destination alone.
Where it is a new collection or a new object, the fix asks for a decision.  Where it is
`default`, the destination is a value type that has no literal; but `default` takes its
type from the source, and for a text it is `null` again.

A source of any type that fits such a destination is a value type, unless it is a text, when
equal keys mean equal types (`null_substituted`).  A text fits an enumeration, and then the
fix changes nothing (`text_stays_null`).
-/

import MappingAudit.CSharp.Declarations
import MappingAudit.Proofs.AuditFindings
import MappingAudit.Proofs.IdenticalShapes
import MappingAudit.Proofs.RedundantSources
import MappingAudit.Proofs.RegisteredTwice
import MappingAudit.Proofs.TextPieces

namespace MappingAudit

/-! ### Names of built-in types -/

namespace Shape

variable {c : Catalog} {ns : Option String} {s d : Shape} {path : List String} {text : String}

/-- The names of builtin types are made of letters. -/
theorem all_isAlpha_builtinNames :
    builtinNames.all (fun n => n.toList.all Char.isAlpha) = true := by
  decide

/-- A text with a mark in it is no built-in name. -/
theorem not_mem_builtinNames (ch : Char) (hch : ch ∈ text.toList)
    (halpha : ch.isAlpha = false) : text ∉ builtinNames := by
  intro hmem
  rw [List.all_eq_true.1 (List.all_eq_true.1 all_isAlpha_builtinNames text hmem) ch hch] at halpha
  cases halpha

/-- A type that is written as a built-in name is built in. -/
theorem exists_describe_eq_builtin (c : Catalog) (ns : Option String) {t : TypeExpr}
    (h : t.toText ∈ builtinNames) : ∃ path, describe c ns t = builtin path := by
  match t with
  | .named [] [] => exact absurd h (by decide)
  | .named [n] [] =>
    have hpath : isBuiltinPath [n] = true := by
      simpa [isBuiltinPath, simple, TypeExpr.toText, Pieces.join] using h
    exact ⟨[n], by simp [describe, ofName, hpath]⟩
  | .named (a :: b :: path) [] =>
    refine absurd h (not_mem_builtinNames '.' ?_ rfl)
    simp [TypeExpr.toText, Pieces.join, String.toList_append]
  | .named path (a :: as) =>
    refine absurd h (not_mem_builtinNames '>' ?_ rfl)
    simp [TypeExpr.toText, String.toList_append]
  | .array element rank =>
    refine absurd h (not_mem_builtinNames ']' ?_ rfl)
    simp [TypeExpr.toText, String.toList_append]
  | .nullable inner =>
    refine absurd h (not_mem_builtinNames '?' ?_ rfl)
    simp [TypeExpr.toText, String.toList_append]
  | .tuple items =>
    refine absurd h (not_mem_builtinNames ')' ?_ rfl)
    simp [TypeExpr.toText, String.toList_append]

namespace IsMeant

/-- What has the name of a built-in type is one. -/
theorem exists_eq_builtin (h : IsMeant c s) (hname : s.name ∈ builtinNames) :
    ∃ path, s = builtin path := by
  cases s with
  | builtin path => exact ⟨path, rfl⟩
  | _ =>
    obtain ⟨ns, hs⟩ := h
    rw [← hs]
    exact exists_describe_eq_builtin c ns hname

/-- The name of a built-in type tells whether it is a value type. -/
theorem isValueType_eq_of_name (h : IsMeant c s) (hname : s.name ∈ builtinNames) :
    s.isValueType = !referenceBuiltins.contains s.name := by
  obtain ⟨path, rfl⟩ := h.exists_eq_builtin hname
  rfl

/-- Built-in types have built-in names. -/
theorem simple_mem_builtinNames (h : IsMeant c (.builtin path)) : simple path ∈ builtinNames := by
  obtain ⟨ns, h⟩ := h
  simp only [expr, describe, describeAll, ofName] at h
  split at h
  · next hbuiltin =>
    simp only [isBuiltinPath, Bool.and_eq_true] at hbuiltin
    exact List.contains_iff_mem.1 hbuiltin.2.2
  · split at h
    · cases h
    · cases h
    · rcases ofCatalog_cases c ns path [] with ⟨-, hshape⟩ | ⟨id, e, -, -, hshape⟩ <;>
        (rw [hshape] at h; cases h)

/-- A declared type is a value type when its declaration says so. -/
theorem exists_isValueType_eq {id : Catalog.Id} (h : IsMeant c s) (hid : s.id? = some id) :
    ∃ e, c.get? id = some e ∧ s.isValueType =
      (e.kind == .struct || e.kind == .recordStruct || e.kind == .enumeration) := by
  fun_induction id? s with
  | case1 path args i kind q =>
    obtain ⟨ns, h⟩ := h
    rw [expr] at h
    obtain ⟨e, he, hdeclared⟩ := describe_eq_declared (congrArg id? h)
    obtain ⟨-, -, -, rfl, -⟩ := declared.inj (h.symm.trans hdeclared)
    exact ⟨e, Option.some.inj hid ▸ he, rfl⟩
  | case2 inner ih => exact ih h.of_nullable hid
  | case3 => cases hid

/-- Types of one declaration are value types together. -/
theorem isValueType_eq {id : Catalog.Id} (hs : IsMeant c s) (hd : IsMeant c d)
    (hsid : s.id? = some id) (hdid : d.id? = some id) : s.isValueType = d.isValueType := by
  obtain ⟨e, he, hsvalue⟩ := hs.exists_isValueType_eq hsid
  obtain ⟨e', he', hdvalue⟩ := hd.exists_isValueType_eq hdid
  obtain rfl := Option.some.inj (he.symm.trans he')
  rw [hsvalue, hdvalue]

end IsMeant

/-! ### Keys of value types -/

/-- An optional type is a value type when the type within it is. -/
@[simp] theorem isValueType_underlying (s : Shape) : s.underlying.isValueType = s.isValueType := by
  cases s <;> rfl

/-- It is a collection when the type within it is. -/
@[simp] theorem isCollection_underlying (s : Shape) :
    s.underlying.isCollection = s.isCollection := by
  cases s <;> rfl

/-- It has members to map when the type within it has. -/
@[simp] theorem isComplex_underlying (s : Shape) : s.underlying.isComplex = s.isComplex := by
  cases s <;> rfl

/-- It is known when the type within it is. -/
@[simp] theorem resolved_underlying (s : Shape) : s.underlying.resolved = s.resolved := by
  cases s <;> rfl

/-- It stands for the declaration that the type within it stands for. -/
@[simp] theorem id?_underlying (s : Shape) : s.underlying.id? = s.id? := by
  cases s <;> rfl

/-- With equal keys, optional or not, the types stand for one declaration or for none, and
both have a meaning or none. -/
def KeysAgree (s d : Shape) : Prop :=
  s.key = d.key ∨ s.underlying.key = d.key → s.resolved = d.resolved ∧ s.id? = d.id?

instance (s d : Shape) : Decidable (s.KeysAgree d) := inferInstanceAs (Decidable (_ → _))

/-- A key with arguments ends with a bracket. -/
theorem getLast?_angled (name key : String) (keys : List String) :
    (name ++ angled (key :: keys)).toList.getLast? = some '>' := by
  rw [angled, if_neg (by simp), ← String.append_assoc, String.toList_append, List.getLast?_append]
  rfl

/-- No mark of a collection or of an optional type ends the key of a plain value type that
nothing declares. -/
theorem getLast?_key_ne (hd : IsMeant c d) (hnull : d.isNullable = false)
    (hvalue : d.isValueType = true) (hid : d.id? = none) (ch : Char) (hch : ch ∈ ['>', ']', '?']) :
    d.key.toList.getLast? ≠ some ch := by
  intro hlast
  have halpha : ch.isAlpha = false ∧ ch ≠ ')' := by
    simp only [List.mem_cons, List.not_mem_nil, or_false] at hch
    rcases hch with rfl | rfl | rfl <;> decide
  cases d with
  | builtin path =>
    exact not_mem_builtinNames ch (List.mem_of_getLast? hlast) halpha.1 hd.simple_mem_builtinNames
  | declared => cases hid
  | tuple items =>
    rw [key, String.toList_append, List.getLast?_append] at hlast
    exact halpha.2 (Option.some.inj hlast).symm
  | nullable => cases hnull
  | _ => cases hvalue

/-- A type with the key of a value type is one too, if the keys agree. -/
theorem isValueType_of_key_eq (hs : IsMeant c s) (hd : IsMeant c d) (hkey : s.key = d.key)
    (hresolved : s.resolved = true) (hid : s.id? = d.id?) (hnull : d.isNullable = false)
    (hvalue : d.isValueType = true) : s.isValueType = true := by
  cases hsid : s.id? with
  | some id => rw [hs.isValueType_eq hd hsid (hid ▸ hsid), hvalue]
  | none =>
    -- The last character of the key tells apart the types that nothing declares.
    have hlast : ∀ ch ∈ ['>', ']', '?'], s.key.toList.getLast? ≠ some ch :=
      hkey ▸ getLast?_key_ne hd hnull hvalue (hid ▸ hsid)
    cases s with
    | builtin path =>
      cases d with
      | builtin path' =>
        rw [key, key] at hkey
        rw [isValueType, hkey]
        exact hvalue
      | declared => rw [id?] at hid; cases hid
      | tuple items =>
        refine absurd hs.simple_mem_builtinNames (not_mem_builtinNames ')' ?_ rfl)
        rw [key] at hkey
        simp [hkey, key, String.toList_append]
      | nullable => cases hnull
      | _ => cases hvalue
    | declared => cases hsid
    | tuple items => rfl
    | unknown => cases hresolved
    | collection path kind element =>
      exact absurd (getLast?_angled _ _ _) (hlast '>' (by decide))
    | dictionary path k v =>
      exact absurd (getLast?_angled _ _ _) (hlast '>' (by decide))
    | array element rank =>
      refine absurd ?_ (hlast ']' (by decide))
      simp only [key, String.toList_append, List.getLast?_append]
      rfl
    | nullable inner =>
      refine absurd ?_ (hlast '?' (by decide))
      simp only [key, String.toList_append, List.getLast?_append]
      rfl

end Shape

/-! ### Values that stand for null -/

namespace Conversion

variable {c : Catalog} {s d : Shape} {name value : String} {k : Confidence}

/-- Types with a literal are built in. -/
theorem mem_builtinNames_of_zero? (h : zero? name = some value) : name ∈ Shape.builtinNames := by
  unfold zero? at h
  split at h <;> cases h <;> decide

/-- The types that others widen to have literals. -/
theorem isSome_zero?_of_mem_wider (a : String) : ∀ b ∈ Shape.wider a, (zero? b).isSome = true := by
  unfold Shape.wider
  split <;> decide

/-- No zero is written `default`. -/
theorem ne_default_of_zero? (h : zero? name = some value) : value ≠ "default" := by
  unfold zero? at h
  split at h <;> cases h <;> decide

/-- A text that starts with another letter is not `default`. -/
theorem ne_default_of_head? (ch : Char) (h : value.toList.head? = some ch) (hch : ch ≠ 'd') :
    value ≠ "default" := by
  rintro rfl
  exact hch (Option.some.inj h).symm

/-- No empty collection is written `default`. -/
theorem ne_default_of_emptyOf? {kind : CollectionKind} {key : Option Shape} {element : String}
    (h : emptyOf? kind key element = some value) : value ≠ "default" := by
  cases kind with
  | dictionary =>
    obtain ⟨k, -, rfl⟩ := Option.map_eq_some_iff.1 h
    exact ne_default_of_head? 'n' (by simp [String.toList_append]) (by decide)
  | array =>
    obtain rfl := Option.some.inj h
    exact ne_default_of_head? 'A' (by simp [String.toList_append]) (by decide)
  | sequence =>
    obtain rfl := Option.some.inj h
    exact ne_default_of_head? 'E' (by simp [String.toList_append]) (by decide)
  | _ =>
    obtain rfl := Option.some.inj h
    exact ne_default_of_head? 'n' (by simp [String.toList_append]) (by decide)

/-- Collections are the types that have elements. -/
theorem isSome_ownElement? (s : Shape) : s.ownElement?.isSome = s.isCollection := by
  rw [Shape.isCollection]
  fun_induction Shape.ownElement? s with
  | case4 inner ih => rw [ih, Shape.ownKind?]
  | case5 s h1 h2 h3 h4 => cases s <;> simp_all [Shape.ownKind?]
  | _ => rfl

/-- What stands for `null` in a type, with the confidence that it is what was meant. -/
inductive Fallback (d : Shape) : String → Confidence → Prop where
  | literal {value : String} (zero_eq : zero? d.underlying.name = some value) :
      Fallback d value .high
  | collection {value : String} (isCollection : d.isCollection = true)
      (ne_default : value ≠ "default") : Fallback d value .low
  | default (zero_eq : zero? d.underlying.name = none) (notCollection : d.isCollection = false)
      (isValueType : d.isValueType = true) (resolved : d.resolved = true) :
      Fallback d "default" .high
  | object {value : String} (isComplex : d.isComplex = true) (ne_default : value ≠ "default") :
      Fallback d value .low

/-- **The value that stands for `null`** is a literal, a new collection, `default` for another
value type, or a new object. -/
theorem fallback_of_nullFallback? (h : nullFallback? d = some (value, k)) :
    Fallback d value k := by
  simp only [nullFallback?] at h
  split at h
  · next z hz =>
    obtain ⟨rfl, rfl⟩ := Prod.mk.inj (Option.some.inj h)
    exact .literal hz
  · next hz =>
    split at h
    · next kind element hkind helement =>
      obtain ⟨e, he, heq⟩ := Option.map_eq_some_iff.1 h
      obtain ⟨rfl, rfl⟩ := Prod.mk.inj heq
      refine .collection ?_ (ne_default_of_emptyOf? he)
      rw [← Shape.isCollection_underlying, Shape.isCollection, hkind, Option.isSome_some]
    · next hnone =>
      have hcollection : d.isCollection = false := by
        rw [← Shape.isCollection_underlying, ← Bool.not_eq_true]
        intro hkind
        have helement := hkind
        rw [← isSome_ownElement?] at helement
        obtain ⟨kind, hkind⟩ := Option.isSome_iff_exists.1 hkind
        obtain ⟨element, helement⟩ := Option.isSome_iff_exists.1 helement
        exact hnone kind element hkind helement
      split at h
      · next hvalue =>
        obtain ⟨rfl, rfl⟩ := Prod.mk.inj (Option.some.inj h)
        simp only [Shape.isValueType_underlying, Shape.resolved_underlying,
          Bool.and_eq_true] at hvalue
        exact .default hz hcollection hvalue.1 hvalue.2
      · split at h
        · next hcomplex =>
          obtain ⟨rfl, rfl⟩ := Prod.mk.inj (Option.some.inj h)
          rw [Shape.isComplex_underlying] at hcomplex
          refine .object hcomplex (ne_default_of_head? 'n' ?_ (by decide))
          simp [String.toList_append]
        · cases h

/-- A literal stands for no collection and no declared type. -/
theorem not_collection_of_zero? (hd : d.IsMeant c) (h : zero? d.underlying.name = some value) :
    d.isCollection = false ∧ d.isComplex = false := by
  obtain ⟨path, hpath⟩ := hd.underlying.exists_eq_builtin (mem_builtinNames_of_zero? h)
  rw [← Shape.isCollection_underlying, ← Shape.isComplex_underlying, hpath]
  exact ⟨rfl, rfl⟩

/-- **A new collection or object needs a decision.** -/
theorem eq_low_of_nullFallback? (hd : d.IsMeant c) (h : nullFallback? d = some (value, k)) :
    (d.isCollection = true → k = .low) ∧
      (d.isComplex = true → d.isValueType = false → k = .low) := by
  cases fallback_of_nullFallback? h with
  | literal zero_eq =>
    obtain ⟨hcollection, hcomplex⟩ := not_collection_of_zero? hd zero_eq
    simp [hcollection, hcomplex]
  | default _ notCollection isValueType _ => simp [notCollection, isValueType]
  | collection => exact ⟨fun _ => rfl, fun _ _ => rfl⟩
  | object => exact ⟨fun _ => rfl, fun _ _ => rfl⟩

/-- `default` is written for value types that have no literal. -/
theorem of_default (h : nullFallback? d = some ("default", k)) :
    zero? d.underlying.name = none ∧ d.isValueType = true ∧ d.resolved = true := by
  cases fallback_of_nullFallback? h with
  | literal zero_eq => exact absurd rfl (ne_default_of_zero? zero_eq)
  | default zero_eq _ isValueType resolved => exact ⟨zero_eq, isValueType, resolved⟩
  | collection _ ne_default => exact absurd rfl ne_default
  | object _ ne_default => exact absurd rfl ne_default

end Conversion

/-! ### What fits a value type without a literal -/

namespace Shape

variable {c : Catalog} {s d : Shape} {k : Confidence}

/-- What is optional and has no place for `null`: types of one key, or scalars that fit. -/
theorem fit_eq_nullToValue (h : s.fit d = .nullToValue) :
    s.isNullable = true ∧ d.isNullable = false ∧
      (s.sameUnderlying d = true ∨ s.scalarFits d = true) := by
  have hnull (h : s.nullFit d = .nullToValue) : s.isNullable = true ∧ d.isNullable = false := by
    rw [nullFit] at h
    split at h
    · next hand => simpa using hand
    · cases h
  rw [fit] at h
  split at h
  · next hsame => exact ⟨(hnull h).1, (hnull h).2, Or.inl hsame⟩
  · split at h
    · cases h
    · split at h
      · cases h
      · split at h
        · cases h
        · split at h
          · next hscalar => exact ⟨(hnull h).1, (hnull h).2, Or.inr hscalar⟩
          · cases h

/-- Enumerations are value types. -/
theorem isValueType_of_isEnum (h : s.isEnum = true) : s.isValueType = true := by
  fun_induction isEnum s with
  | case1 path args id kind q => rw [isValueType, h, Bool.or_true]
  | case2 inner ih => exact ih h
  | case3 => cases h

/-- Integral types are builtin, and none of them is a reference type. -/
theorem of_isIntegral {name : String} (h : isIntegral name = true) :
    name ∈ builtinNames ∧ referenceBuiltins.contains name = false := by
  have hall : ∀ n ∈ ["sbyte", "byte", "short", "ushort", "int", "uint", "long", "ulong"],
      n ∈ builtinNames ∧ referenceBuiltins.contains n = false := by decide
  exact hall name (List.contains_iff_mem.1 h)

/-- What an enumeration converts from is a value type, unless it is a text. -/
theorem IsMeant.isValueType_of_isEnumValue (hs : s.IsMeant c) (h : isEnumValue s.name = true)
    (hname : s.name ≠ "string") : s.isValueType = true := by
  rw [isEnumValue, Bool.or_eq_true, beq_iff_eq] at h
  obtain ⟨hmem, hreference⟩ := of_isIntegral (h.resolve_left hname)
  rw [hs.isValueType_eq_of_name hmem, hreference]
  rfl

/-- **What fits a value type without a literal.**  An optional type that fits it is a value
type itself, unless it is a text. -/
theorem isValueType_iff_of_default (hs : s.IsMeant c) (hd : d.IsMeant c)
    (hfit : s.fit d = .nullToValue) (hkeys : s.underlying.KeysAgree d)
    (hdefault : Conversion.nullFallback? d = some ("default", k)) :
    s.isValueType = true ↔ s.underlying.underlying.name ≠ "string" := by
  obtain ⟨hzero, hvalue, hresolved⟩ := Conversion.of_default hdefault
  obtain ⟨-, hnull, hcases⟩ := fit_eq_nullToValue hfit
  have hplain := underlying_eq_self hnull
  have hunder := hs.underlying
  rw [hplain] at hzero
  rw [sameUnderlying, scalarFits, sameUnderlying, hplain, hplain] at hcases
  simp only [Bool.or_eq_true, Bool.and_eq_true, beq_iff_eq] at hcases
  rw [← isValueType_underlying s]
  generalize s.underlying = u at *
  constructor
  · intro hu hname
    have hmem : u.underlying.name ∈ builtinNames := hname ▸ (by decide)
    rw [← isValueType_underlying, hunder.underlying.isValueType_eq_of_name hmem, hname] at hu
    exact absurd hu (by decide)
  · intro hname
    have hkey {t : Shape} (ht : t.IsMeant c) (hkey : t.key = d.key) (hresolved : t.resolved = true)
        (hid : t.id? = d.id?) : t.isValueType = true :=
      isValueType_of_key_eq ht hd hkey hresolved hid hnull hvalue
    -- Objects are no value types, and what others widen to has a literal; so the source is of
    -- the same key, an enumeration, or what an enumeration converts from.
    rcases hcases with hsame | ((((hsame | henum) | henum) | henum) | hobject) | hwidens
    · obtain ⟨hu, hid⟩ := hkeys (Or.inl hsame)
      exact hkey hunder hsame (hu.trans hresolved) hid
    · obtain ⟨hu, hid⟩ := hkeys (Or.inr hsame)
      rw [← isValueType_underlying]
      exact hkey hunder.underlying hsame (by simpa using hu.trans hresolved) (by simpa using hid)
    · exact isValueType_of_isEnum henum.1
    · exact isValueType_of_isEnum henum.1
    · refine hunder.isValueType_of_isEnumValue henum.2 fun htext => ?_
      obtain ⟨path, rfl⟩ := hunder.exists_eq_builtin (htext ▸ (by decide))
      exact hname htext
    · have hmem : d.name ∈ builtinNames := hobject ▸ (by decide)
      rw [hd.isValueType_eq_of_name hmem, hobject] at hvalue
      exact absurd hvalue (by decide)
    · have hsome := Conversion.isSome_zero?_of_mem_wider _ _ (List.contains_iff_mem.1 hwidens.2)
      rw [hzero] at hsome
      cases hsome

end Shape

/-! ### The path of a pair -/

namespace Pieces

/-- Names that are joined to nothing are empty. -/
theorem eq_empty_of_join {names : List String} (h : join "." names = "") :
    ∀ n ∈ names, n = "" := by
  match names with
  | [] => simp
  | [n] => simpa [join] using h
  | a :: b :: names =>
    have hchars := congrArg String.toList h
    simp [join] at hchars

end Pieces

namespace Model

variable {c : Catalog} {source : Model} {name : String} {found : SourceMatch}

/-- The member at the end of a flattened path has the last name of the path. -/
theorem name_mem_of_flatten? {n : Nat} {words path : List String} {ms : List Member} {m : Member}
    (h : flatten? c n words ms = some (path, m)) : m.name ∈ path := by
  induction n generalizing words ms path with
  | zero => cases h
  | succ n ih =>
    obtain ⟨k, -, head, -, -, ⟨rfl, -⟩ | ⟨rest, rfl, hrest⟩⟩ := flatten?_cases h
    · simp
    · exact List.mem_cons_of_mem _ (ih hrest)

/-- The path of a match names the matched member. -/
theorem name_mem_path (h : source.match? c name = some found) : found.member.name ∈ found.path := by
  rcases match?_cases h with ⟨-, -, hpath⟩ | ⟨-, -, -, hpath⟩ | ⟨-, -, -, hflat⟩
  · simp [hpath]
  · simp [hpath]
  · exact name_mem_of_flatten? hflat

end Model

/-! ### Findings and their fixes -/

namespace Check

/-- A finding about `null` is about a pair, and names its members and its path. -/
theorem exists_pair_of_mem_types {x : Context} {f : Finding} (h : f ∈ types x)
    (hrule : f.rule = .nullToValue) : ∃ p ∈ x.pairs,
      p.source.member.shape.fit p.destination.shape = .nullToValue ∧
        f = (x.pairFinding .nullToValue p).withDetail .sourcePath (Pieces.join "." p.path) := by
  obtain ⟨p, hp, hf⟩ := List.mem_filterMap.1 h
  obtain ⟨rule, htype, rfl⟩ := Option.map_eq_some_iff.1 hf
  rw [Finding.rule_withDetail, Context.rule_pairFinding] at hrule
  subst hrule
  refine ⟨p, hp, ?_, rfl⟩
  rw [typeRule?] at htype
  split at htype
  · cases htype
  · assumption
  · cases htype

end Check

section

variable [CSharp.Reader]

namespace Auditor

variable {settings : Settings} {w : Workspace} {f : Finding}

/-- A registration stands at the position of its identifier. -/
theorem getElem?_id {r : Registration} (h : r ∈ w.registrations) :
    w.registrations[r.id]? = some r := by
  obtain ⟨i, hi⟩ := List.mem_iff_getElem?.1 h
  have hid : (w.registrations.map (·.id))[i]? = some i := by
    rw [Workspace.registrations, Registration.map_id_ofFiles]
    exact List.getElem?_range (List.getElem?_eq_some_iff.1 hi).1
  rw [List.getElem?_map, hi, Option.map_some, Option.some.injEq] at hid
  rw [hid, hi]

/-- What an audit finds is found for one of the registrations, but for its severity. -/
theorem exists_report_of_mem_findings
    (h : f ∈ (Auditor.audit (.ofSettings settings) w).findings) :
    ∃ r ∈ w.registrations, ∃ g ∈ Check.report settings.smells (w.context r),
      f = { g with severity := settings.severityFor g.rule.code g.severity } := by
  have husual : ∀ k ∈ (ofSettings settings).checks, k.IsUsualOrFails :=
    fun k hk => Check.isUsualOrFails_of_mem_all hk
  rw [IsStableSort.mem_iff_of_filter_eq (isStableSort_findings husual).kept] at h
  obtain ⟨g, hg, hf⟩ := List.mem_filterMap.1 h
  obtain ⟨x, hx, hg⟩ := List.mem_flatMap.1 hg
  obtain ⟨r, hr, rfl⟩ := List.mem_map.1 hx
  refine ⟨r, hr, g, hg, ?_⟩
  rw [Settings.applied?] at hf
  split at hf
  · exact (Option.some.inj hf).symm
  · cases hf

end Auditor

namespace Site

variable {s : Site} {x : Action} {m : String}

/-- Mapping from an expression configures the member with the confidence that was asked for. -/
theorem of_mapFrom? {strategy title expr : String} {confidence : Confidence}
    (hm : s.member? = some m) (h : s.mapFrom? strategy title expr confidence = some x) :
    x.confidence = confidence ∧
      x.operation = s.configure m ("opt.MapFrom(src => " ++ expr ++ ")") := by
  rw [mapFrom?, memberAction?, hm] at h
  simp only [Option.bind_eq_bind, Option.bind_some] at h
  obtain ⟨edits, -, rfl⟩ := Option.map_eq_some_iff.1 h
  exact ⟨rfl, rfl⟩

/-- The fix maps the member from its source, or a value in place of `null`. -/
theorem of_substituteNull? (h : s.substituteNull? = some x) :
    ∃ m target value expr, s.member? = some m ∧ s.destinationMember? = some target ∧
      Conversion.nullFallback? target.shape = some (value, x.confidence) ∧
        s.expression? = some expr ∧ x.operation =
          s.configure m ("opt.MapFrom(src => " ++ (expr ++ " ?? " ++ value) ++ ")") := by
  obtain ⟨m, hm, h⟩ := Option.bind_eq_some_iff.1 h
  obtain ⟨target, htarget, h⟩ := Option.bind_eq_some_iff.1 h
  obtain ⟨⟨value, k⟩, hvalue, h⟩ := Option.bind_eq_some_iff.1 h
  obtain ⟨expr, hexpr, h⟩ := Option.bind_eq_some_iff.1 h
  obtain ⟨hk, hop⟩ := of_mapFrom? hm h
  exact ⟨m, target, value, expr, hm, htarget, hk ▸ hvalue, hexpr, hop⟩

/-- The source is read by the path that the finding names. -/
theorem expression?_eq {names : List String} {last : String} (hlast : last ∈ names)
    (hpath : s.finding.detail? .sourcePath = some (Pieces.join "." names))
    (hsource : s.finding.detail? .sourceMember = some last) :
    s.expression? = some ("src." ++ Pieces.join "." names) := by
  have hread : s.sourcePath? = some (Pieces.splitText '.' (Pieces.join "." names)) := by
    rw [sourcePath?, hpath, hsource]
    cases hempty : (Pieces.join "." names).isEmpty with
    | false => simp [Option.filter, hempty]
    | true =>
      have hjoin : Pieces.join "." names = "" := by simpa using hempty
      rw [hjoin, Pieces.eq_empty_of_join hjoin last hlast]
      rfl
  rw [expression?, hread, Option.map_some, Pieces.join_splitText]

end Site

/-- The action writes `value` in place of `null` where the pair `p` is mapped.  The value is
the one that stands for `null` in `target`. -/
structure Action.Substitutes (x : Action) (s : Site) (p : MemberPair) (target : Member)
    (value : String) : Prop where
  null_fit : p.source.member.shape.fit p.destination.shape = .nullToValue
  operation_eq : x.operation = s.configure p.destination.name
    ("opt.MapFrom(src => " ++ ("src." ++ Pieces.join "." p.path ++ " ?? " ++ value) ++ ")")
  fallback_eq : Conversion.nullFallback? target.shape = some (value, x.confidence)
  target_eq : s.destinationMember? = some target
  /-- The fix looks at the first destination member of the name, in any case. -/
  target_iff : target = p.destination ↔
    ∃ d ∈ s.destination, d.ComesFirst p.destination.name p.destination
  /-- A new collection and a new object need a decision. -/
  low_of_collection : target.shape.isCollection = true → x.confidence = .low
  low_of_complex : target.shape.isComplex = true → target.shape.isValueType = false →
    x.confidence = .low
  /-- Only a value type is given `default`. -/
  target_value : value = "default" → target.shape.underlying.isValueType = true
  /-- The source is a value type then, unless it is a text. -/
  source_iff : value = "default" → target = p.destination →
    p.source.member.shape.underlying.KeysAgree p.destination.shape →
      (p.source.member.shape.underlying.isValueType = true ↔
        p.source.member.shape.underlying.underlying.name ≠ "string")

/-- An action for a finding is one of those offered where its registration stands. -/
theorem Action.exists_site_of_mem_forFinding {w : Workspace} {a : Audit} {f : Finding}
    {r : Registration} {x : Action} (hr : a.registrations[f.registration]? = some r)
    (h : x ∈ Action.forFinding w a f) : ∃ s, Site.ofFinding? w a f = some s ∧ s.finding = f ∧
      s.registration = r ∧ s.destination = (w.context r).destination ∧ some x ∈ s.offers := by
  have hsite : Site.ofFinding? w a f = some _ := Option.map_eq_some_iff.2 ⟨r, hr, rfl⟩
  rw [Action.forFinding, hsite] at h
  exact ⟨_, hsite, rfl, rfl, rfl, by simpa using h⟩

/-- The fix of a finding that names a pair writes a value for the pair. -/
theorem Action.exists_substitutes {w : Workspace} {r : Registration} {p : MemberPair} {s : Site}
    {x : Action} (hp : p ∈ (w.context r).pairs)
    (hfit : p.source.member.shape.fit p.destination.shape = .nullToValue)
    (hdestination : s.destination = (w.context r).destination)
    (hmember : s.finding.detail? .member = some p.destination.name)
    (hsource : s.finding.detail? .sourceMember = some p.source.member.name)
    (hpath : s.finding.detail? .sourcePath = some (Pieces.join "." p.path))
    (hx : s.substituteNull? = some x) : ∃ target value, x.Substitutes s p target value := by
  obtain ⟨m, target, value, expr, hm, htarget, hvalue, hexpr, hop⟩ := Site.of_substituteNull? hx
  obtain rfl : m = p.destination.name := Option.some.inj (hm.symm.trans hmember)
  obtain ⟨hsmeant, hdmeant⟩ := Context.isMeant_of_mem_pairs hp
  obtain ⟨-, d, inner, -, hd, -, -, hmatch⟩ := Context.of_mem_pairs hp
  have hlast : p.source.member.name ∈ p.path :=
    List.mem_append_right _ (Model.name_mem_path hmatch)
  obtain rfl := Option.some.inj (hexpr.symm.trans (Site.expression?_eq hlast hpath hsource))
  have hsd : s.destination = some d := hdestination.trans hd
  have hfound : d.find? p.destination.name = some target := by
    rw [Site.destinationMember?, hsd, hm] at htarget
    exact htarget
  have htmeant : target.shape.IsMeant w.catalog :=
    Context.isMeant_of_mem_members hd target (List.mem_of_find?_eq_some hfound)
  have hlow := Conversion.eq_low_of_nullFallback? htmeant hvalue
  have hfirst : d.find? p.destination.name = some p.destination ↔
      d.ComesFirst p.destination.name p.destination :=
    Model.find?_eq_some_iff_comesFirst (Pieces.sameName_refl p.destination.name)
  refine ⟨target, value, hfit, hop, hvalue, htarget, ?_, hlow.1, hlow.2, ?_, ?_⟩
  · rw [hsd]
    simp only [Option.mem_some_iff, exists_eq_left', ← hfirst, hfound, Option.some.injEq]
  · rintro rfl
    rw [Shape.isValueType_underlying]
    exact (Conversion.of_default hvalue).2.1
  · rintro rfl rfl hkeys
    rw [Shape.isValueType_underlying]
    exact Shape.isValueType_iff_of_default hsmeant hdmeant hfit hkeys hvalue

/-- **What takes the place of `null`.**  Every action for a finding about an optional source
of a destination without a place for `null` writes a value behind the path of the source.
A new collection or a new object in place of `null` needs a decision.  Where the value is
`default`, the destination is a value type; and if it is the one that the finding is about,
and equal keys mean equal types, the source is a value type exactly when it is no text. -/
theorem null_substituted (settings : Settings) (w : Workspace) {f : Finding} {x : Action}
    (hf : f ∈ (Auditor.audit (.ofSettings settings) w).findings) (hrule : f.rule = .nullToValue)
    (hx : x ∈ Action.forFinding w (Auditor.audit (.ofSettings settings) w) f) :
    ∃ s p target value, Site.ofFinding? w (Auditor.audit (.ofSettings settings) w) f = some s ∧
      p ∈ (w.context s.registration).pairs ∧ x.Substitutes s p target value := by
  obtain ⟨r, hr, g, hg, hfg⟩ := Auditor.exists_report_of_mem_findings hf
  have hgrule : g.rule = .nullToValue := by rw [← hrule, hfg]
  have hdetail (d : Detail) : f.detail? d = g.detail? d := by rw [hfg]; rfl
  have htypes : g ∈ Check.types (w.context r) := Check.mem_findings_of_mem_report
    (k := Check.ofFindings "type-compatibility" [.typeMismatch, .nullToValue] Check.types)
    (by simp [Check.all]) hg (by simp [Check.ofFindings, hgrule])
  obtain ⟨p, hp, hfit, hpair⟩ := Check.exists_pair_of_mem_types htypes hgrule
  have hid : f.registration = r.id := by rw [hfg, hpair]; rfl
  have hregistration : w.registrations[f.registration]? = some r := by
    rw [hid, Auditor.getElem?_id hr]
  obtain ⟨s, hs, rfl, rfl, hdestination, hoffer⟩ := Action.exists_site_of_mem_forFinding
    (a := Auditor.audit (.ofSettings settings) w) hregistration hx
  rw [Site.offers, hrule, List.mem_singleton] at hoffer
  obtain ⟨target, value, hsubstitutes⟩ := Action.exists_substitutes hp hfit hdestination
    (by simp [hdetail, hpair]) (by simp [hdetail, hpair])
    (by rw [hdetail, hpair]; rfl) hoffer.symm
  exact ⟨s, p, target, value, hs, hp, hsubstitutes⟩

end

/-- A mapping of an optional member to one of an enumeration. -/
def optionalSource (type : String) : Workspace :=
  .ofSources [("P.cs", "AddMaps(c=>c.CreateMap<S,D>());record S(" ++ type ++
    "? X);record D(E X);enum E\x7bA\x7d")]

/-- What an audit of it finds. -/
def optionalAudit (type : String) : Audit := Auditor.audit (.ofSettings {}) (optionalSource type)

/-- The fixes of a finding in it, with the type that the source is read as. -/
def optionalFixes (type : String) (f : Finding) :
    List (Confidence × Operation) × Option (String × Bool) :=
  let w := optionalSource type
  ((Action.forFinding w (optionalAudit type) f).map fun x => (x.confidence, x.operation),
    ((Site.ofFinding? w (optionalAudit type) f).bind (·.sourceMember?)).map fun m =>
      (m.shape.underlying.name, m.shape.underlying.isValueType))

/-- The value `default` behind the path of the member. -/
def defaultForX : Operation :=
  .appendCall 0 "ForMember(dest => dest.X, opt => opt.MapFrom(src => src.X ?? default))"

set_option maxRecDepth 100000 in
/-- An optional member that fills an enumeration gets one fix, with `default` behind its path.
-/
theorem optionalFixes_enum : ∃ f ∈ (optionalAudit "E").findings, f.rule = .nullToValue ∧
    optionalFixes "E" f = ([(.high, defaultForX)], some ("E", true)) := by
  decide +kernel

set_option maxRecDepth 100000 in
/-- The types of the pair agree on their keys, and `default` stands for null in the destination.
-/
theorem optionalPairs_enum : ∀ r ∈ (optionalAudit "E").registrations,
    (∀ p ∈ ((optionalSource "E").context r).pairs,
        p.source.member.shape.underlying.KeysAgree p.destination.shape) ∧
      ∀ d ∈ ((optionalSource "E").context r).destination, ∃ m ∈ d.members, d.members.length = 1 ∧
        Conversion.nullFallback? m.shape = some ("default", .high) := by
  decide +kernel

/-- An optional enumeration of the same type is a value type. -/
theorem null_substituted_enum : ∃ f ∈ (optionalAudit "E").findings, f.rule = .nullToValue ∧
    ∃ x ∈ Action.forFinding (optionalSource "E") (optionalAudit "E") f, ∃ s p target value,
      Site.ofFinding? (optionalSource "E") (optionalAudit "E") f = some s ∧
        p ∈ ((optionalSource "E").context s.registration).pairs ∧ x.Substitutes s p target value ∧
          value = "default" ∧ target = p.destination ∧
            p.source.member.shape.underlying.KeysAgree p.destination.shape := by
  obtain ⟨f, hf, hrule, hfixes⟩ := optionalFixes_enum
  obtain ⟨x, xs, hactions, -, -⟩ := List.map_eq_cons_iff.1 (Prod.mk.inj hfixes).1
  have hx : x ∈ Action.forFinding (optionalSource "E") (optionalAudit "E") f :=
    hactions ▸ List.mem_cons_self
  obtain ⟨s, p, target, value, hs, hp, hsubstitutes⟩ :=
    null_substituted {} (optionalSource "E") hf hrule hx
  obtain ⟨r, hr, rfl⟩ := Option.map_eq_some_iff.1 hs
  obtain ⟨hkeys, hmembers⟩ := optionalPairs_enum r (List.mem_of_getElem? hr)
  obtain ⟨-, d, -, -, hd, hdest, -⟩ := Context.of_mem_pairs hp
  obtain ⟨m, hm, hone, hdefault⟩ := hmembers d hd
  obtain ⟨only, honly⟩ := List.length_eq_one_iff.1 hone
  obtain ⟨d', hd', hfound⟩ := Option.bind_eq_some_iff.1 hsubstitutes.target_eq
  obtain ⟨name, -, hfound⟩ := Option.bind_eq_some_iff.1 hfound
  obtain rfl : d' = d := Option.some.inj (hd'.symm.trans hd)
  have htarget : target ∈ d'.members := List.mem_of_find?_eq_some hfound
  rw [honly, List.mem_singleton] at hm hdest htarget
  subst hm
  have hvalue := hsubstitutes.fallback_eq
  rw [htarget, hdefault] at hvalue
  exact ⟨f, hf, hrule, x, hx, _, p, target, value, hs, hp, hsubstitutes,
    (Prod.mk.inj (Option.some.inj hvalue)).1.symm, htarget.trans hdest.symm, hkeys p hp⟩

set_option maxRecDepth 100000 in
/-- **A text stays null**: it fits an enumeration, whose `default` takes its place, but what
stands behind a text is `null` again. -/
theorem text_stays_null : ∃ f ∈ (optionalAudit "string").findings, f.rule = .nullToValue ∧
    optionalFixes "string" f = ([(.high, defaultForX)], some ("string", false)) := by
  decide +kernel

end MappingAudit
