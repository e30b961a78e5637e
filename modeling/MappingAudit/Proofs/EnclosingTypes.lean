/-
# The type around a chain

A call of `CreateMap` without a receiver, or on `this` or `base`, counts when the type around
it is a mapping profile.  The type is recorded by its qualified name, which is that of the
innermost declaration around the call (`Site.Encloses.enclosingType_eq`).  It is looked up by
this name alone: the first entry of the name is taken, whatever its number of type parameters.

So a call is judged by the entry of its own type only if that comes first, that is, if the
declaration is the first one of the name, or a part with as many type parameters as the first
one has (`Catalog.SharesFirst`).  Else it is judged by another type
(`Recognition.isMapping_eq_first`), and a profile behind a generic type of the same name
registers nothing (`Recognition.profile_hidden`).
-/

import MappingAudit.CSharp.Declarations
import MappingAudit.Proofs.ChainTiles
import MappingAudit.Proofs.NameLookup
import MappingAudit.Registration.Recognition

namespace MappingAudit

open CSharp (Node Kind)

/-! ### The innermost declaration around a node -/

namespace CSharp

/-- What holds of all nodes holds throughout a tree. -/
theorem Node.Everywhere.of_forall {p : Node → Prop} (h : ∀ n, p n) : (n : Node) → n.Everywhere p
  | .mk k s cs => .mk (h (.mk k s cs)) fun c _ => of_forall h c

end CSharp

namespace Source

variable {source : String} {s t : Site} {scope : Scope} {above : List Ancestor} {n : Node}
variable {d : Declaration} {chain : Chain}

/-- The name of the type that a node declares. -/
def declaredName? (source : String) (n : Node) : Option String :=
  if declaresType n.kind then nameOf? source n else none

/-- Only a declared type adds a container to the scope of what is below it. -/
theorem containers_childScope (source : String) (scope : Scope) (n : Node) :
    (childScope source scope n).containers =
      scope.containers ++ (declaredName? source n).toList := by
  rw [childScope, declaredName?]
  split
  · next hns =>
    have htype : declaresType n.kind = false := by
      rcases Bool.or_eq_true_iff.1 hns with h | h <;> rw [beq_iff_eq.1 h] <;> rfl
    rw [htype, if_neg Bool.false_ne_true, Option.toList_none, List.append_nil]
    cases n.child? .name <;> rfl
  · split
    · cases nameOf? source n with
      | none => exact (List.append_nil _).symm
      | some name => rfl
    · exact (List.append_nil _).symm

/-- What a declaration says about where it stands. -/
theorem of_declaration? (h : declaration? source t = some d) :
    declaredName? source t.node = some d.name ∧ d.ns = t.scope.ns ∧
      d.containers = t.scope.containers := by
  rw [declaration?] at h
  simp only at h
  split at h
  · cases h
  · next hdeclares =>
    obtain ⟨name, hname, h⟩ := Option.bind_eq_some_iff.1 h
    obtain rfl := Option.some.inj h
    have htype : declaresType t.node.kind = true := by simpa using hdeclares
    exact ⟨by rw [declaredName?, htype, if_pos rfl, hname], rfl, rfl⟩

namespace Site

/-- The sites below a site. -/
def below (source : String) (t : Site) : List Site :=
  sitesAmong source (childScope source t.scope t.node) t.node t.ancestors 0 t.node.children

/-- The nodes above a site up to one of them, which is left out. -/
def upTo (s t : Site) : List Ancestor :=
  s.ancestors.take (s.ancestors.length - (t.ancestors.length + 1))

/-- The site `s` stands below `t`; between them no type is declared and no namespace begins. -/
structure Encloses (source : String) (t s : Site) : Prop where
  below : s ∈ t.below source
  between : ∀ a ∈ s.upTo t, declaredName? source a.node = none
  ns_eq : s.scope.ns = t.scope.ns

end Site

/-- Below a node, the containers change with the types that are declared on the way. -/
theorem containers_of_mem_sites (h : s ∈ sites source scope above n) :
    ∃ inner, s.ancestors = inner ++ above ∧
      ((∀ a ∈ inner, declaredName? source a.node = none) →
        s.scope.containers = scope.containers) := by
  have hn : n.Everywhere fun _ => True := .of_forall (fun _ => trivial) n
  induction hn generalizing scope above with
  | @mk k place cs _ _ ih =>
    rw [sites] at h
    rcases List.mem_cons.1 h with rfl | h
    · exact ⟨[], rfl, fun _ => rfl⟩
    · obtain ⟨i, c, scope', hi, hcontainers, hs⟩ := exists_of_mem_sitesAmong h
      obtain ⟨inner, habove, hinner⟩ := ih c (List.mem_of_getElem? hi) hs
      refine ⟨inner ++ [⟨.mk k place cs, 0 + i⟩], ?_, fun hnone => ?_⟩
      · rw [habove, List.append_assoc]
        rfl
      · have hnode : declaredName? source (.mk k place cs) = none :=
          hnone ⟨.mk k place cs, 0 + i⟩ (List.mem_append_right inner List.mem_cons_self)
        rw [hinner fun a ha => hnone a (List.mem_append_left _ ha), hcontainers,
          containers_childScope, hnode, Option.toList_none, List.append_nil]

/-- **The type around a node** has the qualified name of the innermost declaration. -/
theorem Site.Encloses.enclosingType_eq (h : t.Encloses source s)
    (hd : declaration? source t = some d) : s.scope.enclosingType = some d.qualifiedName := by
  obtain ⟨hname, hns, hcontainers⟩ := of_declaration? hd
  obtain ⟨i, c, scope', -, hsame, hs⟩ := exists_of_mem_sitesAmong h.below
  obtain ⟨inner, habove, hinner⟩ := containers_of_mem_sites hs
  have hupTo : s.upTo t = inner := by
    rw [Site.upTo, habove, List.length_append, List.length_cons, Nat.add_sub_cancel,
      List.take_left]
  have hall : s.scope.containers = d.containers ++ [d.name] := by
    rw [hinner (hupTo ▸ h.between), hsame, containers_childScope, hname, hcontainers]
    rfl
  have hne : s.scope.containers.isEmpty = false := by
    rw [hall]
    simp
  rw [Scope.enclosingType, hne, hall, h.ns_eq, Declaration.qualifiedName, hns]
  rfl

/-- A chain has the enclosing type of the place that it is read at. -/
theorem enclosingType_of_chain? (h : chain? source s = some chain) :
    chain.enclosingType = s.scope.enclosingType := by
  rw [chain?] at h
  split at h
  · cases h
  · obtain ⟨root, -, h⟩ := Option.bind_eq_some_iff.1 h
    simp only at h
    split at h
    · cases h
    · obtain rfl := Option.some.inj h
      rfl

end Source

/-! ### The first entry of a qualified name -/

namespace Catalog

variable {c : Catalog} {es : List Entry} {id : Id} {name : String}
variable {file : Source.File} {files : List Source.File} {d : Source.Declaration}
variable {ps before after : List (Source.File × Source.Declaration)}

/-- The declaration goes to the first entry of its qualified name: it is the first one of this
name, or a part with as many type parameters as the first one has. -/
def SharesFirst (before : List (Source.File × Source.Declaration)) (d : Source.Declaration) :
    Prop :=
  ∀ p, before.find? (fun p => p.2.qualifiedName == d.qualifiedName) = some p →
    d.isPartial = true ∧ p.2.typeParams.length = d.typeParams.length

/-- Looking a qualified name up finds the first entry that has it. -/
theorem lookup_eq (c : Catalog) (name : String) :
    c.lookup name = c.entries.findIdx? (·.qualifiedName == name) := head?_idsWhere c _

/-- An entry that is found stays the one that is found. -/
theorem findIdx?_entering (file : Source.File) (d : Source.Declaration)
    (h : es.findIdx? (·.qualifiedName == name) = some id) :
    (entering file d es).findIdx? (·.qualifiedName == name) = some id := by
  induction es generalizing id with
  | nil => cases h
  | cons a es ih =>
    rw [List.findIdx?_cons] at h
    rw [entering]
    split
    · rw [List.findIdx?_cons]
      exact h
    · rw [List.findIdx?_cons]
      split at h
      · next ha => rw [if_pos ha, h]
      · next ha =>
        obtain ⟨i, hi, rfl⟩ := Option.map_eq_some_iff.1 h
        rw [if_neg ha, ih hi]
        rfl

/-- A name that is found keeps its position when more is declared. -/
theorem lookup_enterAll (ps : List (Source.File × Source.Declaration))
    (h : c.lookup name = some id) : (c.enterAll ps).lookup name = some id := by
  induction ps generalizing c with
  | nil => exact h
  | cons p ps ih =>
    refine ih ?_
    rw [lookup_eq, entries_add]
    rw [lookup_eq] at h
    exact findIdx?_entering p.1 p.2 h

/-- A declaration is found under its qualified name, at its own entry or at one before it. -/
theorem findIdx?_entering_self (file : Source.File) (d : Source.Declaration) (es : List Entry) :
    (entering file d es).findIdx? (·.qualifiedName == d.qualifiedName) =
      some ((es.findIdx? (·.qualifiedName == d.qualifiedName)).getD es.length) := by
  have hself : (Entry.ofDeclaration file d).qualifiedName = d.qualifiedName := rfl
  induction es with
  | nil =>
    rw [entering, List.findIdx?_cons, hself, beq_self_eq_true]
    rfl
  | cons a es ih =>
    rw [entering]
    split
    · next hhere =>
      have hdeclares := (Bool.and_eq_true_iff.1 hhere).2
      have hname := (Bool.and_eq_true_iff.1 hdeclares).1
      have hmerge : (a.merge file d).qualifiedName = a.qualifiedName := rfl
      rw [List.findIdx?_cons, List.findIdx?_cons, hmerge, hname]
      rfl
    · rw [List.findIdx?_cons, List.findIdx?_cons, ih]
      split
      · rfl
      · cases es.findIdx? (·.qualifiedName == d.qualifiedName) <;> rfl

/-- The place of a declaration is that of the first entry of its qualified name, if the
declaration is a part of it or there is none. -/
theorem place_eq_iff (d : Source.Declaration) (es : List Entry) :
    place d es = (es.findIdx? (·.qualifiedName == d.qualifiedName)).getD es.length ↔
      ∀ e, es.find? (·.qualifiedName == d.qualifiedName) = some e →
        d.isPartial = true ∧ e.arity = d.typeParams.length := by
  induction es with
  | nil =>
    refine iff_of_true rfl fun e he => ?_
    cases he
  | cons a es ih =>
    rw [place, List.findIdx?_cons, List.find?_cons]
    cases hname : a.qualifiedName == d.qualifiedName with
    | true =>
      rw [Entry.declares, hname, Bool.true_and, if_pos rfl, Option.getD_some]
      simp only [Option.some.injEq, forall_eq']
      constructor
      · intro hplace
        split at hplace
        · next h => simpa using h
        · cases hplace
      · rintro ⟨hpartial, harity⟩
        rw [hpartial, harity, beq_self_eq_true]
        rfl
    | false =>
      rw [Entry.declares, hname, Bool.false_and, Bool.and_false, if_neg Bool.false_ne_true,
        if_neg Bool.false_ne_true]
      simp only
      rw [← ih, List.length_cons]
      cases es.findIdx? (·.qualifiedName == d.qualifiedName) <;> simp

/-- The first entry of a name has as many type parameters as the first declaration of it. -/
theorem map_arity_find?_entering (file : Source.File) (d : Source.Declaration) (es : List Entry)
    (name : String) :
    ((entering file d es).find? (·.qualifiedName == name)).map (·.arity) =
      ((es.find? (·.qualifiedName == name)).map (·.arity)).or
        (if d.qualifiedName == name then some d.typeParams.length else none) := by
  have hself : (Entry.ofDeclaration file d).qualifiedName = d.qualifiedName := rfl
  induction es with
  | nil =>
    rw [entering, List.find?_cons, hself]
    cases d.qualifiedName == name <;> rfl
  | cons a es ih =>
    have hmerge : (a.merge file d).qualifiedName = a.qualifiedName := rfl
    rw [entering]
    split
    · next hhere =>
      rw [List.find?_cons, List.find?_cons, hmerge]
      cases hname : a.qualifiedName == name with
      | true => rfl
      | false =>
        have hdeclares := (Bool.and_eq_true_iff.1 hhere).2
        have hsame : a.qualifiedName = d.qualifiedName :=
          beq_iff_eq.1 (Bool.and_eq_true_iff.1 hdeclares).1
        rw [← hsame, hname, if_neg Bool.false_ne_true, Option.or_none]
    · rw [List.find?_cons, List.find?_cons]
      cases a.qualifiedName == name with
      | true => rfl
      | false => exact ih

/-- The first entry of a name has the arity that its first declaration has. -/
theorem map_arity_find?_enterAll (c : Catalog) (ps : List (Source.File × Source.Declaration))
    (name : String) :
    ((c.enterAll ps).entries.find? (·.qualifiedName == name)).map (·.arity) =
      ((c.entries.find? (·.qualifiedName == name)).map (·.arity)).or
        ((ps.find? (·.2.qualifiedName == name)).map (·.2.typeParams.length)) := by
  induction ps generalizing c with
  | nil => exact (Option.or_none).symm
  | cons p ps ih =>
    have hstep := ih (c.add p.1 p.2)
    rw [entries_add, map_arity_find?_entering, Option.or_assoc] at hstep
    refine hstep.trans ?_
    rw [List.find?_cons]
    cases p.2.qualifiedName == name <;> rfl

/-- **Whose entry is found** under the qualified name of a declaration: the first one of this
name, and that is its own exactly when it shares it. -/
theorem lookup_own_iff (hparts : parts files = before ++ (file, d) :: after) :
    ∃ first, (ofFiles files).lookup d.qualifiedName = some first ∧
      (place d (enterAll {} before).entries = first ↔ SharesFirst before d) := by
  have hfound := findIdx?_entering_self file d (enterAll {} before).entries
  refine ⟨_, ?_, (place_eq_iff d (enterAll {} before).entries).trans ?_⟩
  · rw [ofFiles_eq, hparts, enterAll, List.foldl_append]
    refine lookup_enterAll after ?_
    rw [lookup_eq, entries_add]
    exact hfound
  · have harity := map_arity_find?_enterAll {} before d.qualifiedName
    rw [List.find?_nil, Option.map_none, Option.none_or] at harity
    rw [SharesFirst]
    constructor
    · intro h p hp
      rw [hp] at harity
      obtain ⟨e, he, hsame⟩ := Option.map_eq_some_iff.1 harity
      obtain ⟨hpartial, hd⟩ := h e he
      exact ⟨hpartial, hsame.symm.trans hd⟩
    · intro h e he
      rw [he] at harity
      obtain ⟨p, hp, hsame⟩ := Option.map_eq_some_iff.1 harity.symm
      obtain ⟨hpartial, hd⟩ := h p hp
      exact ⟨hpartial, hsame.symm.trans hd⟩

end Catalog

/-! ### What a chain is judged by -/

namespace Recognition

open Catalog Source

/-- The receivers that stand for the type around a chain. -/
def isOwnReceiver : Receiver → Bool
  | .implicit | .this | .base => true
  | _ => false

/-- A call without a receiver registers a mapping when the enclosing type is a profile. -/
theorem isMapping_of_isOwnReceiver {c : Catalog} {file : File} {chain : Chain}
    (h : isOwnReceiver chain.receiver = true) :
    isMapping c file chain = (enclosing? c chain).any c.isProfile := by
  rw [isMapping]
  cases hreceiver : chain.receiver with
  | implicit => rfl
  | this => rfl
  | base => rfl
  | identifier name binding =>
    rw [hreceiver] at h
    cases h
  | other text =>
    rw [hreceiver] at h
    cases h

/-- **What a chain is judged by.**  Let a chain be called on the type around it, and let that
type be declared by `d`, which is entered after the declarations `before`.  If `d` shares the
first entry of its qualified name, the chain registers a mapping exactly when its own type is a
profile.  Else it does exactly when the first type of this name is one, and that is another
entry than its own. -/
theorem isMapping_eq_first {source : String} {file : File} {files : List File}
    {before after : List (File × Declaration)} {t s : Site} {d : Declaration} {chain : Chain}
    (hparts : parts files = before ++ (file, d) :: after)
    (hd : declaration? source t = some d) (hs : t.Encloses source s)
    (hchain : chain? source s = some chain) (hreceiver : isOwnReceiver chain.receiver = true) :
    (SharesFirst before d → isMapping (ofFiles files) file chain =
        (ofFiles files).isProfile (place d (enterAll {} before).entries)) ∧
      (¬ SharesFirst before d → ∃ first, (ofFiles files).lookup d.qualifiedName = some first ∧
        first ≠ place d (enterAll {} before).entries ∧
          isMapping (ofFiles files) file chain = (ofFiles files).isProfile first) := by
  obtain ⟨first, hfirst, hown⟩ := lookup_own_iff hparts
  have hjudged : isMapping (ofFiles files) file chain = (ofFiles files).isProfile first := by
    rw [isMapping_of_isOwnReceiver hreceiver, enclosing?, enclosingType_of_chain? hchain,
      hs.enclosingType_eq hd, Option.bind_some, hfirst, Option.any_some]
  constructor
  · intro hshares
    rw [hjudged, hown.2 hshares]
  · intro hshares
    exact ⟨first, hfirst, fun heq => hshares (hown.1 heq.symm), hjudged⟩

/-- A profile, declared after a type of the given header, with a mapping. -/
def profileAfter (header : String) : String :=
  header ++ "\x7b\x7dclass P:Profile\x7bP()\x7bCreateMap<S,D>();\x7d\x7d" ++
    "record S(int X);record D(int Y);"

/-- The file of the text. -/
def profileFile (header : String) : File := .read "P.cs" (profileAfter header)

/-- The site of the second declared type. -/
def profileSite (header : String) : Site :=
  (((sites (profileAfter header) {} [] (CSharp.SyntaxTree.read (profileAfter header)).root).filter
    fun s => (declaration? (profileAfter header) s).isSome)[1]?).getD default

/-- The site of the chain below it. -/
def mappingSite (header : String) : Site :=
  (((profileSite header).below (profileAfter header)).find?
    fun s => (chain? (profileAfter header) s).isSome).getD default

/-- The sites are those of the second declaration and of a chain in it. -/
def areSites (header : String) : Bool :=
  (declaration? (profileAfter header) (profileSite header)).isSome &&
    (declaration? (profileAfter header) (profileSite header) ==
        (profileFile header).declarations[1]?) &&
      ((profileSite header).below (profileAfter header)).any
          (fun s => (chain? (profileAfter header) s).isSome) &&
        ((mappingSite header).upTo (profileSite header)).all
            (fun a => (declaredName? (profileAfter header) a.node).isNone) &&
          (mappingSite header).scope.ns == (profileSite header).scope.ns

/-- Sites that pass the test are those of a profile and of a mapping in it. -/
theorem exists_of_areSites {header : String} (h : areSites header = true) : ∃ d chain,
    declaration? (profileAfter header) (profileSite header) = some d ∧
      (profileFile header).declarations[1]? = some d ∧
        (profileSite header).Encloses (profileAfter header) (mappingSite header) ∧
          chain? (profileAfter header) (mappingSite header) = some chain := by
  simp only [areSites, Bool.and_eq_true, beq_iff_eq, List.any_eq_true, List.all_eq_true,
    Option.isNone_iff_eq_none] at h
  obtain ⟨⟨⟨⟨hsome, hsecond⟩, hbelow⟩, hbetween⟩, hns⟩ := h
  obtain ⟨d, hd⟩ := Option.isSome_iff_exists.1 hsome
  obtain ⟨s, hs⟩ := Option.isSome_iff_exists.1 (List.find?_isSome.2 hbelow)
  have hsite : mappingSite header = s := by rw [mappingSite, hs, Option.getD_some]
  have hfound : (chain? (profileAfter header) s).isSome = true :=
    List.find?_some (p := fun s => (chain? (profileAfter header) s).isSome) hs
  obtain ⟨chain, hchain⟩ := Option.isSome_iff_exists.1 hfound
  exact ⟨d, chain, hd, hsecond ▸ hd, ⟨hsite ▸ List.mem_of_find?_eq_some hs, hbetween, hns⟩,
    hsite ▸ hchain⟩

/-- The declarations of the file before and after the second one. -/
theorem parts_profileFile {header : String} {d : Declaration}
    (h : (profileFile header).declarations[1]? = some d) :
    parts [profileFile header] =
      ((profileFile header).declarations.take 1).map (profileFile header, ·) ++
        (profileFile header, d) :: ((profileFile header).declarations.drop 2).map
          (profileFile header, ·) := by
  obtain ⟨hlt, hget⟩ := List.getElem?_eq_some_iff.1 h
  have hsplit : (profileFile header).declarations =
      (profileFile header).declarations.take 1 ++ d :: (profileFile header).declarations.drop 2 := by
    rw [← hget, List.getElem_cons_drop, List.take_append_drop]
  rw [parts_cons, ← List.map_cons, ← List.map_append, ← hsplit]
  exact List.append_nil _

set_option maxRecDepth 100000 in
/-- Behind a type of another name the profile is the second declaration, and the mapping stands
in it. -/
theorem areSites_otherName : areSites "class Q<T>" = true ∧
    (chain? (profileAfter "class Q<T>") (mappingSite "class Q<T>")).map (·.receiver) =
      some .implicit ∧
    ((profileFile "class Q<T>").declarations.take 1).map (·.qualifiedName) = ["Q"] ∧
    (profileFile "class Q<T>").declarations[1]?.map (·.qualifiedName) = some "P" := by
  decide +kernel

/-- After a type of another name the profile is judged by its own entry. -/
theorem isMapping_eq_own : ∃ d chain before after,
    parts [profileFile "class Q<T>"] = before ++ (profileFile "class Q<T>", d) :: after ∧
      declaration? (profileAfter "class Q<T>") (profileSite "class Q<T>") = some d ∧
      (profileSite "class Q<T>").Encloses (profileAfter "class Q<T>") (mappingSite "class Q<T>") ∧
      chain? (profileAfter "class Q<T>") (mappingSite "class Q<T>") = some chain ∧
      isOwnReceiver chain.receiver = true ∧
      isMapping (ofFiles [profileFile "class Q<T>"]) (profileFile "class Q<T>") chain =
        (ofFiles [profileFile "class Q<T>"]).isProfile
          (place d (enterAll {} before).entries) := by
  obtain ⟨hsites, hreceiver, hfirst, hsecond⟩ := areSites_otherName
  obtain ⟨d, chain, hd, hd', hs, hchain⟩ := exists_of_areSites hsites
  have hown : isOwnReceiver chain.receiver = true := by
    rw [hchain] at hreceiver
    have himplicit : chain.receiver = .implicit := Option.some.inj hreceiver
    rw [himplicit]
    rfl
  have hshares : SharesFirst
      (((profileFile "class Q<T>").declarations.take 1).map (profileFile "class Q<T>", ·)) d := by
    intro p hp
    obtain ⟨q, hq, rfl⟩ := List.mem_map.1 (List.mem_of_find?_eq_some hp)
    have hname := List.find?_some hp
    have hq' : q.qualifiedName ∈ ["Q"] := hfirst ▸ List.mem_map_of_mem hq
    have hd'' : d.qualifiedName = "P" := by
      rw [hd'] at hsecond
      exact Option.some.inj hsecond
    rw [List.mem_singleton.1 hq', hd''] at hname
    cases hname
  have hjudged := isMapping_eq_first (parts_profileFile hd') hd hs hchain hown
  exact ⟨d, chain, _, _, parts_profileFile hd', hd, hs, hchain, hown, hjudged.1 hshares⟩

set_option maxRecDepth 100000 in
/-- Behind a generic type of its name the profile is a profile still, and the call in it
registers no mapping. -/
theorem areSites_sameName : areSites "class P<T>" = true ∧
    (chain? (profileAfter "class P<T>") (mappingSite "class P<T>")).map (fun chain =>
      (isOwnReceiver chain.receiver,
        isMapping (ofFiles [profileFile "class P<T>"]) (profileFile "class P<T>") chain)) =
          some (true, false) ∧
    (profileFile "class P<T>").declarations[1]?.map (fun d =>
      (ofFiles [profileFile "class P<T>"]).isProfile (place d (enterAll {}
        (((profileFile "class P<T>").declarations.take 1).map
          (profileFile "class P<T>", ·))).entries)) = some true := by
  decide +kernel

/-- **A profile is hidden by a generic type of its name** that is declared before it: its own
entry is a profile, and its chain registers nothing. -/
theorem profile_hidden : ∃ d chain before after,
    parts [profileFile "class P<T>"] = before ++ (profileFile "class P<T>", d) :: after ∧
      declaration? (profileAfter "class P<T>") (profileSite "class P<T>") = some d ∧
      (profileSite "class P<T>").Encloses (profileAfter "class P<T>") (mappingSite "class P<T>") ∧
      chain? (profileAfter "class P<T>") (mappingSite "class P<T>") = some chain ∧
      isOwnReceiver chain.receiver = true ∧
      (ofFiles [profileFile "class P<T>"]).isProfile
        (place d (enterAll {} before).entries) = true ∧
      isMapping (ofFiles [profileFile "class P<T>"]) (profileFile "class P<T>") chain = false := by
  obtain ⟨hsites, hmapping, hprofile⟩ := areSites_sameName
  obtain ⟨d, chain, hd, hd', hs, hchain⟩ := exists_of_areSites hsites
  rw [hchain, Option.map_some] at hmapping
  rw [hd', Option.map_some] at hprofile
  obtain ⟨hown, hnone⟩ := Prod.mk.inj (Option.some.inj hmapping)
  exact ⟨d, chain, _, _, parts_profileFile hd', hd, hs, hchain, hown,
    Option.some.inj hprofile, hnone⟩

end Recognition
end MappingAudit
