/-
# The search for the framework's type

A type derives from the framework's type when a path of base list entries leads from it to a
type with an entry that leads to the framework.  Where an entry leads, `Catalog.LeadsTo` says
rule by rule.  The search looks at each type once, goes through the base list of one type
after the other and ends in the middle of a list when an entry leads to the framework.  It
answers whether there is such a path (`derivesFrom_iff_path`), also where bases lead in a
circle, after at most two rounds more than the catalog has base list entries.

What carries the proof is an invariant of the rounds: the types that were looked at do not
lead to the framework, and their bases were looked at or are on the stack.
-/

import MappingAudit.Catalog.Profile
import Mathlib.Data.List.Induction
import Mathlib.Logic.Relation

namespace MappingAudit
namespace Catalog

/-! ### Where a base leads -/

/-- The framework's type named without its namespace. -/
def IsBare (name : String) (t : TypeExpr) : Prop :=
  t.pathText? = some name ∧ t.genericArgs = []

/-- A base of `e` that is written `t` leads to a target, when the framework's type is
`name`. -/
inductive LeadsTo (c : Catalog) (name : String) (e : Entry) (t : TypeExpr) : BaseTarget → Prop
  /-- The framework's type with its namespace. -/
  | qualified (h : t.pathText? = some (Source.frameworkNamespace ++ "." ++ name)) :
    LeadsTo c name e t .framework
  /-- A type of the bare name in a namespace around `e`. -/
  | visible {id : Id} (h : IsBare name t) (hid : c.visibleFrom name e.ns = some id) :
    LeadsTo c name e t (.declared id)
  /-- No such type, but the framework is in scope. -/
  | imported (h : IsBare name t) (hnone : c.visibleFrom name e.ns = none)
    (himports : e.importsFramework = true) : LeadsTo c name e t .framework
  /-- Neither, and the bare name means a declared type. -/
  | resolved {id : Id} (h : IsBare name t) (hnone : c.visibleFrom name e.ns = none)
    (himports : e.importsFramework = false) (hid : c.resolveType t e.ns = some id) :
    LeadsTo c name e t (.declared id)
  /-- Neither, and the bare name means nothing that is declared. -/
  | unresolved (h : IsBare name t) (hnone : c.visibleFrom name e.ns = none)
    (himports : e.importsFramework = false) (hid : c.resolveType t e.ns = none) :
    LeadsTo c name e t .framework
  /-- Any other type that is declared. -/
  | other {id : Id} (hqualified : t.pathText? ≠ some (Source.frameworkNamespace ++ "." ++ name))
    (hbare : ¬ IsBare name t) (hid : c.resolveType t e.ns = some id) :
    LeadsTo c name e t (.declared id)

/-- An entry of the type's base list can be read and leads to the target. -/
def HasBase (c : Catalog) (name : String) (id : Id) (target : BaseTarget) : Prop :=
  ∃ e, c.get? id = some e ∧
    ∃ base ∈ e.bases, ∃ t, TypeExpr.read? base = some t ∧ LeadsTo c name e t target

variable {c : Catalog} {name base : String} {e : Entry} {t : TypeExpr} {target : BaseTarget}
variable {id i j : Id}

/-- The framework's name with the namespace is not the bare name. -/
theorem not_isBare_of_qualified
    (h : t.pathText? = some (Source.frameworkNamespace ++ "." ++ name)) : ¬ IsBare name t := by
  rintro ⟨hbare, -⟩
  have hlength := congrArg String.length (Option.some.inj (h.symm.trans hbare))
  simp only [String.length_append] at hlength
  have hdot : ".".length = 1 := rfl
  omega

/-- A bare name means what it is resolved to without parameters. -/
theorem resolveType_of_isBare (h : IsBare name t) (ns : Option String) :
    c.resolveType t ns = c.resolve name 0 ns := by
  rw [resolveType, h.1, h.2, Option.bind_some, List.length_nil]

/-- The qualified name of the framework's class leads to the framework. -/
theorem baseTarget_of_qualified (h : TypeExpr.read? base = some t)
    (hqualified : t.pathText? = some (Source.frameworkNamespace ++ "." ++ name)) :
    c.baseTarget e name base = .framework := by
  simp only [baseTarget, h, if_pos hqualified]

/-- The bare name leads where the types around decide. -/
theorem baseTarget_of_isBare (h : TypeExpr.read? base = some t) (hbare : IsBare name t) :
    c.baseTarget e name base = c.bareTarget e name := by
  have hqualified := mt not_isBare_of_qualified (fun hnot => hnot hbare)
  have hcond : t.pathText? = some name ∧ t.genericArgs.isEmpty := by
    rw [hbare.1, hbare.2]
    exact ⟨rfl, rfl⟩
  simp only [baseTarget, h, if_neg hqualified, if_pos hcond]

/-- Any other name leads to the type that it means, if there is one. -/
theorem baseTarget_of_other (h : TypeExpr.read? base = some t)
    (hqualified : t.pathText? ≠ some (Source.frameworkNamespace ++ "." ++ name))
    (hbare : ¬ IsBare name t) :
    c.baseTarget e name base = ((c.resolveType t e.ns).map .declared).getD .nowhere := by
  have hcond : ¬(t.pathText? = some name ∧ t.genericArgs.isEmpty) := fun hcond =>
    hbare ⟨hcond.1, List.isEmpty_iff.1 hcond.2⟩
  simp only [baseTarget, h, if_neg hqualified, if_neg hcond]
  cases c.resolveType t e.ns <;> rfl

/-- The rules say where the search goes from a base list entry. -/
theorem leadsTo_iff (h : TypeExpr.read? base = some t) :
    LeadsTo c name e t target ↔ c.baseTarget e name base = target ∧ target ≠ .nowhere := by
  constructor
  · intro hleads
    cases hleads with
    | qualified hqualified => exact ⟨baseTarget_of_qualified h hqualified, by simp⟩
    | visible hbare hid =>
      rw [baseTarget_of_isBare h hbare]
      simp [bareTarget, hid]
    | imported hbare hnone himports =>
      rw [baseTarget_of_isBare h hbare]
      simp [bareTarget, hnone, himports]
    | resolved hbare hnone himports hid =>
      rw [baseTarget_of_isBare h hbare]
      rw [resolveType_of_isBare hbare] at hid
      simp [bareTarget, hnone, himports, hid]
    | unresolved hbare hnone himports hid =>
      rw [baseTarget_of_isBare h hbare]
      rw [resolveType_of_isBare hbare] at hid
      simp [bareTarget, hnone, himports, hid]
    | other hqualified hbare hid =>
      rw [baseTarget_of_other h hqualified hbare, hid]
      simp
  · rintro ⟨rfl, hnowhere⟩
    by_cases hqualified : t.pathText? = some (Source.frameworkNamespace ++ "." ++ name)
    · rw [baseTarget_of_qualified h hqualified]
      exact .qualified hqualified
    by_cases hbare : IsBare name t
    · rw [baseTarget_of_isBare h hbare, bareTarget]
      cases hvisible : c.visibleFrom name e.ns with
      | some id => exact .visible hbare hvisible
      | none =>
        by_cases himports : e.importsFramework = true
        · simp only [if_pos himports]
          exact .imported hbare hvisible himports
        simp only [if_neg himports]
        rw [Bool.not_eq_true] at himports
        rw [← resolveType_of_isBare hbare]
        cases hid : c.resolveType t e.ns with
        | some id => exact .resolved hbare hvisible himports hid
        | none => exact .unresolved hbare hvisible himports hid
    · rw [baseTarget_of_other h hqualified hbare] at hnowhere ⊢
      cases hid : c.resolveType t e.ns with
      | some id => exact .other hqualified hbare hid
      | none =>
        rw [hid] at hnowhere
        exact absurd rfl hnowhere

/-- The targets that the search goes through are those that the base list leads to. -/
theorem hasBase_iff (htarget : target ≠ .nowhere) :
    c.HasBase name id target ↔ target ∈ c.baseTargets name id := by
  rw [HasBase, baseTargets]
  cases hget : c.get? id with
  | none => simp
  | some e =>
    simp only [Option.some.injEq, exists_eq_left', List.mem_map]
    refine exists_congr fun base => and_congr_right fun _ => ?_
    constructor
    · rintro ⟨t, ht, hleads⟩
      exact ((leadsTo_iff ht).1 hleads).1
    · intro heq
      cases hread : TypeExpr.read? base with
      | none =>
        rw [baseTarget, hread] at heq
        exact absurd heq.symm htarget
      | some t => exact ⟨t, rfl, (leadsTo_iff hread).2 ⟨heq, htarget⟩⟩

/-- A type has the framework's class as a base exactly when a base leads there. -/
theorem hasBase_framework : c.HasBase name id .framework ↔ .framework ∈ c.baseTargets name id :=
  hasBase_iff (by simp)

/-- It has a declared type as a base exactly when a base leads to that one. -/
theorem hasBase_declared :
    c.HasBase name id (.declared j) ↔ .declared j ∈ c.baseTargets name id :=
  hasBase_iff (by simp)

/-! ### Types that lead to the framework -/

/-- A path of bases leads from the type to one with a base that is the framework's. -/
def Derives (c : Catalog) (name : String) (id : Id) : Prop :=
  ∃ j, Relation.ReflTransGen (fun i j => c.HasBase name i (.declared j)) id j ∧
    c.HasBase name j .framework

/-- A type leads to the framework by a base of its own or through a type that it leads to. -/
theorem derives_iff (c : Catalog) (name : String) (id : Id) : c.Derives name id ↔
    .framework ∈ c.baseTargets name id ∨
      ∃ j, .declared j ∈ c.baseTargets name id ∧ c.Derives name j := by
  simp only [← hasBase_framework, ← hasBase_declared]
  constructor
  · rintro ⟨k, hpath, hframework⟩
    rcases hpath.cases_head with rfl | ⟨j, hbase, hpath⟩
    · exact Or.inl hframework
    · exact Or.inr ⟨j, hbase, k, hpath, hframework⟩
  · rintro (hframework | ⟨j, hbase, k, hpath, hframework⟩)
    · exact ⟨id, .refl, hframework⟩
    · exact ⟨k, .head hbase hpath, hframework⟩

/-! ### One round -/

variable {targets : List BaseTarget} {stack stack' : List Id}

/-- Going through a base list ends early exactly when an entry leads to the framework. -/
theorem push_eq_none_iff (targets : List BaseTarget) (stack : List Id) :
    push targets stack = none ↔ .framework ∈ targets := by
  induction targets generalizing stack with
  | nil => simp [push]
  | cons target targets ih => cases target <;> simp [push, ih]

/-- What is on the stack after a base list was gone through. -/
theorem mem_of_push (h : push targets stack = some stack') :
    j ∈ stack' ↔ .declared j ∈ targets ∨ j ∈ stack := by
  induction targets generalizing stack with
  | nil =>
    obtain rfl := Option.some.inj h
    simp
  | cons target targets ih =>
    cases target with
    | framework => cases h
    | declared id => simp [ih h, or_assoc, or_left_comm]
    | nowhere => simp [ih h]

namespace Search

variable {s s' : Search} {found : Bool}

/-- What a round can do: stop without a next type, pass over a type that was looked at, stop
at a base that is the framework's, or put the bases of a new type on the stack. -/
theorem round_cases (c : Catalog) (name : String) (s : Search) :
    (s.stack = [] ∧ s.round c name = .inr false) ∨
      ∃ id rest seen, s = ⟨id :: rest, seen⟩ ∧
        ((id ∈ seen ∧ s.round c name = .inl ⟨rest, seen⟩) ∨
          (.framework ∈ c.baseTargets name id ∧ s.round c name = .inr true) ∨
            (.framework ∉ c.baseTargets name id ∧
              ∃ stack, push (c.baseTargets name id) rest = some stack ∧
                s.round c name = .inl ⟨stack, id :: seen⟩)) := by
  match s with
  | ⟨[], seen⟩ => exact Or.inl ⟨rfl, rfl⟩
  | ⟨id :: rest, seen⟩ =>
    refine Or.inr ⟨id, rest, seen, rfl, ?_⟩
    simp only [round, List.contains_iff_mem]
    by_cases hid : id ∈ seen
    · exact Or.inl ⟨hid, if_pos hid⟩
    · rw [if_neg hid, ← push_eq_none_iff _ rest]
      refine Or.inr ?_
      cases hpush : push (c.baseTargets name id) rest with
      | none => exact Or.inl ⟨rfl, rfl⟩
      | some stack => exact Or.inr ⟨by simp, stack, rfl, rfl⟩

/-- The types that were looked at do not lead to the framework by a base of their own, and
their bases lead to types that were looked at or are on the stack. -/
def IsClosed (c : Catalog) (name : String) (s : Search) : Prop :=
  ∀ i ∈ s.seen, .framework ∉ c.baseTargets name i ∧
    ∀ j, .declared j ∈ c.baseTargets name i → j ∈ s.seen ∨ j ∈ s.stack

/-- A type on the stack leads to the framework. -/
def Leads (c : Catalog) (name : String) (s : Search) : Prop := ∃ i ∈ s.stack, c.Derives name i

variable {rest seen : List Id}

/-- A way from a type that was looked at leads over the stack. -/
theorem IsClosed.leads (h : s.IsClosed c name) (hi : i ∈ s.seen) (hderives : c.Derives name i) :
    s.Leads c name := by
  obtain ⟨k, hpath, hframework⟩ := hderives
  induction hpath using Relation.ReflTransGen.head_induction_on with
  | refl => exact absurd (hasBase_framework.1 hframework) (h k hi).1
  | head hbase hpath ih =>
    rcases (h _ hi).2 _ (hasBase_declared.1 hbase) with hseen | hstack
    · exact ih hseen
    · exact ⟨_, hstack, k, hpath, hframework⟩

/-- Passing a type that was seen keeps the search closed. -/
theorem IsClosed.pass (h : IsClosed c name ⟨id :: rest, seen⟩) (hid : id ∈ seen) :
    IsClosed c name ⟨rest, seen⟩ := fun i hi => by
  refine ⟨(h i hi).1, fun j hj => ?_⟩
  rcases (h i hi).2 j hj with hseen | hstack
  · exact Or.inl hseen
  · rcases List.mem_cons.1 hstack with rfl | hrest
    · exact Or.inl hid
    · exact Or.inr hrest

/-- Passing it loses no way to the framework. -/
theorem IsClosed.leads_pass (h : IsClosed c name ⟨id :: rest, seen⟩) (hid : id ∈ seen) :
    Leads c name ⟨rest, seen⟩ ↔ Leads c name ⟨id :: rest, seen⟩ := by
  constructor
  · rintro ⟨i, hi, hderives⟩
    exact ⟨i, List.mem_cons_of_mem _ hi, hderives⟩
  · rintro ⟨i, hi, hderives⟩
    rcases List.mem_cons.1 hi with rfl | hi
    · exact (h.pass hid).leads hid hderives
    · exact ⟨i, hi, hderives⟩

/-- Looking at a type with its bases put on the stack keeps the search closed. -/
theorem IsClosed.look (h : IsClosed c name ⟨id :: rest, seen⟩)
    (hno : .framework ∉ c.baseTargets name id)
    (hpush : push (c.baseTargets name id) rest = some stack) :
    IsClosed c name ⟨stack, id :: seen⟩ := fun i hi => by
  rcases List.mem_cons.1 hi with rfl | hi
  · exact ⟨hno, fun j hj => Or.inr ((mem_of_push hpush).2 (Or.inl hj))⟩
  · refine ⟨(h i hi).1, fun j hj => ?_⟩
    rcases (h i hi).2 j hj with hseen | hstack
    · exact Or.inl (List.mem_cons_of_mem _ hseen)
    · rcases List.mem_cons.1 hstack with rfl | hrest
      · exact Or.inl List.mem_cons_self
      · exact Or.inr ((mem_of_push hpush).2 (Or.inr hrest))

/-- Looking at it loses no way to the framework either. -/
theorem leads_look (hno : .framework ∉ c.baseTargets name id)
    (hpush : push (c.baseTargets name id) rest = some stack) :
    Leads c name ⟨stack, id :: seen⟩ ↔ Leads c name ⟨id :: rest, seen⟩ := by
  simp only [Leads, mem_of_push hpush, List.mem_cons, or_and_right, exists_or, exists_eq_left]
  rw [derives_iff c name id, or_iff_right hno]

/-- **A round that goes on** keeps the invariant and what the stack leads to. -/
theorem IsClosed.round (h : s.IsClosed c name) (hround : s.round c name = .inl s') :
    s'.IsClosed c name ∧ (s'.Leads c name ↔ s.Leads c name) := by
  rcases round_cases c name s with ⟨-, hend⟩ | ⟨id, rest, seen, rfl, hcases⟩
  · rw [hend] at hround
    cases hround
  rcases hcases with ⟨hid, hpass⟩ | ⟨-, hend⟩ | ⟨hno, stack, hpush, hlook⟩
  · obtain rfl := Sum.inl.inj (hpass.symm.trans hround)
    exact ⟨h.pass hid, h.leads_pass hid⟩
  · rw [hend] at hround
    cases hround
  · obtain rfl := Sum.inl.inj (hlook.symm.trans hround)
    exact ⟨h.look hno hpush, leads_look hno hpush⟩

/-- **A round that ends the search** answers it. -/
theorem found_iff_of_round (hround : s.round c name = .inr found) :
    found = true ↔ s.Leads c name := by
  rcases round_cases c name s with ⟨hstack, hend⟩ | ⟨id, rest, seen, rfl, hcases⟩
  · obtain rfl := Sum.inr.inj (hend.symm.trans hround)
    simp [Leads, hstack]
  rcases hcases with ⟨-, hpass⟩ | ⟨hframework, hend⟩ | ⟨-, stack, -, hlook⟩
  · rw [hpass] at hround
    cases hround
  · obtain rfl := Sum.inr.inj (hend.symm.trans hround)
    exact iff_of_true rfl ⟨id, List.mem_cons_self, (derives_iff c name id).2 (Or.inl hframework)⟩
  · rw [hlook] at hround
    cases hround

/-! ### The whole search -/

/-- The search ends with an answer after so many rounds. -/
inductive EndsAfter (c : Catalog) (name : String) : Search → Nat → Bool → Prop
  | last {s : Search} {found : Bool} (h : s.round c name = .inr found) : EndsAfter c name s 1 found
  | next {s s' : Search} {n : Nat} {found : Bool} (h : s.round c name = .inl s')
    (hrest : EndsAfter c name s' n found) : EndsAfter c name s (n + 1) found

/-- **The search ends** within its bound. -/
theorem endsAfter_answer (c : Catalog) (name : String) (s : Search) :
    ∃ n ≤ s.roundsLeft c name + 1, EndsAfter c name s n (s.answer c name) := by
  induction hleft : s.roundsLeft c name using Nat.strongRecOn generalizing s with
  | _ left ih =>
    rw [answer]
    split
    · next s' hround =>
      have hlt := roundsLeft_lt_of_round hround
      obtain ⟨n, hn, hends⟩ := ih _ (hleft ▸ hlt) s' rfl
      exact ⟨n + 1, by omega, .next hround hends⟩
    · next found hround => exact ⟨1, by omega, .last hround⟩

/-- **The answer**, from the invariant by induction on the rounds. -/
theorem EndsAfter.found_iff {n : Nat} (h : EndsAfter c name s n found)
    (hclosed : s.IsClosed c name) : found = true ↔ s.Leads c name := by
  induction h with
  | last hround => exact found_iff_of_round hround
  | next hround _ ih =>
    obtain ⟨hclosed', hleads⟩ := hclosed.round hround
    exact (ih hclosed').trans hleads

/-- Lists that hang at the positions of a list weigh as much as they are long together. -/
theorem weight_eq_length_flatMap {α β : Type} {xs : List α} {f : α → List β} {w : Nat → Nat}
    (h : ∀ i x, xs[i]? = some x → w i = (f x).length) :
    Reach.weight w [] xs.length = (xs.flatMap f).length := by
  induction xs using List.reverseRecOn with
  | nil => rfl
  | append_singleton xs x ih =>
    have hxs := ih fun i y hi =>
      h i y (List.getElem?_append_left (List.getElem?_eq_some_iff.1 hi).1 ▸ hi)
    have hx := h xs.length x List.getElem?_concat_length
    simp [Reach.weight, hxs, hx]

/-- Before the first round every base list entry may still add a type to the stack. -/
theorem roundsLeft_start (c : Catalog) (name : String) (id : Id) :
    roundsLeft c name ⟨[id], []⟩ = (c.entries.flatMap (·.bases)).length + 1 := by
  have hlists (i : Nat) (e : Entry) (he : c.get? i = some e) :
      (c.baseTargets name i).length = e.bases.length := by
    simp only [baseTargets, he, List.length_map]
  rw [roundsLeft, basesLeft, size, weight_eq_length_flatMap hlists, List.length_singleton,
    Nat.add_comm]

end Search

/-- A type leads to the framework exactly when the search from it says so. -/
theorem derivesFrom_iff : c.derivesFrom name id = true ↔ c.Derives name id := by
  obtain ⟨n, -, hends⟩ := Search.endsAfter_answer c name ⟨[id], []⟩
  refine (hends.found_iff fun i hi => absurd hi List.not_mem_nil).trans ?_
  simp [Search.Leads]

/-- **What the search finds.**  In every catalog and from every type, the search for the
framework's type ends, after at most two rounds more than there are base list entries.  It
answers yes if and only if a path of bases, each read from a base list and followed by the
rules of `Catalog.LeadsTo`, leads from the type to one with a base that is the framework's. -/
theorem derivesFrom_iff_path (c : Catalog) (name : String) (id : Id) :
    (∃ n ≤ (c.entries.flatMap (·.bases)).length + 2,
        Search.EndsAfter c name ⟨[id], []⟩ n (c.derivesFrom name id)) ∧
      (c.derivesFrom name id = true ↔
        ∃ j, Relation.ReflTransGen (fun i j => c.HasBase name i (.declared j)) id j ∧
          c.HasBase name j .framework) := by
  refine ⟨?_, derivesFrom_iff⟩
  obtain ⟨n, hn, hends⟩ := Search.endsAfter_answer c name ⟨[id], []⟩
  rw [Search.roundsLeft_start] at hn
  exact ⟨n, hn, hends⟩

end Catalog
end MappingAudit
