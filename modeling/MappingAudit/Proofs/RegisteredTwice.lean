/-
# Pairs registered twice

Entries of the registry that register a pair stand at different places of the files, so
those of one pair have an order.  A registration is reported when its pair has an entry
before its own, and else for its mapping back when that pair has one
(`map_site_duplicates`).  Nothing is reported exactly when no pair has two entries, and
what is not reported stays so when other registrations are taken out: entries only go.
-/

import MappingAudit.CSharp.Declarations
import MappingAudit.Proofs.Findings
import MappingAudit.Proofs.ReadCalls
import MappingAudit.Workspace
import Mathlib.Data.List.Flatten
import Mathlib.Data.List.Nodup

namespace MappingAudit

/-! ### The order of entries -/

namespace Mapped

/-- The entry registers its pair and does not only name it. -/
def registers (e : Mapped) : Bool := e.origin != .implied

/-- The position of the file and the place within the file. -/
def place (e : Mapped) : Nat × Nat := (e.fileIndex, e.span.startByte)

/-- The entry stands before a place. -/
def isBefore (e : Mapped) (p : Nat × Nat) : Bool :=
  e.fileIndex < p.1 || (e.fileIndex == p.1 && e.span.startByte < p.2)

variable {a b c : Mapped}

/-- Entries are sorted by their files, then by their starts. -/
theorem notAfter_iff : a.notAfter b = true ↔ a.fileIndex < b.fileIndex ∨
    a.fileIndex = b.fileIndex ∧ a.span.startByte ≤ b.span.startByte := by
  simp [notAfter]

/-- An entry stands before a place of a later file, or before a later place of its own. -/
theorem isBefore_iff {p : Nat × Nat} : a.isBefore p = true ↔
    a.fileIndex < p.1 ∨ a.fileIndex = p.1 ∧ a.span.startByte < p.2 := by
  simp [isBefore]

/-- The order of entries is transitive. -/
theorem notAfter_trans (a b c : Mapped) (hab : a.notAfter b = true) (hbc : b.notAfter c = true) :
    a.notAfter c = true := by
  rw [notAfter_iff] at *
  omega

/-- Of two entries one stands not after the other. -/
theorem notAfter_total (a b : Mapped) : (a.notAfter b || b.notAfter a) = true := by
  rw [Bool.or_eq_true, notAfter_iff, notAfter_iff]
  omega

/-- No entry stands after itself. -/
theorem notAfter_refl (a : Mapped) : a.notAfter a = true := by
  simpa using notAfter_total a a

/-- Entries share a place that has the same file and the same start. -/
theorem samePlace_iff : a.samePlace b = true ↔ a.place = b.place := by
  simp [samePlace, place]

/-- An entry before the place of another one is not after it, and elsewhere. -/
theorem isBefore_place_iff :
    a.isBefore b.place = true ↔ a.notAfter b = true ∧ a.place ≠ b.place := by
  rw [isBefore_iff, notAfter_iff, ne_eq, place, place, Prod.mk.injEq]
  omega

/-- What stands before the first of two places stands before the second. -/
theorem isBefore_of_notAfter (hab : a.notAfter b = true) (hbc : b.isBefore c.place = true) :
    a.isBefore c.place = true := by
  rw [isBefore_iff, place] at *
  rw [notAfter_iff] at hab
  omega

/-- No entry stands before its own place. -/
theorem isBefore_self (a : Mapped) : a.isBefore a.place = false := by
  simp [isBefore, place]

end Mapped

namespace Registry

/-- The pair is registered before a place. -/
def isTaken (r : Registry) (key : PairKey) (p : Nat × Nat) : Bool :=
  r.entries.any fun e => e.registers && e.key == key && e.isBefore p

/-- Entries that register a pair stand at different places. -/
def HasPlaces (r : Registry) : Prop := ((r.entries.filter (·.registers)).map (·.place)).Nodup

instance (r : Registry) : Decidable r.HasPlaces :=
  inferInstanceAs (Decidable (((r.entries.filter (·.registers)).map (·.place)).Nodup))

/-- The entries that register a pair, in the order of the files. -/
def registering (r : Registry) (key : PairKey) : List Mapped := (r.lookup key).filter (·.registers)

variable {r : Registry} {key : PairKey} {e f : Mapped} {p : Nat × Nat}

/-- A pair is registered before a place when one of its registering entries stands there. -/
theorem isTaken_iff : r.isTaken key p = true ↔
    ∃ e ∈ r.entries, e.registers = true ∧ e.key = key ∧ e.isBefore p = true := by
  simp only [isTaken, List.any_eq_true, Bool.and_eq_true, beq_iff_eq, and_assoc]

/-- Looking a pair up gives the entries with its key. -/
theorem mem_lookup : e ∈ r.lookup key ↔ e ∈ r.entries ∧ e.key = key := by
  rw [lookup, List.mem_mergeSort, List.mem_filter, beq_iff_eq]

/-- Those that register it are among them. -/
theorem mem_registering :
    e ∈ r.registering key ↔ e ∈ r.entries ∧ e.key = key ∧ e.registers = true := by
  rw [registering, List.mem_filter, mem_lookup, and_assoc]

/-- The entries of a pair are in order. -/
theorem pairwise_lookup (r : Registry) (key : PairKey) :
    (r.lookup key).Pairwise fun a b => a.notAfter b = true :=
  List.pairwise_mergeSort Mapped.notAfter_trans Mapped.notAfter_total _

/-- So are those that register it. -/
theorem pairwise_registering (r : Registry) (key : PairKey) :
    (r.registering key).Pairwise fun a b => a.notAfter b = true :=
  (r.pairwise_lookup key).sublist List.filter_sublist

/-- No two entries that register a pair share a place. -/
theorem HasPlaces.nodup_registering (h : r.HasPlaces) (key : PairKey) :
    ((r.registering key).map (·.place)).Nodup := by
  have hperm : (r.registering key).Perm
      ((r.entries.filter (·.registers)).filter (·.key == key)) := by
    rw [List.filter_comm]
    exact (List.mergeSort_perm _ _).filter _
  exact ((hperm.map _).nodup_iff).2 (h.sublist (List.filter_sublist.map _))

/-- Two entries that register a pair at one place are the same. -/
theorem HasPlaces.eq_of_place_eq (h : r.HasPlaces) (he : e ∈ r.entries) (hf : f ∈ r.entries)
    (hereg : e.registers = true) (hfreg : f.registers = true) (hplace : e.place = f.place) :
    e = f :=
  List.inj_on_of_nodup_map h (List.mem_filter.2 ⟨he, hereg⟩) (List.mem_filter.2 ⟨hf, hfreg⟩) hplace

/-- **The first registration of a pair** stands after no other one. -/
theorem exists_first? (he : e ∈ r.entries) (hkey : e.key = key) (hreg : e.registers = true) :
    ∃ f ∈ r.registering key, r.first? key = some f ∧
      ∀ g ∈ r.registering key, f.notAfter g = true := by
  have hsome : ((r.lookup key).find? (·.registers)).isSome = true :=
    List.find?_isSome.2 ⟨e, mem_lookup.2 ⟨he, hkey⟩, hreg⟩
  obtain ⟨f, hf⟩ := Option.isSome_iff_exists.1 hsome
  obtain ⟨hfreg, before, after, hsplit, hbefore⟩ := List.find?_eq_some_iff_append.1 hf
  have hmem : f ∈ r.registering key :=
    List.mem_filter.2 ⟨List.mem_of_find?_eq_some hf, hfreg⟩
  refine ⟨f, hmem, hf, fun g hg => ?_⟩
  obtain ⟨hglookup, hgreg⟩ := List.mem_filter.1 hg
  have hsorted := r.pairwise_lookup key
  rw [hsplit] at hglookup hsorted
  rcases List.mem_append.1 hglookup with hgbefore | hgafter
  · have hnot := hbefore g hgbefore
    rw [hgreg] at hnot
    cases hnot
  · rcases List.mem_cons.1 hgafter with rfl | hgafter
    · exact g.notAfter_refl
    · exact List.rel_of_pairwise_cons (List.pairwise_append.1 hsorted).2.1 hgafter

/-- No pair is registered before one of its entries exactly when none has two. -/
theorem HasPlaces.forall_not_isTaken_iff (h : r.HasPlaces) :
    (∀ e ∈ r.entries, e.registers = true → r.isTaken e.key e.place = false) ↔
      ∀ key, (r.registering key).length ≤ 1 := by
  constructor
  · intro hfree key
    match hlist : r.registering key with
    | [] => exact Nat.zero_le 1
    | [_] => exact Nat.le_refl 1
    | a :: b :: rest =>
      have hsorted := r.pairwise_registering key
      have hnodup := h.nodup_registering key
      rw [hlist] at hsorted hnodup
      have hab : a.notAfter b = true := List.rel_of_pairwise_cons hsorted List.mem_cons_self
      have hne : a.place ≠ b.place := fun heq =>
        (List.nodup_cons.1 hnodup).1 (List.mem_map.2 ⟨b, List.mem_cons_self, heq.symm⟩)
      have hmem {g : Mapped} (hg : g ∈ a :: b :: rest) := mem_registering.1 (hlist ▸ hg)
      obtain ⟨ha, hakey, hareg⟩ := hmem List.mem_cons_self
      obtain ⟨hb, hbkey, hbreg⟩ := hmem (List.mem_cons_of_mem _ List.mem_cons_self)
      have htaken : r.isTaken b.key b.place = true :=
        isTaken_iff.2 ⟨a, ha, hareg, hakey.trans hbkey.symm,
          Mapped.isBefore_place_iff.2 ⟨hab, hne⟩⟩
      rw [hfree b hb hbreg] at htaken
      cases htaken
  · intro hone e he hreg
    refine Bool.eq_false_iff.2 fun htaken => ?_
    obtain ⟨f, hf, hfreg, hfkey, hbefore⟩ := isTaken_iff.1 htaken
    have hef : e = f := by
      have hemem : e ∈ r.registering e.key := mem_registering.2 ⟨he, rfl, hreg⟩
      have hfmem : f ∈ r.registering e.key := mem_registering.2 ⟨hf, hfkey, hfreg⟩
      match hlist : r.registering e.key with
      | [] => exact absurd (hlist ▸ hemem) List.not_mem_nil
      | [g] =>
        rw [hlist] at hemem hfmem
        rw [List.mem_singleton.1 hemem, List.mem_singleton.1 hfmem]
      | _ :: _ :: _ =>
        have hlength := hone e.key
        rw [hlist] at hlength
        simp at hlength
    rw [hef, Mapped.isBefore_self] at hbefore
    cases hbefore

end Registry

/-! ### The entries of a registration -/

namespace Registration

/-- The pair that is mapped. -/
def key (c : Catalog) (r : Registration) : PairKey := PairKey.ofTypes c r.ns r.source r.destination

/-- The entry of the mapping itself. -/
def entry (c : Catalog) (r : Registration) : Mapped :=
  ⟨r.key c, r.id, .explicit, r.file, r.fileIndex, r.span⟩

/-- The entry of a mapping back. -/
def backEntry (c : Catalog) (r : Registration) (b : ReverseCall) : Mapped :=
  ⟨(r.key c).reversed, r.id, .reverse, r.file, r.fileIndex, b.span⟩

/-- The registrations with their positions as identifiers. -/
def renumber (rs : List Registration) : List Registration :=
  rs.zipIdx.map fun (r, i) => { r with id := i }

end Registration

namespace Mapped

variable {c : Catalog} {r : Registration}

/-- The entries of a registration carry its identifier. -/
theorem registration_of_mem {e : Mapped} (he : e ∈ ofRegistration c r) : e.registration = r.id := by
  rw [ofRegistration, List.mem_append, List.mem_cons] at he
  rcases he with he | rfl | he
  · obtain ⟨b, -, rfl⟩ := List.mem_map.1 he
    rfl
  · rfl
  · obtain ⟨i, -, rfl⟩ := List.mem_map.1 he
    rfl

/-- What a registration enters for pairs that it only names. -/
theorem filter_implied (c : Catalog) (r : Registration) {p : Mapped → Bool}
    (hp : ∀ e : Mapped, e.origin = .implied → p e = false) :
    (ofRegistration c r).filter p =
      (r.reverse.toList.map (r.backEntry c)).filter p ++ [r.entry c].filter p := by
  have himplied : (r.includes.map fun i => (⟨PairKey.ofTypes c r.ns i.source i.destination, r.id,
      .implied, r.file, r.fileIndex, i.span⟩ : Mapped)).filter p = [] := by
    rw [List.filter_eq_nil_iff]
    intro e he
    obtain ⟨i, -, rfl⟩ := List.mem_map.1 he
    rw [hp _ rfl]
    exact Bool.false_ne_true
  rw [ofRegistration, List.filter_append, ← List.singleton_append, List.filter_append, himplied,
    List.append_nil]
  rfl

/-- A registration registers its mapping back, if it has one, and its mapping. -/
theorem filter_registers (c : Catalog) (r : Registration) :
    (ofRegistration c r).filter (·.registers) =
      r.reverse.toList.map (r.backEntry c) ++ [r.entry c] := by
  rw [filter_implied c r fun e he => by simp [registers, he]]
  congr 1
  rw [List.filter_eq_self]
  intro e he
  obtain ⟨b, -, rfl⟩ := List.mem_map.1 he
  rfl

/-- Its mapping is its only explicit entry. -/
theorem filter_explicit (c : Catalog) (r : Registration) :
    (ofRegistration c r).filter (·.origin == .explicit) = [r.entry c] := by
  rw [filter_implied c r fun e he => by simp [he]]
  have hback : (r.reverse.toList.map (r.backEntry c)).filter (·.origin == .explicit) = [] := by
    rw [List.filter_eq_nil_iff]
    intro e he
    obtain ⟨b, -, rfl⟩ := List.mem_map.1 he
    exact Bool.false_ne_true
  rw [hback]
  rfl

/-- Its mapping back is its only reverse entry. -/
theorem filter_reverse (c : Catalog) (r : Registration) :
    (ofRegistration c r).filter (·.origin == .reverse) = r.reverse.toList.map (r.backEntry c) := by
  rw [filter_implied c r fun e he => by simp [he]]
  have hback : (r.reverse.toList.map (r.backEntry c)).filter (·.origin == .reverse) =
      r.reverse.toList.map (r.backEntry c) := by
    rw [List.filter_eq_self]
    intro e he
    obtain ⟨b, -, rfl⟩ := List.mem_map.1 he
    rfl
  rw [hback]
  exact List.append_nil _

end Mapped

namespace Registry

/-- Where identifiers differ, a registration has the entries that it makes. -/
theorem entriesOf_eq {c : Catalog} {rs : List Registration} {r : Registration} (hr : r ∈ rs)
    (hids : (rs.map (·.id)).Nodup) :
    (ofRegistrations c rs).entriesOf r.id = Mapped.ofRegistration c r := by
  induction rs with
  | nil => exact absurd hr List.not_mem_nil
  | cons q rs ih =>
    rw [List.map_cons, List.nodup_cons] at hids
    have hcons : (ofRegistrations c (q :: rs)).entriesOf r.id =
        (Mapped.ofRegistration c q).filter (·.registration == r.id) ++
          (ofRegistrations c rs).entriesOf r.id := by
      simp only [entriesOf, ofRegistrations, List.flatMap_cons, List.filter_append]
    have hother {e : Mapped} {q : Registration} (he : e ∈ Mapped.ofRegistration c q)
        (hne : q.id ≠ r.id) : ¬(e.registration == r.id) = true := by
      rw [Mapped.registration_of_mem he, beq_iff_eq]
      exact hne
    rcases List.mem_cons.1 hr with rfl | hmem
    · have hself : (Mapped.ofRegistration c r).filter (·.registration == r.id) =
          Mapped.ofRegistration c r := by
        rw [List.filter_eq_self]
        intro e he
        rw [Mapped.registration_of_mem he, beq_iff_eq]
      have hrest : (ofRegistrations c rs).entriesOf r.id = [] := by
        rw [entriesOf, List.filter_eq_nil_iff]
        intro e he
        obtain ⟨q, hq, he⟩ := List.mem_flatMap.1 he
        exact hother he fun heq => hids.1 (List.mem_map.2 ⟨q, hq, heq⟩)
      rw [hcons, hself, hrest, List.append_nil]
    · have hnone : (Mapped.ofRegistration c q).filter (·.registration == r.id) = [] := by
        rw [List.filter_eq_nil_iff]
        intro e he
        exact hother he fun heq => hids.1 (heq ▸ List.mem_map.2 ⟨r, hmem, rfl⟩)
      rw [hcons, hnone, List.nil_append, ih hmem hids.2]

/-- Where a registration repeats a pair: at its own place when its pair is registered
before that, else at its mapping back when the pair of that is. -/
def repeated? (registry : Registry) (c : Catalog) (r : Registration) : Option (String × Span) :=
  if registry.isTaken (r.key c) (r.fileIndex, r.span.startByte) then some ("explicit", r.span)
  else (r.reverse.filter fun b =>
    registry.isTaken (r.key c).reversed (r.fileIndex, b.span.startByte)).map fun b =>
      ("reverse", b.span)

/-- A registration repeats no pair when none of its entries has an earlier one. -/
theorem repeated?_eq_none_iff (registry : Registry) (c : Catalog) (r : Registration) :
    registry.repeated? c r = none ↔
      ∀ e ∈ Mapped.ofRegistration c r, e.registers = true →
        registry.isTaken e.key e.place = false := by
  have hmem : (∀ e ∈ Mapped.ofRegistration c r, e.registers = true →
      registry.isTaken e.key e.place = false) ↔
        ∀ e ∈ r.reverse.toList.map (r.backEntry c) ++ [r.entry c],
          registry.isTaken e.key e.place = false := by
    simp only [← Mapped.filter_registers, List.mem_filter, and_imp]
  rw [hmem, repeated?]
  cases hreverse : r.reverse with
  | none =>
    simp only [Option.toList_none, List.map_nil, List.nil_append, List.mem_singleton, forall_eq]
    change _ ↔ registry.isTaken (r.key c) (r.fileIndex, r.span.startByte) = false
    cases registry.isTaken (r.key c) (r.fileIndex, r.span.startByte) <;> simp
  | some b =>
    simp only [Option.toList_some, List.map_cons, List.map_nil, List.cons_append, List.nil_append,
      List.forall_mem_cons, List.not_mem_nil, false_implies, implies_true, and_true,
      Option.filter_some]
    change _ ↔ registry.isTaken (r.key c).reversed (r.fileIndex, b.span.startByte) = false ∧
      registry.isTaken (r.key c) (r.fileIndex, r.span.startByte) = false
    cases registry.isTaken (r.key c) (r.fileIndex, r.span.startByte) <;>
      cases registry.isTaken (r.key c).reversed (r.fileIndex, b.span.startByte) <;> simp

end Registry

/-! ### Other registrations taken out -/

namespace Mapped

/-- The entry without the position of its registration. -/
def unnumbered (e : Mapped) : Mapped := { e with registration := 0 }

/-- Entries without positions do not depend on the position of the registration. -/
theorem map_unnumbered (c : Catalog) (r : Registration) (i : Nat) :
    (ofRegistration c { r with id := i }).map unnumbered = (ofRegistration c r).map unnumbered := by
  simp only [ofRegistration, List.map_append, List.map_cons, List.map_map]
  rfl

end Mapped

namespace Registration

/-- Registrations of files have their positions as identifiers. -/
theorem map_id_numbered (c : Catalog) (id : Nat)
    (chains : List (Nat × Source.File × Source.Chain)) :
    (numbered c id chains).map (·.id) = List.range' id (numbered c id chains).length := by
  induction chains generalizing id with
  | nil => rfl
  | cons p chains ih =>
    obtain ⟨i, f, chain⟩ := p
    rw [numbered]
    cases hchain : ofChain? c i f id chain with
    | none => exact ih id
    | some r =>
      obtain ⟨-, root, types, -, -, rfl⟩ := ofChain?_eq_some_iff.1 hchain
      rw [List.map_cons, List.length_cons, List.range'_succ, ih, id_ofCalls]

/-- Registrations of files are numbered from zero. -/
theorem map_id_ofFiles (c : Catalog) (files : List Source.File) :
    (ofFiles c files).map (·.id) = List.range (ofFiles c files).length := by
  rw [List.range_eq_range']
  exact map_id_numbered c 0 _

/-- A registration of files is what one of their chains stands for. -/
theorem exists_of_mem_numbered {c : Catalog} {id : Nat}
    {chains : List (Nat × Source.File × Source.Chain)} {r : Registration}
    (h : r ∈ numbered c id chains) :
    ∃ entry ∈ chains, ∃ id', ofChain? c entry.1 entry.2.1 id' entry.2.2 = some r := by
  induction chains generalizing id with
  | nil => exact absurd h List.not_mem_nil
  | cons entry chains ih =>
    obtain ⟨i, f, chain⟩ := entry
    rw [numbered] at h
    split at h
    · next r' hr' =>
      rcases List.mem_cons.1 h with rfl | h
      · exact ⟨_, List.mem_cons_self, id, hr'⟩
      · obtain ⟨entry, hentry, hchain⟩ := ih h
        exact ⟨entry, List.mem_cons_of_mem _ hentry, hchain⟩
    · obtain ⟨entry, hentry, hchain⟩ := ih h
      exact ⟨entry, List.mem_cons_of_mem _ hentry, hchain⟩

/-- A registration of several files comes from a chain of one of them. -/
theorem exists_of_mem_ofFiles {c : Catalog} {files : List Source.File} {r : Registration}
    (h : r ∈ ofFiles c files) :
    ∃ f ∈ files, ∃ chain ∈ f.chains, ∃ i id, ofChain? c i f id chain = some r := by
  obtain ⟨⟨i, f, chain⟩, hentry, id, hr⟩ := exists_of_mem_numbered h
  obtain ⟨⟨f', j⟩, hf', hentry⟩ := List.mem_flatMap.1 hentry
  obtain ⟨chain', hchain', heq⟩ := List.mem_map.1 hentry
  obtain ⟨-, heq⟩ := Prod.mk.inj heq
  obtain ⟨rfl, rfl⟩ := Prod.mk.inj heq
  exact ⟨f', List.fst_mem_of_mem_zipIdx hf', chain', hchain', i, id, hr⟩

/-- New positions count from zero again. -/
theorem map_id_renumber (rs : List Registration) :
    (renumber rs).map (·.id) = List.range rs.length := by
  rw [renumber, List.map_map, List.range_eq_range']
  exact List.zipIdx_map_snd 0 rs

/-- Only the position of a registration changes. -/
theorem getElem?_renumber (rs : List Registration) (k : Nat) :
    (renumber rs)[k]? = rs[k]?.map fun r => { r with id := k } := by
  rw [renumber, List.getElem?_map, List.getElem?_zipIdx, Option.map_map, Nat.zero_add]
  rfl

end Registration

namespace Registry

variable {c : Catalog} {registry registry' : Registry}

/-- The pair is registered before a place, whatever the positions of registrations. -/
theorem isTaken_eq_any (r : Registry) (key : PairKey) (p : Nat × Nat) :
    r.isTaken key p = (r.entries.map Mapped.unnumbered).any fun e =>
      e.registers && e.key == key && e.isBefore p := by
  rw [isTaken, List.any_map]
  rfl

/-- Whether places differ does not depend on positions of registrations. -/
theorem hasPlaces_iff (r : Registry) : r.HasPlaces ↔
    (((r.entries.map Mapped.unnumbered).filter (·.registers)).map (·.place)).Nodup := by
  rw [HasPlaces, List.filter_map, List.map_map]
  rfl

/-- New positions of registrations change the positions in the entries only. -/
theorem map_unnumbered_renumber (c : Catalog) (rs : List Registration) :
    (ofRegistrations c (Registration.renumber rs)).entries.map Mapped.unnumbered =
      (ofRegistrations c rs).entries.map Mapped.unnumbered := by
  have hfst : rs.flatMap (Mapped.ofRegistration c) =
      rs.zipIdx.flatMap fun p => Mapped.ofRegistration c p.1 := by
    conv_lhs => rw [← List.zipIdx_map_fst 0 rs, List.flatMap_map]
  rw [ofRegistrations, ofRegistrations, Registration.renumber, hfst, List.flatMap_map,
    List.map_flatMap, List.map_flatMap]
  simp only [Mapped.map_unnumbered]

/-- Entries that are taken out make no pair registered earlier. -/
theorem isTaken_of_sublist (h : (registry'.entries.map Mapped.unnumbered).Sublist
    (registry.entries.map Mapped.unnumbered)) {key : PairKey} {p : Nat × Nat}
    (htaken : registry'.isTaken key p = true) : registry.isTaken key p = true := by
  rw [isTaken_eq_any, List.any_eq_true] at *
  obtain ⟨e, he, hp⟩ := htaken
  exact ⟨e, h.subset he, hp⟩

/-- With fewer entries a registration repeats no pair that it did not repeat before. -/
theorem repeated?_eq_none_of_sublist (h : (registry'.entries.map Mapped.unnumbered).Sublist
    (registry.entries.map Mapped.unnumbered)) {r : Registration}
    (hnone : registry.repeated? c r = none) : registry'.repeated? c r = none := by
  rw [repeated?_eq_none_iff] at *
  intro e he hreg
  have hfree := hnone e he hreg
  rw [← Bool.not_eq_true] at hfree ⊢
  exact fun htaken => hfree (isTaken_of_sublist h htaken)

/-- The entries of some registrations, without one of them. -/
theorem sublist_eraseIdx (c : Catalog) (rs : List Registration) (j : Nat) :
    ((ofRegistrations c (Registration.renumber (rs.eraseIdx j))).entries.map
        Mapped.unnumbered).Sublist
      ((ofRegistrations c rs).entries.map Mapped.unnumbered) := by
  rw [map_unnumbered_renumber]
  exact ((List.eraseIdx_sublist rs j).flatMap _).map _

end Registry

/-! ### The findings -/

namespace Check

/-- The findings about pairs registered twice. -/
def duplicatesIn (settings : SmellSettings) (x : Context) : List Finding :=
  (report settings x).filter (·.rule == .duplicate)

/-- What a finding says about its place. -/
def site (f : Finding) : Option String × String × Span :=
  (f.detail? .duplicateOrigin, f.file, f.span)

/-- Only the check of pairs reports them. -/
theorem duplicatesIn_eq (settings : SmellSettings) (x : Context) :
    duplicatesIn settings x = duplicates x := by
  have hchecks : (all settings).filter (fun k => k.rules.any (· == .duplicate)) =
      [ofFindings "duplicates" [.duplicate] duplicates] := rfl
  have hself : (duplicates x).filter (·.rule == .duplicate) = duplicates x :=
    List.filter_eq_self.2 fun f hf => beq_iff_eq.2 (rule_of_mem_duplicates hf)
  rw [duplicatesIn, filter_report_eq settings x (· == .duplicate), hchecks, List.flatMap_singleton]
  exact hself

variable {x : Context}

/-- A finding about a repeated pair says how the pair is registered, and where. -/
theorem site_duplicateFinding (e first : Mapped) (s d : String) :
    site (duplicateFinding x e first s d) =
      (some (if e.origin == .explicit then "explicit" else "reverse"), x.registration.file,
        e.span) := by
  have horigin (args : List String) :
      (x.finding .duplicate args e.span).detail? .duplicateOrigin = none := rfl
  have hfile (args : List String) :
      (x.finding .duplicate args e.span).file = x.registration.file := rfl
  have hspan (args : List String) : (x.finding .duplicate args e.span).span = e.span := rfl
  simp [site, duplicateFinding, horigin, hfile, hspan]

/-- An entry has an earlier one when its pair is registered before it. -/
theorem earlier?_isSome (h : x.registry.HasPlaces) {e : Mapped} (he : e ∈ x.registry.entries)
    (hreg : e.registers = true) :
    (earlier? x e).isSome = x.registry.isTaken e.key e.place := by
  obtain ⟨f, hf, hfirst, hle⟩ := Registry.exists_first? he rfl hreg
  obtain ⟨hfmem, hfkey, hfreg⟩ := Registry.mem_registering.1 hf
  have hemem : e ∈ x.registry.registering e.key := Registry.mem_registering.2 ⟨he, rfl, hreg⟩
  rw [earlier?, hfirst, Option.filter_some]
  by_cases hplace : f.place = e.place
  · obtain rfl := h.eq_of_place_eq hfmem he hfreg hreg hplace
    have hfree : x.registry.isTaken f.key f.place = false := by
      refine Bool.eq_false_iff.2 fun htaken => ?_
      obtain ⟨g, hg, hgreg, hgkey, hbefore⟩ := Registry.isTaken_iff.1 htaken
      have hafter := hle g (Registry.mem_registering.2 ⟨hg, hgkey, hgreg⟩)
      have hself := Mapped.isBefore_of_notAfter hafter hbefore
      rw [Mapped.isBefore_self] at hself
      cases hself
    rw [hfree, Mapped.samePlace_iff.2 rfl]
    simp
  · have htaken : x.registry.isTaken e.key e.place = true :=
      Registry.isTaken_iff.2 ⟨f, hfmem, hfreg, hfkey,
        Mapped.isBefore_place_iff.2 ⟨hle e hemem, hplace⟩⟩
    have hsame : f.samePlace e = false :=
      Bool.eq_false_iff.2 fun hsame => hplace (Mapped.samePlace_iff.1 hsame)
    rw [htaken, hsame]
    rfl

/-- **Where a registration is reported**, when the registry holds the entries that it
makes. -/
theorem map_site_duplicates {c : Catalog} (hplaces : x.registry.HasPlaces)
    (hentries : x.registry.entriesOf x.registration.id = Mapped.ofRegistration c x.registration) :
    (duplicates x).map site = ((x.registry.repeated? c x.registration).map fun (origin, span) =>
      (some origin, x.registration.file, span)).toList := by
  generalize hr : x.registration = r at hentries
  have hearlier {e : Mapped} (he : e ∈ r.reverse.toList.map (r.backEntry c) ++ [r.entry c]) :
      (earlier? x e).isSome = x.registry.isTaken e.key e.place := by
    rw [← Mapped.filter_registers, ← hentries] at he
    obtain ⟨he, hreg⟩ := List.mem_filter.1 he
    exact earlier?_isSome hplaces (List.mem_filter.1 he).1 hreg
  have hentry : (earlier? x (r.entry c)).isSome =
      x.registry.isTaken (r.key c) (r.fileIndex, r.span.startByte) :=
    hearlier (List.mem_append_right _ List.mem_cons_self)
  rw [duplicates, duplicated?, duplicated?, hr, hentries, Mapped.filter_explicit,
    Mapped.filter_reverse, Registry.repeated?, ← hentry]
  cases hfirst : earlier? x (r.entry c) with
  | some f =>
    rw [List.filterMap_cons_some (by rw [hfirst]; rfl)]
    simp [site_duplicateFinding, Registration.entry, hr]
  | none =>
    rw [List.filterMap_cons_none (by rw [hfirst]; rfl), List.filterMap_nil, Option.isSome_none,
      if_neg Bool.false_ne_true]
    cases hreverse : r.reverse with
    | none => rfl
    | some b =>
      have hback : (earlier? x (r.backEntry c b)).isSome =
          x.registry.isTaken (r.key c).reversed (r.fileIndex, b.span.startByte) :=
        hearlier (by rw [hreverse]; exact List.mem_cons_self)
      rw [Option.filter_some, ← hback, Option.toList_some, List.map_cons, List.map_nil]
      cases hsecond : earlier? x (r.backEntry c b) with
      | some f =>
        rw [List.filterMap_cons_some (by rw [hsecond]; rfl)]
        simp [site_duplicateFinding, Registration.backEntry, hr]
      | none =>
        rw [List.filterMap_cons_none (by rw [hsecond]; rfl)]
        rfl

/-- What is found for one of some registrations. -/
def duplicatesAmong (settings : SmellSettings) (c : Catalog) (rs : List Registration)
    (r : Registration) : List Finding :=
  duplicatesIn settings (.ofRegistration c (.ofRegistrations c rs) rs r)

variable {c : Catalog} {rs : List Registration} {r : Registration}

/-- One of some registrations is reported where it repeats a pair. -/
theorem map_site_duplicatesAmong (settings : SmellSettings) (hids : (rs.map (·.id)).Nodup)
    (hplaces : (Registry.ofRegistrations c rs).HasPlaces) (hr : r ∈ rs) :
    (duplicatesAmong settings c rs r).map site =
      (((Registry.ofRegistrations c rs).repeated? c r).map fun (origin, span) =>
        (some origin, r.file, span)).toList := by
  rw [duplicatesAmong, duplicatesIn_eq]
  exact map_site_duplicates hplaces (Registry.entriesOf_eq hr hids)

/-- It is not reported exactly when it repeats none. -/
theorem duplicatesAmong_eq_nil_iff (settings : SmellSettings) (hids : (rs.map (·.id)).Nodup)
    (hplaces : (Registry.ofRegistrations c rs).HasPlaces) (hr : r ∈ rs) :
    duplicatesAmong settings c rs r = [] ↔
      (Registry.ofRegistrations c rs).repeated? c r = none := by
  rw [← List.map_eq_nil_iff (f := site), map_site_duplicatesAmong settings hids hplaces hr]
  cases (Registry.ofRegistrations c rs).repeated? c r <;> simp

/-- What the findings about pairs registered twice say of some registrations. -/
structure FindsRepeated (settings : SmellSettings) (c : Catalog) (rs : List Registration) :
    Prop where
  length_le : ∀ r ∈ rs, (duplicatesAmong settings c rs r).length ≤ 1
  /-- A finding is at the registration, or else at its mapping back. -/
  map_site : ∀ r ∈ rs, (duplicatesAmong settings c rs r).map site =
    (((Registry.ofRegistrations c rs).repeated? c r).map fun (origin, span) =>
      (some origin, r.file, span)).toList
  /-- Nothing is found exactly when every pair is registered at most once. -/
  eq_nil_iff : (∀ r ∈ rs, duplicatesAmong settings c rs r = []) ↔
    ∀ key, ((Registry.ofRegistrations c rs).registering key).length ≤ 1
  /-- Where nothing is found, nothing is found either with a registration taken out. -/
  eq_nil_eraseIdx : ∀ j k r, (rs.eraseIdx j)[k]? = some r → duplicatesAmong settings c rs r = [] →
    duplicatesAmong settings c (Registration.renumber (rs.eraseIdx j)) { r with id := k } = []

end Check

/-- **Duplicate registrations.**  Take registrations with their positions as identifiers,
whose entries that register pairs stand at different places.  Each of them has at most one
finding about a pair registered twice.  It is at the call of `CreateMap` when the pair is
registered before that; otherwise it is at the call of `ReverseMap`, when there is one and
the reversed pair is registered before it.  There is no such finding at all exactly when
every pair is registered at most once, and a registration without one has none either when
another registration is taken out. -/
theorem finds_repeated (settings : Check.SmellSettings) (c : Catalog) (rs : List Registration)
    (hids : rs.map (·.id) = List.range rs.length)
    (hplaces : (Registry.ofRegistrations c rs).HasPlaces) : Check.FindsRepeated settings c rs := by
  have hnodup : (rs.map (·.id)).Nodup := hids ▸ List.nodup_range
  have hsite {r : Registration} (hr : r ∈ rs) :=
    Check.map_site_duplicatesAmong settings hnodup hplaces hr
  have hnil {r : Registration} (hr : r ∈ rs) :=
    Check.duplicatesAmong_eq_nil_iff settings hnodup hplaces hr
  refine ⟨fun r hr => ?_, fun r hr => hsite hr, ?_, fun j k r hk hnone => ?_⟩
  · have hlength := congrArg List.length (hsite hr)
    rw [List.length_map] at hlength
    exact hlength ▸ Option.length_toList_le
  · rw [← hplaces.forall_not_isTaken_iff]
    constructor
    · intro hall e he hreg
      obtain ⟨r, hr, he⟩ := List.mem_flatMap.1 he
      exact (Registry.repeated?_eq_none_iff _ c r).1 ((hnil hr).1 (hall r hr)) e he hreg
    · intro hfree r hr
      rw [hnil hr, Registry.repeated?_eq_none_iff]
      exact fun e he hreg => hfree e (List.mem_flatMap.2 ⟨r, hr, he⟩) hreg
  · have hsub := Registry.sublist_eraseIdx c rs j
    have hplaces' :
        (Registry.ofRegistrations c (Registration.renumber (rs.eraseIdx j))).HasPlaces := by
      rw [Registry.hasPlaces_iff] at hplaces ⊢
      exact hplaces.sublist ((hsub.filter _).map _)
    have hids' : ((Registration.renumber (rs.eraseIdx j)).map (·.id)).Nodup := by
      rw [Registration.map_id_renumber]
      exact List.nodup_range
    have hmem : { r with id := k } ∈ Registration.renumber (rs.eraseIdx j) :=
      List.mem_of_getElem? (by rw [Registration.getElem?_renumber, hk]; rfl)
    have hr : r ∈ rs := (List.eraseIdx_sublist rs j).subset (List.mem_of_getElem? hk)
    exact (Check.duplicatesAmong_eq_nil_iff settings hids' hplaces' hmem).2
      (Registry.repeated?_eq_none_of_sublist hsub ((hnil hr).1 hnone))

/-- Two types that are mapped to each other, each with the mapping back. -/
def bothWays : Workspace :=
  .ofSources [("P.cs", "AddMaps(c=>\x7bc.CreateMap<A,B>().ReverseMap();" ++
    "c.CreateMap<B,A>().ReverseMap();\x7d);record A;record B;")]

set_option maxRecDepth 100000 in
/-- The four entries of `bothWays` stand at four places. -/
theorem hasPlaces_bothWays :
    (Registry.ofRegistrations bothWays.catalog bothWays.registrations).HasPlaces := by
  decide +kernel

/-- The registrations of `bothWays` are numbered, and their four entries stand at different
places. -/
theorem finds_repeated_bothWays :
    bothWays.registrations.map (·.id) = List.range bothWays.registrations.length ∧
      (Registry.ofRegistrations bothWays.catalog bothWays.registrations).HasPlaces ∧
        Check.FindsRepeated {} bothWays.catalog bothWays.registrations :=
  ⟨Registration.map_id_ofFiles _ _, hasPlaces_bothWays,
    finds_repeated {} bothWays.catalog bothWays.registrations (Registration.map_id_ofFiles _ _)
      hasPlaces_bothWays⟩

end MappingAudit
