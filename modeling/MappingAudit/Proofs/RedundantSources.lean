/-
# What a redundant configuration reads

A `MapFrom` is reported as redundant when convention takes the destination member from a
source member of the same name, in some case, and of the same type.  Without the directive
the member is mapped from the source member that convention takes.  That is the one that
the directive reads exactly when the directive writes its name in its own case
(`redundant_source_iff`); with two source members whose names differ in case only, it can
be the other one (`other_member_read`).
-/

import MappingAudit.CSharp.Declarations
import MappingAudit.Proofs.MatchedMembers
import MappingAudit.Proofs.RegisterFix

namespace MappingAudit

/-- Something within a destination member is configured. -/
def Registration.configuresWithin (r : Registration) (member : String) : Bool :=
  r.directives.any fun d => d.startsAt member && d.target.length > 1

/-- The context with other directives of the registration. -/
def Context.withDirectives (x : Context) (ds : List Directive) : Context :=
  { x with registration := { x.registration with directives := ds } }

/-- The finding is about the directive `d`, which maps the destination member `target` from
`p`, and convention maps it from `found`. -/
structure Finding.Repeats (f : Finding) (x : Context) (source destination : Model)
    (before : List Directive) (d : Directive) (after : List Directive) (p : String)
    (target : Member) (found : SourceMatch) : Prop where
  directives_eq : x.registration.directives = before ++ d :: after
  method_eq : d.method = "ForMember"
  reads : Check.singleSource? d = some p
  target_eq : d.member?.bind destination.find? = some target
  member_eq : f.detail? .member = some target.name
  callIndex_eq : f.detail? .callIndex = some (toString d.callIndex)
  matched : source.match? x.catalog target.name = some found
  path_eq : found.path = [found.member.name]
  key_eq : found.member.shape.key = target.shape.key
  /-- The directive writes the name of the matched member in some case. -/
  sameName : Pieces.sameName found.member.name p = true
  /-- It writes it exactly when it is the matched member that it reads. -/
  name_eq_iff : p = found.member.name ↔ source.findExact? p = some found.member
  /-- It does so where the source has the name in one case only. -/
  name_eq_of_forall : (∀ m ∈ source.members, Pieces.sameName m.name p = true → m.name = p) →
    p = found.member.name
  /-- Without the directive convention maps the member, unless something within it is
  configured. -/
  removed : (x.withDirectives (before ++ after)).pair? source target =
    if x.registration.configuresWithin target.name then none else some ⟨target, found, []⟩

namespace Model

variable {c : Catalog} {source : Model} {name : String} {found : SourceMatch}

/-- A match in the source itself is found by its exact name too. -/
theorem findExact?_name_of_match? (h : source.match? c name = some found)
    (hkind : found.kind ≠ .flattened) :
    found.path = [found.member.name] ∧ found.member ∈ source.members ∧
      source.findExact? found.member.name = some found.member := by
  rcases match?_cases h with ⟨-, hexact, hpath⟩ | ⟨-, -, hany, hpath⟩ | ⟨hflat, -⟩
  · refine ⟨hpath, List.mem_of_find?_eq_some hexact, ?_⟩
    rw [name_of_findExact? hexact, hexact]
  · obtain ⟨before, after, hmembers, hbefore⟩ :=
      (find?_eq_some_iff_comesFirst (sameName_of_named? hany)).1 hany
    refine ⟨hpath, List.mem_of_find?_eq_some hany, ?_⟩
    rw [findExact?, List.find?_eq_some_iff_append]
    refine ⟨beq_self_eq_true _, before, after, hmembers, fun x hx => ?_⟩
    have hne : x.name ≠ found.member.name := by
      intro heq
      have hnot := hbefore x hx
      rw [heq, sameName_of_named? hany] at hnot
      cases hnot
    simp [hne]
  · exact absurd hflat hkind

end Model

namespace Check

variable {x : Context} {f : Finding}

/-- A directive that stands alone is the only one about its member. -/
theorem not_targets_of_standsAlone {r : Registration} {before after : List Directive}
    {d : Directive} {member : String} (hdirectives : r.directives = before ++ d :: after)
    (hd : d.targets member = true) (halone : standsAlone r d member = true) :
    ∀ e ∈ before ++ after, e.targets member = false := by
  simp only [standsAlone, Bool.and_eq_true, decide_eq_true_eq] at halone
  have hcount := halone.2
  rw [Registration.directivesFor, hdirectives, List.filter_append, List.filter_cons, if_pos hd,
    List.length_append, List.length_cons] at hcount
  have hnone : (before ++ after).filter (·.targets member) = [] := by
    rw [← List.length_eq_zero_iff, List.filter_append, List.length_append]
    omega
  intro e he
  exact Bool.eq_false_iff.2 (List.filter_eq_nil_iff.1 hnone e he)

/-- What starts at a member but is not about the member itself is about something within. -/
theorem startsAt_and_configured {d : Directive} {name : String} (h : d.targets name = false) :
    (d.startsAt name && (d.config.isSome || decide (d.target.length > 1))) =
      (d.startsAt name && decide (d.target.length > 1)) := by
  match htarget : d.target with
  | [] => simp [Directive.startsAt, htarget]
  | [m] =>
    have hstarts : d.startsAt name = false := by
      simpa [Directive.targets, Directive.member?, Directive.startsAt, htarget] using h
    rw [hstarts, Bool.false_and, Bool.false_and]
  | m :: n :: ms => simp

/-- Without the one directive about a member, only what is within it can configure it. -/
theorem configures_removed {r : Registration} {before after : List Directive} {d : Directive}
    {member name : String} (hdirectives : r.directives = before ++ d :: after)
    (hd : d.targets member = true) (halone : standsAlone r d member = true)
    (hname : Pieces.sameName name member = true) :
    ({ r with directives := before ++ after } : Registration).configures name =
      r.configuresWithin name := by
  have hnot := not_targets_of_standsAlone hdirectives hd halone
  have htarget : d.target.length = 1 := by
    rw [Directive.targets, Directive.member?] at hd
    split at hd
    · next heq => rw [heq, List.length_singleton]
    · cases hd
  have hrest : (before ++ after).any (fun e => e.startsAt name &&
      (e.config.isSome || decide (e.target.length > 1))) =
        (before ++ after).any fun e => e.startsAt name && decide (e.target.length > 1) := by
    rw [Bool.eq_iff_iff, List.any_eq_true, List.any_eq_true]
    refine exists_congr fun e => and_congr_right fun he => ?_
    rw [startsAt_and_configured ((Directive.targets_congr hname).trans (hnot e he))]
  rw [Registration.configures, hrest, Registration.configuresWithin, hdirectives]
  simp [htarget]

/-- A redundant directive repeats what its member is filled with anyway. -/
theorem repeats_of_redundantMember? {source destination : Model} {before after : List Directive}
    {d : Directive} {target : Member}
    (hdirectives : x.registration.directives = before ++ d :: after)
    (h : redundantMember? x source destination d = some target)
    (hmember : f.detail? .member = some target.name)
    (hindex : f.detail? .callIndex = some (toString d.callIndex)) :
    ∃ p found, f.Repeats x source destination before d after p target found := by
  obtain ⟨member, hm, h⟩ := Option.bind_eq_some_iff.1 h
  obtain ⟨p, hp, h⟩ := Option.bind_eq_some_iff.1 h
  obtain ⟨target', htarget, h⟩ := Option.bind_eq_some_iff.1 h
  obtain ⟨found, hfound, h⟩ := Option.bind_eq_some_iff.1 h
  split at h
  · next hcond =>
    obtain rfl := Option.some.inj h
    simp only [Bool.and_eq_true, bne_iff_ne, beq_iff_eq] at hcond
    obtain ⟨⟨⟨halone, hkind⟩, hsame⟩, hkey⟩ := hcond
    obtain ⟨hpath, hmem, hexact⟩ := Model.findExact?_name_of_match? hfound hkind
    have htargets : d.targets member = true := by
      rw [Directive.targets, hm, Option.any_some, Pieces.sameName_refl]
    have hname : Pieces.sameName target'.name member = true := Model.sameName_of_named? htarget
    refine ⟨p, found, hdirectives, ?_, hp, ?_, hmember, hindex, hfound, hpath, hkey, hsame,
      ⟨fun heq => heq ▸ hexact, fun hread => (Model.name_of_findExact? hread).symm⟩,
      fun hall => (hall _ hmem hsame).symm, ?_⟩
    · simp only [standsAlone, Bool.and_eq_true, beq_iff_eq] at halone
      exact halone.1.1.1
    · rw [hm, Option.bind_some, htarget]
    · have hconfigures := configures_removed hdirectives htargets halone hname
      rw [Context.pair?, Context.withDirectives, hconfigures, Context.findSource?, hfound]
      rfl
  · cases h

end Check

/-- **What a redundant configuration reads.**  Every finding about a redundant configuration
is about a directive that maps a destination member from one source member `p`, of which
convention takes the match `found`, of the same name in some case and of the same type.  It
is the matched member that the directive reads if and only if `p` is exactly its name, which
holds whenever the source writes the name in one case only.  Without the directive the member
is mapped from the match, unless something within it is configured. -/
theorem redundant_source_iff (settings : Check.SmellSettings) (x : Context) {f : Finding}
    (hf : f ∈ Check.report settings x) (hrule : f.rule = .redundantMapFrom) :
    ∃ source destination before d after p target found,
      x.models? = some (source, destination) ∧
        f.Repeats x source destination before d after p target found := by
  have hredundant : f ∈ Check.redundant x := Check.mem_findings_of_mem_report
    (k := Check.ofFindings "redundant-map-from" [.redundantMapFrom] Check.redundant)
    (by simp [Check.all]) hf (by simp [Check.ofFindings, hrule])
  rw [Check.redundant] at hredundant
  split at hredundant
  · exact absurd hredundant List.not_mem_nil
  · next source destination hmodels =>
    obtain ⟨d, hd, hfinding⟩ := List.mem_filterMap.1 hredundant
    obtain ⟨target, htarget, hfinding⟩ := Option.map_eq_some_iff.1 hfinding
    obtain ⟨before, after, hdirectives⟩ := List.append_of_mem hd
    obtain ⟨p, found, hrepeats⟩ := Check.repeats_of_redundantMember? (f := f) hdirectives htarget
      (by rw [← hfinding]; simp) (by rw [← hfinding]; simp)
    exact ⟨source, destination, before, d, after, p, target, found, hmodels, hrepeats⟩

/-- A source with two members whose names differ in case only. -/
def nameVariants : Catalog :=
  .ofFiles [.read "M.cs" "record S(string Name,int name);record D(string Name);"]

/-- A mapping of `Name` from the source member of exactly this name. -/
def nameFromName : Context :=
  .ofRegistration nameVariants {} [] { (default : Registration) with
    source := .named ["S"] []
    destination := .named ["D"] []
    directives := [{ (default : Directive) with
      target := ["Name"]
      method := "ForMember"
      config := some (.mappedFrom ⟨"s => s.Name", some ["Name"], none⟩) }]
    converter := none }

set_option maxRecDepth 100000 in
/-- The example has a redundant directive. -/
theorem nameFromName_redundant :
    ∃ f ∈ Check.report {} nameFromName, f.rule = .redundantMapFrom := by
  decide +kernel

/-- A directive that reads `Name` repeats what convention does. -/
theorem redundant_source_name : ∃ f ∈ Check.report {} nameFromName,
    f.rule = .redundantMapFrom ∧ ∃ source destination before d after p target found,
      nameFromName.models? = some (source, destination) ∧
        f.Repeats nameFromName source destination before d after p target found := by
  obtain ⟨f, hf, hrule⟩ := nameFromName_redundant
  exact ⟨f, hf, hrule, redundant_source_iff {} nameFromName hf hrule⟩

/-- A mapping of `Name` from the source member `name`; the source has `Name` too. -/
def nameFromVariant : Workspace :=
  .ofSources [("P.cs",
    "AddMaps(c=>c.CreateMap<S,D>().ForMember(d=>d.Name,o=>o.MapFrom(s=>s.name)));" ++
      "record S(string Name,int name);record D(string Name);")]

set_option maxRecDepth 100000 in
/-- **Another member is read**: the directive reads `name`, an integer, and is reported as
redundant, though convention takes `Name`, a text. -/
theorem other_member_read : ∃ r ∈ nameFromVariant.registrations,
    ∃ f ∈ nameFromVariant.report r, f.rule = .redundantMapFrom ∧
      f.detail? .member = some "Name" ∧ f.detail? .callIndex = some "1" ∧
        (r.directives.map fun d => (d.callIndex, Check.singleSource? d)) = [(1, some "name")] ∧
          ∃ source ∈ (nameFromVariant.context r).source,
            (source.match? nameFromVariant.catalog "Name").map (·.path) = some ["Name"] ∧
              (source.findExact? "Name").map (·.shape.key) = some "string" ∧
                (source.findExact? "name").map (·.shape.key) = some "int" := by
  decide +kernel

end MappingAudit
