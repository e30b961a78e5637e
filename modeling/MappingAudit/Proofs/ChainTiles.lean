/-
# Chains tile

A chain is read by climbing from a call of `CreateMap` through the calls made on the
result so far.  Each step goes from a call to the member access that starts with it and on
to the call of what is accessed, which starts there as well.  So all calls of a chain start
at one place, and what each adds to the one before it runs from the end of that one to its
own end: the segments of the calls lie side by side and make up the chain.  Edits of a
chain put texts in place of segments or between them, and rely on this.

The tree that is climbed may come from any reader.  For the spans in a chain to start and stop
at places it is enough that nodes do and lie within their parents (`Node.Lies`); that the calls
start at one place takes what is called to come first (`Node.Leads`).
-/

import MappingAudit.CSharp.Declarations
import MappingAudit.Proofs.NodePlaces
import MappingAudit.Source.File

namespace MappingAudit

open CSharp (Node Kind SyntaxTree)

namespace Source

open CSharp.Node (Everywhere Lies Fits)

variable {p : Node → Prop} {n m : Node}

/-- A step among the children of a node lies in one of them. -/
theorem exists_of_mem_stepsAmong {head : Bool} {s : Step} {ns : List Node}
    (h : s ∈ stepsAmong head ns) : ∃ n ∈ ns, ∃ invoked, s ∈ steps invoked n := by
  induction ns generalizing head with
  | nil =>
    rw [stepsAmong] at h
    exact absurd h List.not_mem_nil
  | cons n ns ih =>
    rw [stepsAmong] at h
    rcases List.mem_append.1 h with h | h
    · split at h
      · exact absurd h List.not_mem_nil
      · exact ⟨n, List.mem_cons_self, head, h⟩
    · obtain ⟨n', hn', hs⟩ := ih h
      exact ⟨n', List.mem_cons_of_mem n hn', hs⟩

/-- What holds everywhere in a node holds everywhere in the nodes stepped through. -/
theorem everywhere_of_mem_steps (hn : Everywhere p n) {invoked : Bool} {s : Step}
    (hs : s ∈ steps invoked n) : Everywhere p s.node := by
  induction hn generalizing invoked with
  | @mk k sp cs here below ih =>
    rw [steps] at hs
    rcases List.mem_cons.1 hs with rfl | hs
    · exact .mk here below
    · obtain ⟨c, hc, invoked, hs⟩ := exists_of_mem_stepsAmong hs
      exact ih c hc hs

/-- What holds everywhere in a call holds everywhere in its arguments. -/
theorem everywhere_of_mem_argumentNodes (hn : Everywhere p n) (hm : m ∈ argumentNodes n) :
    Everywhere p m := by
  rw [argumentNodes] at hm
  split at hm
  · next list hlist =>
    obtain ⟨a, ha, hlast⟩ := List.mem_filterMap.1 hm
    have hargument : Everywhere p a := (hn.child? hlist).child (List.mem_filter.1 ha).1
    exact hargument.named (List.mem_of_getLast? hlast)
  · exact absurd hm List.not_mem_nil

/-! ### The places in a chain -/

/-- The places in a summary of an expression. -/
def Summary.spans (s : Summary) : List Span :=
  s.span :: (s.calls.map (·.span) ++ s.accesses.map (·.span) ++ s.creations.map (·.span))

mutual

/-- The places in the form of an argument. -/
def ArgumentForm.spans : ArgumentForm → List Span
  | .lambda l => lambdaSpans l
  | _ => []

/-- The places in an argument, its own first. -/
def argumentSpans : Argument → List Span
  | ⟨_, s, form⟩ => s :: form.spans

/-- The places in arguments. -/
def argumentsSpans : List Argument → List Span
  | [] => []
  | a :: as => argumentSpans a ++ argumentsSpans as

/-- The places in a lambda. -/
def lambdaSpans : Lambda → List Span
  | ⟨_, body, calls⟩ => body.spans ++ optionCallsSpans calls

/-- The places in a call on the parameter of a lambda. -/
def optionCallSpans : OptionCall → List Span
  | ⟨_, _, args, s⟩ => s :: argumentsSpans args

/-- The places in calls on the parameter of a lambda. -/
def optionCallsSpans : List OptionCall → List Span
  | [] => []
  | c :: cs => optionCallSpans c ++ optionCallsSpans cs

end

/-- The places in a call of a chain. -/
def Call.spans (c : Call) : List Span := c.span :: c.segment :: argumentsSpans c.args

/-- All places in a chain: its own, those of the statement around it, and those of its calls
with everything in their arguments. -/
def Chain.spans (c : Chain) : List Span :=
  c.span :: (c.statement.map (·.span)).toList ++ c.calls.flatMap Call.spans

/-- The places in arguments are those in each of them. -/
theorem mem_argumentsSpans {s : Span} {as : List Argument} :
    s ∈ argumentsSpans as ↔ ∃ a ∈ as, s ∈ argumentSpans a := by
  induction as with
  | nil => simp [argumentsSpans]
  | cons a as ih => simp [argumentsSpans, ih]

/-- The places in calls on a parameter are those in each of them. -/
theorem mem_optionCallsSpans {s : Span} {cs : List OptionCall} :
    s ∈ optionCallsSpans cs ↔ ∃ c ∈ cs, s ∈ optionCallSpans c := by
  induction cs with
  | nil => simp [optionCallsSpans]
  | cons c cs ih => simp [optionCallsSpans, ih]

variable {source : String} {s : Span}

/-- A call is kept with the place of its node. -/
theorem span_of_callSite? {st : Step} {c : CallSite} (h : callSite? source st = some c) :
    c.span = st.node.span := by
  rw [callSite?] at h
  split at h
  · cases h
  · obtain ⟨callee, -, h⟩ := Option.bind_eq_some_iff.1 h
    obtain rfl := Option.some.inj h
    rfl

/-- An access is kept with the place of its node. -/
theorem span_of_accessSite? {st : Step} {a : AccessSite} (h : accessSite? source st = some a) :
    a.span = st.node.span := by
  rw [accessSite?] at h
  split at h
  · obtain rfl := Option.some.inj h
    rfl
  · cases h

/-- A creation is kept with the place of its node. -/
theorem span_of_creationSite? {st : Step} {c : CreationSite}
    (h : creationSite? source st = some c) : c.span = st.node.span := by
  rw [creationSite?] at h
  split at h
  · obtain rfl := Option.some.inj h
    rfl
  · cases h

/-! What holds of the places of a node and of all nodes below it holds of all places that are
read from it. -/

variable {q : Span → Prop}

/-- What is found at the steps through a node is at the places of nodes below it. -/
theorem span_of_mem_found (hn : Everywhere (fun m => q m.span) n) {α : Type}
    {find? : Step → Option α} {span : α → Span}
    (hspan : ∀ {st a}, find? st = some a → span a = st.node.span)
    (hs : s ∈ ((steps false n).filterMap find?).map span) : q s := by
  obtain ⟨a, ha, rfl⟩ := List.mem_map.1 hs
  obtain ⟨st, hst, hfound⟩ := List.mem_filterMap.1 ha
  rw [hspan hfound]
  exact (everywhere_of_mem_steps hn hst).self

/-- The places in the summary of an expression. -/
theorem span_of_mem_summarize (hn : Everywhere (fun m => q m.span) n) {param? : Option String}
    (hs : s ∈ (summarize source param? n).spans) : q s := by
  rw [Summary.spans] at hs
  rcases List.mem_cons.1 hs with rfl | hs
  · exact hn.self
  · rcases List.mem_append.1 hs with hs | hcreations
    · rcases List.mem_append.1 hs with hcalls | haccesses
      · exact span_of_mem_found hn span_of_callSite? hcalls
      · exact span_of_mem_found hn span_of_accessSite? haccesses
    · exact span_of_mem_found hn span_of_creationSite? hcreations

/-- What holds everywhere in a body holds everywhere in the calls made on a parameter. -/
theorem everywhere_of_mem_callsOn (hn : Everywhere p n) {param : String} {c : Callee}
    (hm : (m, c) ∈ callsOn source param n) : Everywhere p m := by
  obtain ⟨m', hm', h⟩ := List.mem_filterMap.1 hm
  split at h
  · cases h
  · obtain ⟨c', -, h⟩ := Option.bind_eq_some_iff.1 h
    obtain ⟨r, -, h⟩ := Option.bind_eq_some_iff.1 h
    split at h
    · obtain ⟨rfl, rfl⟩ := Prod.mk.inj (Option.some.inj h)
      exact hn.of_mem_preorder hm'
    · cases h

/-- The places in the arguments of a call, with those in their forms. -/
theorem span_of_mem_arguments (hn : Everywhere (fun m => q m.span) n) {form : Node → ArgumentForm}
    (hform : ∀ a, Everywhere (fun m => q m.span) a → ∀ s ∈ (form a).spans, q s)
    (hs : s ∈ argumentsSpans ((argumentNodes n).map fun a => ⟨a.text source, a.span, form a⟩)) :
    q s := by
  obtain ⟨argument, hargument, hs⟩ := mem_argumentsSpans.1 hs
  obtain ⟨a, ha, rfl⟩ := List.mem_map.1 hargument
  have haplaced := everywhere_of_mem_argumentNodes hn ha
  rw [argumentSpans] at hs
  rcases List.mem_cons.1 hs with rfl | hs
  · exact haplaced.self
  · exact hform a haplaced s hs

/-- The places in the form of an argument, however deep lambdas are followed. -/
theorem span_of_mem_argumentForm {depth : Nat} (hn : Everywhere (fun m => q m.span) n)
    (hs : s ∈ (argumentForm source depth n).spans) : q s := by
  induction depth generalizing n s with
  | zero =>
    rw [argumentForm] at hs
    exact absurd hs List.not_mem_nil
  | succ depth ih =>
    rw [argumentForm] at hs
    split at hs
    case h_1 =>
      split at hs
      · exact absurd hs List.not_mem_nil
      · next body hbody =>
        have hplaced := hn.child (List.mem_of_getLast? hbody)
        rw [ArgumentForm.spans, lambdaSpans] at hs
        rcases List.mem_append.1 hs with hs | hs
        · exact span_of_mem_summarize hplaced hs
        · obtain ⟨call, hcall, hs⟩ := mem_optionCallsSpans.1 hs
          split at hcall
          · exact absurd hcall List.not_mem_nil
          · obtain ⟨⟨m, c⟩, hm, rfl⟩ := List.mem_map.1 hcall
            have hmplaced := everywhere_of_mem_callsOn hplaced hm
            rw [optionCallSpans] at hs
            rcases List.mem_cons.1 hs with rfl | hs
            · exact hmplaced.self
            · exact span_of_mem_arguments hmplaced (fun _ ha _ hs => ih ha hs) hs
    case h_6 =>
      split at hs
      · split at hs <;> exact absurd hs List.not_mem_nil
      · exact absurd hs List.not_mem_nil
    all_goals exact absurd hs List.not_mem_nil

/-- The places in the arguments of a call as they are kept with it. -/
theorem span_of_mem_argumentsOf (hn : Everywhere (fun m => q m.span) n)
    (hs : s ∈ argumentsSpans (argumentsOf source n)) : q s :=
  span_of_mem_arguments hn (fun _ ha _ hs => span_of_mem_argumentForm ha hs) hs

/-! ### The nodes above a node -/

/-- The nodes above a node, innermost first, lead from child to parent up to the root of a
tree, which is no call and no statement.  Those below the root have property `p`. -/
inductive Trail (p : Node → Prop) : Node → List Ancestor → Prop where
  | top {n root : Node} {i : Nat} (hcall : root.kind ≠ .invocation)
      (hstatement : root.kind ≠ .expressionStatement) : Trail p n [⟨root, i⟩]
  | step {n : Node} {a : Ancestor} {above : List Ancestor} (ha : Everywhere p a.node)
      (hchild : a.node.children[a.index]? = some n) (h : Trail p a.node above) :
      Trail p n (a :: above)

variable {site : Site} {scope : Scope} {above : List Ancestor}

/-- A namespace for the rest of a file is the only thing that changes the scope of the nodes
after it, and it changes no containers. -/
theorem containers_scope_after (scope : Scope) (n : Node) :
    (if n.kind == .fileNamespace then childScope source scope n else scope).containers =
      scope.containers := by
  split
  · next h =>
    rw [childScope, h, Bool.or_true, if_pos rfl]
    cases n.child? .name <;> rfl
  · rfl

/-- A site among the children of a node lies in one of them, in the same containers. -/
theorem exists_of_mem_sitesAmong {parent : Node} {i : Nat} {ns : List Node}
    (h : site ∈ sitesAmong source scope parent above i ns) : ∃ k n scope', ns[k]? = some n ∧
      scope'.containers = scope.containers ∧
        site ∈ sites source scope' (⟨parent, i + k⟩ :: above) n := by
  induction ns generalizing scope i with
  | nil =>
    rw [sitesAmong] at h
    exact absurd h List.not_mem_nil
  | cons n ns ih =>
    rw [sitesAmong] at h
    rcases List.mem_append.1 h with h | h
    · exact ⟨0, n, scope, rfl, rfl, h⟩
    · obtain ⟨k, n', scope', hk, hcontainers, hsite⟩ := ih h
      refine ⟨k + 1, n', scope', hk, hcontainers.trans (containers_scope_after scope n), ?_⟩
      rwa [Nat.add_assoc, Nat.add_comm 1 k] at hsite

/-- What holds everywhere in a node and of the nodes above it holds of each site in the node
and of the nodes above that. -/
theorem trail_of_mem_sites (hn : Everywhere p n) (htrail : Trail p n above)
    (hsite : site ∈ sites source scope above n) :
    Everywhere p site.node ∧ Trail p site.node site.ancestors := by
  induction hn generalizing scope above with
  | @mk k s cs here below ih =>
    rw [sites] at hsite
    rcases List.mem_cons.1 hsite with rfl | hsite
    · exact ⟨.mk here below, htrail⟩
    · obtain ⟨i, c, scope', hi, -, hsite⟩ := exists_of_mem_sitesAmong hsite
      rw [Nat.zero_add] at hsite
      have hstep : Trail p c (⟨.mk k s cs, i⟩ :: above) := .step (.mk here below) hi htrail
      exact ih c (List.mem_of_getElem? hi) hstep hsite

variable {tree : SyntaxTree}

/-- What holds throughout a tree holds of a site there and of the nodes above it, unless the
site is the root. -/
theorem everywhere_of_mem_sites (h : tree.Throughout p) (hsite : site ∈ sites source {} [] tree.root)
    (hkind : site.node.kind ≠ tree.root.kind) :
    Everywhere p site.node ∧ Trail p site.node site.ancestors := by
  obtain ⟨hcall, hstatement, hnodes⟩ := h
  generalize tree.root = root at hsite hkind hcall hstatement hnodes
  cases root with
  | mk k s cs =>
    rw [sites] at hsite
    rcases List.mem_cons.1 hsite with rfl | hsite
    · exact absurd rfl hkind
    · obtain ⟨i, c, scope', hi, -, hsite⟩ := exists_of_mem_sitesAmong hsite
      exact trail_of_mem_sites (hnodes c (List.mem_of_getElem? hi)) (.top hcall hstatement) hsite

/-! ### Climbing -/

/-- The calls are made one on the other, the first of them on the call `n` and the last one
being the call `last`.  Each is the call of a member of the one before it, and all nodes on
the way have property `p`. -/
inductive Climbs (source : String) (p : Node → Prop) : Node → List Call → Node → Prop where
  | stop (n : Node) : Climbs source p n [] n
  | step {n access call last : Node} {calls : List Call} (c : Callee) (separator : String)
      (haccess : Everywhere p access) (hcall : Everywhere p call)
      (hreceiver : access.children[0]? = some n) (hchild : access ∈ call.children)
      (hinvoked : n.kind = .invocation ∧ call.kind = .invocation)
      (hmember : access.kind = .memberAccess) (h : Climbs source p call calls last) :
      Climbs source p n
        (callOf source call c (Span.trailing n.span call.span) separator :: calls) last

/-- Climbing from a call leads along the nodes above it. -/
theorem climbs_climb {current : Node} (hkind : current.kind = .invocation)
    (htrail : Trail p current above) :
    Climbs source p current (climb source current above).1 (climb source current above).2.1 ∧
      Trail p (climb source current above).2.1 (climb source current above).2.2 := by
  induction current, above using climb.induct source with
  | case1 current access call above hnext c hcallee calls last above' hclimb ih =>
    simp only [Bool.and_eq_true, beq_iff_eq] at hnext
    obtain ⟨⟨hmember, hindex⟩, hinvoked⟩ := hnext
    cases htrail with
    | step haccess hreceiver htrail =>
      cases htrail with
      | top hroot _ => exact absurd hinvoked hroot
      | step hcall hchild htrail =>
        rw [hindex] at hreceiver
        obtain ⟨hclimbs, htrail'⟩ := ih hinvoked htrail
        rw [climb, if_pos (by simp [hmember, hindex, hinvoked]), hcallee]
        exact ⟨.step c _ haccess hcall hreceiver (List.mem_of_getElem? hchild)
          ⟨hkind, hinvoked⟩ hmember hclimbs, htrail'⟩
  | case2 current access call above hnext hcallee =>
    rw [climb, if_pos hnext, hcallee]
    exact ⟨.stop current, htrail⟩
  | case3 current access call above hnext =>
    rw [climb, if_neg hnext]
    exact ⟨.stop current, htrail⟩
  | case4 current above h =>
    rw [climb]
    · exact ⟨.stop current, htrail⟩
    · exact h

/-- A call contains what the member is accessed on that it calls. -/
theorem contains_of_access {P : Nat → Prop} {access call : Node} (haccess : access.Lies P)
    (hcall : call.Lies P) (hreceiver : access.children[0]? = some n)
    (hchild : access ∈ call.children) : call.span.contains n.span = true :=
  Span.contains_trans (hcall.within access hchild)
    (haccess.within n (List.mem_of_getElem? hreceiver))

/-- A call starts where the call starts that the member is accessed on that it calls. -/
theorem start_eq_of_access {P : Nat → Prop} {access call : Node} (haccess : access.Fits P)
    (hcall : call.Fits P) (hreceiver : access.children[0]? = some n)
    (hchild : access ∈ call.children) (hinvoked : n.kind = .invocation ∧ call.kind = .invocation)
    (hmember : access.kind = .memberAccess) : call.span.startByte = n.span.startByte := by
  have hinner : n.span.startByte = access.span.startByte :=
    haccess.first n (List.head?_eq_getElem?.trans hreceiver) (by simp [hinvoked.1])
  have hhead : call.children.head? = some access := by
    cases hcs : call.children with
    | nil =>
      rw [hcs] at hchild
      exact absurd hchild List.not_mem_nil
    | cons c cs =>
      rw [hcs] at hchild
      rcases List.mem_cons.1 hchild with rfl | htail
      · rfl
      · exact absurd hmember (hcall.called hinvoked.2 access (by rwa [hcs]))
  have houter : access.span.startByte = call.span.startByte :=
    hcall.first access hhead (by simp [hmember])
  exact houter.symm.trans hinner.symm

namespace Climbs

variable {P : Nat → Prop} {last : Node} {calls : List Call} {a b root : Call}

/-- The last call has the property of the nodes on the way. -/
theorem everywhere_last (h : Climbs source p n calls last) (hn : Everywhere p n) :
    Everywhere p last := by
  induction h with
  | stop n => exact hn
  | step c separator _ hcall _ _ _ _ _ ih => exact ih hcall

/-- The last call starts where the first one does. -/
theorem start_last (h : Climbs source (Fits P) n calls last) :
    last.span.startByte = n.span.startByte := by
  induction h with
  | stop n => rfl
  | step c separator haccess hcall hreceiver hchild hinvoked hmember _ ih =>
    exact ih.trans
      (start_eq_of_access haccess.self hcall.self hreceiver hchild hinvoked hmember)

/-- All calls start at one place. -/
theorem start_eq (h : Climbs source (Fits P) n calls last) (ha : a ∈ calls) :
    a.span.startByte = n.span.startByte := by
  induction h with
  | stop n => exact absurd ha List.not_mem_nil
  | step c separator haccess hcall hreceiver hchild hinvoked hmember _ ih =>
    have hstart := start_eq_of_access haccess.self hcall.self hreceiver hchild hinvoked hmember
    rcases List.mem_cons.1 ha with rfl | ha
    · exact hstart
    · exact (ih ha).trans hstart

/-- The last call is the whole chain. -/
theorem span_last (h : Climbs source p n calls last) (hroot : root.span = n.span) :
    ∃ a, (root :: calls).getLast? = some a ∧ a.span = last.span := by
  induction h generalizing root with
  | stop n => exact ⟨root, rfl, hroot⟩
  | step c separator _ _ _ _ _ _ _ ih =>
    rw [List.getLast?_cons_cons]
    exact ih rfl

/-- A segment lies between the ends of two calls that follow each other. -/
theorem segment_eq (h : Climbs source p n calls last) (hroot : root.span = n.span) {i : Nat}
    (ha : (root :: calls)[i]? = some a) (hb : (root :: calls)[i + 1]? = some b) :
    b.segment = Span.trailing a.span b.span := by
  rw [List.getElem?_cons_succ] at hb
  induction h generalizing root i with
  | stop n => cases hb
  | step c separator _ _ _ _ _ _ _ ih =>
    cases i with
    | zero =>
      obtain rfl := Option.some.inj ha
      obtain rfl := Option.some.inj hb
      rw [hroot]
      rfl
    | succ i =>
      rw [List.getElem?_cons_succ] at ha hb
      exact ih rfl ha hb

/-- The last call contains the first one. -/
theorem contains_last (h : Climbs source (Lies P) n calls last) :
    last.span.contains n.span = true := by
  induction h with
  | stop n => exact Span.contains_iff.2 ⟨Nat.le_refl _, Nat.le_refl _⟩
  | step c separator haccess hcall hreceiver hchild _ _ _ ih =>
    exact Span.contains_trans ih (contains_of_access haccess.self hcall.self hreceiver hchild)

/-- The spans in the calls are placed. -/
theorem isPlaced (h : Climbs source (Lies P) n calls last) (hn : Everywhere (Lies P) n)
    (ha : a ∈ calls) (hs : s ∈ a.spans) : s.IsPlaced P := by
  induction h with
  | stop n => exact absurd ha List.not_mem_nil
  | step c separator haccess hcall hreceiver hchild _ _ _ ih =>
    have hcontains := contains_of_access haccess.self hcall.self hreceiver hchild
    rcases List.mem_cons.1 ha with rfl | ha
    · rw [Call.spans] at hs
      rcases List.mem_cons.1 hs with rfl | hs
      · exact hcall.self.toIsPlaced
      · rcases List.mem_cons.1 hs with rfl | hs
        · exact hn.self.toIsPlaced.trailing hcall.self.toIsPlaced (Span.contains_iff.1 hcontains).2
        · exact span_of_mem_argumentsOf (q := (·.IsPlaced P))
            (hcall.imp fun _ hm => hm.toIsPlaced) hs
    · exact ih hcall ha

/-- The last call contains the places in all calls. -/
theorem contains_of_mem_spans (h : Climbs source (Lies P) n calls last)
    (hn : Everywhere (Lies P) n) (ha : a ∈ calls) (hs : s ∈ a.spans) :
    last.span.contains s = true := by
  induction h with
  | stop n => exact absurd ha List.not_mem_nil
  | @step n access call last calls c separator haccess hcall hreceiver hchild _ _ hclimbs ih =>
    rcases List.mem_cons.1 ha with rfl | ha
    · have hlast := hclimbs.contains_last
      rw [Call.spans] at hs
      rcases List.mem_cons.1 hs with rfl | hs
      · exact hlast
      · rcases List.mem_cons.1 hs with rfl | hs
        -- A segment starts where the call before it stops, which is not before that starts.
        · have hinner := Span.contains_trans hlast
            (contains_of_access haccess.self hcall.self hreceiver hchild)
          exact Span.contains_iff.2 ⟨Nat.le_trans (Span.contains_iff.1 hinner).1 hn.self.ordered,
            (Span.contains_iff.1 hlast).2⟩
        · exact span_of_mem_argumentsOf (q := (last.span.contains · = true))
            (hcall.contained hlast) hs
    · exact ih hcall ha

end Climbs

/-! ### Chains of a tree -/

/-- A chain is what is climbed from a call of `CreateMap`, in the statement that consists of
it, if there is one. -/
theorem exists_climbs_of_chain? {c : Chain} (htree : tree.Throughout p)
    (hsite : site ∈ sites source {} [] tree.root) (h : chain? source site = some c) :
    ∃ callee calls last, callee.name = "CreateMap" ∧ Everywhere p site.node ∧
      c.calls = callOf source site.node callee site.node.span "" :: calls ∧
      Climbs source p site.node calls last ∧ c.span = last.span ∧
      ∀ st ∈ c.statement, ∃ n : Node, n.Everywhere p ∧ last ∈ n.children ∧ n.span = st.span := by
  rw [chain?] at h
  split at h
  · cases h
  · next hkind =>
    obtain ⟨callee, -, h⟩ := Option.bind_eq_some_iff.1 h
    by_cases hname : callee.name = "CreateMap"
    · have hinvoked : site.node.kind = .invocation := by simpa using hkind
      rw [if_neg (by simp [hname])] at h
      obtain ⟨hnode, htrail⟩ := everywhere_of_mem_sites htree hsite (by
        rw [hinvoked]
        exact htree.not_call.symm)
      obtain ⟨hclimbs, htrail'⟩ := climbs_climb hinvoked htrail
      obtain rfl := Option.some.inj h
      refine ⟨callee, _, _, hname, hnode, rfl, hclimbs, rfl, ?_⟩
      intro st hst
      generalize (climb source site.node site.ancestors).2.1 = last at htrail' ⊢
      generalize (climb source site.node site.ancestors).2.2 = above at htrail' hst
      cases htrail' with
      | top _ hroot =>
        simp [statementOf?, hroot] at hst
      | step hstatement hchild _ =>
        simp only [statementOf?] at hst
        split at hst
        · obtain rfl := Option.some.inj hst
          exact ⟨_, hstatement, List.mem_of_getElem? hchild, rfl⟩
        · cases hst
    · rw [if_pos (by simpa using hname)] at h
      cases h

variable {path text : String} {P : Nat → Prop}

/-- The spans in a chain are placed as the nodes of its tree are. -/
theorem isPlaced_of_mem_spans (htree : tree.Throughout (Lies P)) {c : Chain}
    (hc : c ∈ (File.ofTree path text tree).chains) (hs : s ∈ c.spans) : s.IsPlaced P := by
  obtain ⟨site, hsite, hchain⟩ := List.mem_filterMap.1 hc
  obtain ⟨callee, calls, last, -, hnode, hcalls, hclimbs, hspan, hstatement⟩ :=
    exists_climbs_of_chain? htree hsite hchain
  rw [Chain.spans] at hs
  rcases List.mem_append.1 hs with hs | hs
  · rcases List.mem_cons.1 hs with rfl | hs
    · rw [hspan]
      exact (hclimbs.everywhere_last hnode).self.toIsPlaced
    · obtain ⟨st, hst, rfl⟩ := Option.map_eq_some_iff.1 (Option.mem_toList.1 hs)
      obtain ⟨n, hn, -, hn'⟩ := hstatement st hst
      rw [← hn']
      exact hn.self.toIsPlaced
  · rw [hcalls] at hs
    obtain ⟨a, ha, hs⟩ := List.mem_flatMap.1 hs
    rcases List.mem_cons.1 ha with rfl | ha
    · rw [Call.spans] at hs
      rcases List.mem_cons.1 hs with rfl | hs
      · exact hnode.self.toIsPlaced
      · rcases List.mem_cons.1 hs with rfl | hs
        · exact hnode.self.toIsPlaced
        · exact span_of_mem_argumentsOf (q := (·.IsPlaced P))
            (hnode.imp fun _ hm => hm.toIsPlaced) hs
    · exact hclimbs.isPlaced hnode ha hs

/-- A chain contains the places in its calls. -/
theorem contains_of_mem_spans (htree : tree.Throughout (Lies P)) {c : Chain} {a : Call}
    (hc : c ∈ (File.ofTree path text tree).chains) (ha : a ∈ c.calls) (hs : s ∈ a.spans) :
    c.span.contains s = true := by
  obtain ⟨site, hsite, hchain⟩ := List.mem_filterMap.1 hc
  obtain ⟨callee, calls, last, -, hnode, hcalls, hclimbs, hspan, -⟩ :=
    exists_climbs_of_chain? htree hsite hchain
  have hlast := hclimbs.contains_last
  rw [hspan]
  rw [hcalls] at ha
  rcases List.mem_cons.1 ha with rfl | ha
  · rw [Call.spans] at hs
    rcases List.mem_cons.1 hs with rfl | hs
    · exact hlast
    · rcases List.mem_cons.1 hs with rfl | hs
      · exact hlast
      · exact span_of_mem_argumentsOf (q := (last.span.contains · = true))
          (hnode.contained hlast) hs
  · exact hclimbs.contains_of_mem_spans hnode ha hs

/-- The calls of a chain lie side by side in a text. -/
structure Chain.Tiles (text : String) (c : Chain) : Prop where
  /-- The first call is one of `CreateMap` and its own segment. -/
  root : ∃ a, c.calls.head? = some a ∧ a.name = "CreateMap" ∧ a.segment = a.span
  /-- The segment of a later call starts where the call before it stops, and stops where the
  call itself does. -/
  segment : ∀ i a b, c.calls[i]? = some a → c.calls[i + 1]? = some b →
    b.segment.start = a.span.stop ∧ b.segment.stop = b.span.stop
  /-- All calls start where the chain starts. -/
  start : ∀ a ∈ c.calls, a.span.startByte = c.span.startByte
  /-- The last call is the whole chain. -/
  last : ∃ a, c.calls.getLast? = some a ∧ a.span = c.span
  /-- The statement of the chain contains it. -/
  statement : ∀ st ∈ c.statement, st.span.contains c.span = true
  /-- No place in the chain stops before its start or behind the text. -/
  places : ∀ s ∈ c.spans, s.startByte ≤ s.endByte ∧ s.endByte ≤ text.utf8ByteSize

/-- **Chains tile.**  Whatever tree is read from a text, as long as its nodes lie in the text,
each within its parent, and what a node is made on comes first in it: in every chain of the tree the first call is one of `CreateMap` and its own segment; the
segment of each later call runs from the end of the call before it to its own end; all calls
start at one byte, and the last of them is the whole chain.  The statement that consists of
the chain contains it.  All places in the chain, those in its arguments and lambdas among
them, stop after their start and within the text. -/
theorem chains_tile (h : tree.FitsIn text) :
    ∀ c ∈ (File.ofTree path text tree).chains, c.Tiles text := by
  intro c hc
  obtain ⟨site, hsite, hchain⟩ := List.mem_filterMap.1 hc
  obtain ⟨callee, calls, last, hname, hnode, hcalls, hclimbs, hspan, hstatement⟩ :=
    exists_climbs_of_chain? h hsite hchain
  refine ⟨?root, ?segment, ?start, ?last, ?statement, ?places⟩
  case root =>
    rw [hcalls]
    exact ⟨_, rfl, hname, rfl⟩
  case segment =>
    intro i a b ha hb
    rw [hcalls] at ha hb
    rw [hclimbs.segment_eq rfl ha hb]
    exact ⟨rfl, rfl⟩
  case start =>
    intro a ha
    rw [hcalls] at ha
    rw [hspan, hclimbs.start_last]
    rcases List.mem_cons.1 ha with rfl | ha
    · rfl
    · exact hclimbs.start_eq ha
  case last =>
    rw [hcalls, hspan]
    exact hclimbs.span_last rfl
  case statement =>
    intro st hst
    obtain ⟨n, hn, hlast, hn'⟩ := hstatement st hst
    rw [hspan, ← hn']
    exact hn.self.within last hlast
  case places =>
    intro s hs
    have hplaced := isPlaced_of_mem_spans (h.imp fun _ hm => hm.toLies) hc hs
    exact ⟨hplaced.ordered, hplaced.stop⟩

/-- A profile with a mapping in both directions. -/
def profileText : String := "class P:Profile{P(){CreateMap<A,B>( /**/ ) . ReverseMap();}}"

set_option maxRecDepth 100000 in
/-- The chain has two calls. -/
theorem profileText_chains :
    (File.ofTree "P.cs" profileText (SyntaxTree.read profileText)).chains.map (fun c =>
      (c.calls.map (·.name), c.calls.map (fun a => (a.segment.startByte, a.segment.endByte)),
        c.statement.map (fun st => (st.span.startByte, st.span.endByte)))) =
      [(["CreateMap", "ReverseMap"], [(20, 42), (42, 57)], some (20, 58))] := by
  decide +kernel

/-- The tree that the grammar reads from `profileText` is such a tree, and the two calls of
its chain lie side by side. -/
theorem chains_tile_profileText : (SyntaxTree.read profileText).FitsIn profileText ∧
    ∃ c, (File.ofTree "P.cs" profileText (SyntaxTree.read profileText)).chains = [c] ∧
      c.calls.map (·.name) = ["CreateMap", "ReverseMap"] ∧ c.statement.isSome = true ∧
      c.Tiles profileText := by
  have hfits := SyntaxTree.read_fitsIn profileText
  obtain ⟨c, hchains, hc⟩ := List.map_eq_singleton_iff.1 profileText_chains
  obtain ⟨hnames, hrest⟩ := Prod.mk.inj hc
  obtain ⟨-, hstatement⟩ := Prod.mk.inj hrest
  obtain ⟨st, hst, -⟩ := Option.map_eq_some_iff.1 hstatement
  refine ⟨hfits, c, hchains, hnames, by rw [hst]; rfl, ?_⟩
  exact chains_tile hfits c (by rw [hchains]; exact List.mem_cons_self)

end Source
end MappingAudit
