/-
# Roles of arguments

Paths are read from left to right: the argument after a flag that takes a value is that value,
whatever it says, and is passed over (`Arguments.roles`).  The values of a flag and switches are
looked for on their own, wherever their names stand, also where the reading of paths has passed
over a value.

So an argument can have two roles.  `-r -r AM006` has the rules `-r` and `AM006`, and the path
`AM006` (`Arguments.repeated_flag_two_roles`).  `Arguments.one_role_iff` says when this happens:
when what is read as a flag or a switch stands behind an odd number of flags that take a value.
-/

import MappingAudit.CommandLine.Arguments
import Mathlib.Algebra.Ring.Parity

namespace MappingAudit
namespace Arguments

variable {names switches args : List String} {a : String} {i : Nat} {skip : Bool}

/-! ### How paths are read -/

/-- What an argument is when paths are read. -/
inductive Role where
  | flag
  /-- The value of the flag before it, which is passed over. -/
  | value
  | path
  deriving Repr, DecidableEq

/-- The roles of arguments one after the other, of which the first is passed over or not. -/
def rolesFrom : Bool → List String → List Role
  | _, [] => []
  | true, _ :: rest => .value :: rolesFrom false rest
  | false, a :: rest =>
    (if isFlag a then .flag else .path) :: rolesFrom (valueFlags.contains a) rest

/-- The roles of all arguments. -/
def roles (args : List String) : List Role := rolesFrom false args

/-- The flags with a value are flags. -/
theorem isFlag_of_mem_valueFlags : ∀ a ∈ valueFlags, isFlag a = true := by decide

/-- **The paths are the arguments with the role of a path.** -/
theorem bare_eq (args : List String) :
    bare args = ((args.zip (roles args)).filter (·.2 == .path)).map (·.1) := by
  rw [roles]
  fun_induction bare args with
  | case1 => rfl
  | case2 a h => simp [rolesFrom, h]
  | case3 a h => simp [rolesFrom, h]
  | case4 a v rest hvalue ih =>
    have hflag := isFlag_of_mem_valueFlags a (List.contains_iff_mem.1 hvalue)
    rw [rolesFrom, if_pos hflag, hvalue, rolesFrom]
    exact ih
  | case5 a v rest hvalue hflag ih =>
    rw [Bool.not_eq_true] at hvalue
    rw [rolesFrom, if_pos hflag, hvalue]
    exact ih
  | case6 a v rest hvalue hflag ih =>
    rw [Bool.not_eq_true] at hvalue
    rw [rolesFrom, if_neg hflag, hvalue, ih]
    rfl

/-- The first argument is a value exactly when a flag before it takes one. -/
theorem getElem?_rolesFrom_zero {rest : List String} :
    (rolesFrom skip (a :: rest))[0]? = some .value ↔ skip = true := by
  cases skip with
  | true => simp [rolesFrom]
  | false => by_cases ha : isFlag a = true <;> simp [rolesFrom, ha]

/-- The further arguments have the roles that they have after the first one. -/
theorem getElem?_rolesFrom_succ (skip : Bool) (a : String) (rest : List String) (i : Nat) :
    (rolesFrom skip (a :: rest))[i + 1]? =
      (rolesFrom (!skip && valueFlags.contains a) rest)[i]? := by
  cases skip <;> rfl

/-- The argument behind `a` is passed over exactly if `a` is a flag that takes a value and is
not passed over itself. -/
theorem rolesFrom_succ (h : args[i]? = some a) :
    (rolesFrom skip args)[i + 1]? = some .value ↔
      i + 1 < args.length ∧ a ∈ valueFlags ∧ (rolesFrom skip args)[i]? ≠ some .value := by
  induction i generalizing skip args with
  | zero =>
    cases args with
    | nil => cases h
    | cons b rest =>
      obtain rfl : b = a := by simpa using h
      rw [getElem?_rolesFrom_succ, Ne, getElem?_rolesFrom_zero]
      cases rest with
      | nil => simp [rolesFrom]
      | cons c rest =>
        rw [getElem?_rolesFrom_zero]
        cases skip <;> simp
  | succ i ih =>
    cases args with
    | nil => cases h
    | cons b rest =>
      rw [getElem?_rolesFrom_succ, getElem?_rolesFrom_succ, ih h, List.length_cons,
        Nat.add_lt_add_iff_right]

/-- Every argument has a role. -/
theorem length_rolesFrom : (rolesFrom skip args).length = args.length := by
  induction args generalizing skip with
  | nil => cases skip <;> rfl
  | cons a rest ih => cases skip <;> simp [rolesFrom, ih]

/-- Only arguments have roles. -/
theorem lt_length_of_roles {r : Role} (h : (roles args)[i]? = some r) : i < args.length := by
  obtain ⟨hi, -⟩ := List.getElem?_eq_some_iff.1 h
  rwa [roles, length_rolesFrom] at hi

/-- The first argument of all is no value. -/
theorem roles_zero : (roles args)[0]? ≠ some .value := by
  cases args with
  | nil => simp [roles, rolesFrom]
  | cons a rest =>
    rw [roles, Ne, getElem?_rolesFrom_zero]
    exact Bool.false_ne_true

/-- What stands behind a flag that takes a value is passed over, unless the flag is. -/
theorem roles_succ_iff (hi : i + 1 < args.length) : (roles args)[i + 1]? = some .value ↔
    args[i] ∈ valueFlags ∧ (roles args)[i]? ≠ some .value := by
  rw [roles, rolesFrom_succ (List.getElem?_eq_getElem (Nat.lt_of_succ_lt hi))]
  exact and_iff_right hi

/-- The flags that take a value which stand in a row right before a place, the last one first. -/
def flagsBefore (args : List String) (i : Nat) : List String :=
  (args.take i).reverse.takeWhile valueFlags.contains

/-- The run of flags before an argument ends with the one in front of it. -/
theorem flagsBefore_succ (hi : i < args.length) : flagsBefore args (i + 1) =
    if args[i] ∈ valueFlags then args[i] :: flagsBefore args i else [] := by
  rw [flagsBefore, List.take_succ_eq_append_getElem hi, List.reverse_append,
    List.reverse_singleton, List.singleton_append, List.takeWhile_cons]
  exact if_congr List.contains_iff_mem rfl rfl

/-- An argument is a value exactly when an odd number of flags with a value stands right before
it. -/
theorem roles_eq_value_iff_of_lt (hi : i < args.length) :
    (roles args)[i]? = some .value ↔ ¬ Even (flagsBefore args i).length := by
  induction i with
  | zero => simp [roles_zero, flagsBefore]
  | succ i ih =>
    have hlt := Nat.lt_of_succ_lt hi
    rw [roles_succ_iff hi, Ne, ih hlt, not_not, flagsBefore_succ hlt]
    split
    · next hflag => rw [List.length_cons, Nat.even_add_one, not_not, and_iff_right hflag]
    · next hflag => simp [hflag]

/-- **An argument is passed over exactly if an odd number of flags that take a value stand right
before it.**  Each of these flags is the value of the one before it, or takes the next one. -/
theorem roles_eq_value_iff : (roles args)[i]? = some .value ↔
    i < args.length ∧ ¬ Even (flagsBefore args i).length := by
  constructor
  · intro h
    have hi := lt_length_of_roles h
    exact ⟨hi, (roles_eq_value_iff_of_lt hi).1 h⟩
  · rintro ⟨hi, hodd⟩
    exact (roles_eq_value_iff_of_lt hi).2 hodd

/-! ### How flags are read -/

/-- **The values of a flag are the arguments behind its names.** -/
theorem values_eq (names args : List String) :
    values names args = ((args.zip args.tail).filter (names.contains ·.1)).map (·.2) := by
  fun_induction values names args with
  | case1 a v rest hname ih =>
    rw [List.tail_cons, List.zip_cons_cons, List.filter_cons, if_pos hname, List.map_cons, ih]
    rfl
  | case2 a v rest hname ih =>
    rw [List.tail_cons, List.zip_cons_cons, List.filter_cons, if_neg hname, ih]
    rfl
  | case3 args hshort =>
    match args with
    | [] => rfl
    | [a] => rfl
    | a :: v :: rest => exact absurd rfl (hshort a v rest)

/-- Where one value of a flag is taken, it is the one behind the first of its names. -/
theorem value?_eq (names args : List String) :
    value? names args = (args.findIdx? names.contains).bind fun i => args[i + 1]? := by
  induction args with
  | nil => rfl
  | cons a rest ih =>
    rw [value?, List.findIdx?_cons]
    split
    · rw [Option.bind_some, List.getElem?_cons_succ, List.head?_eq_getElem?]
    · rw [ih, Option.bind_map]
      rfl

/-- A switch is given if its name has a first place. -/
theorem has_eq (args : List String) (name : String) :
    has args name = (args.idxOf? name).isSome := by
  rw [has, Bool.eq_iff_iff, List.contains_iff_mem, List.isSome_idxOf?]

/-- The argument at a place is read as a flag that takes the next one as its value: each name of
the flag for a rule is, and the first name of the flag for a settings file. -/
inductive TakesValue (args : List String) (i : Nat) : Prop where
  | rule (a : String) (harg : args[i]? = some a) (hname : a ∈ ruleFlags)
  | config (hfirst : args.findIdx? configFlags.contains = some i)

/-- A flag that takes a value is an argument. -/
theorem TakesValue.exists_mem (h : TakesValue args i) :
    ∃ hi : i < args.length, args[i] ∈ valueFlags := by
  cases h with
  | rule a harg hname =>
    obtain ⟨hi, rfl⟩ := List.getElem?_eq_some_iff.1 harg
    exact ⟨hi, List.mem_append_right _ hname⟩
  | config hfirst =>
    obtain ⟨hi, hname, -⟩ := List.findIdx?_eq_some_iff_getElem.1 hfirst
    exact ⟨hi, List.mem_append_left _ (List.contains_iff_mem.1 hname)⟩

/-! ### One role -/

/-- No argument has two roles: no path is the value of a flag, and no value that is passed over
is read as a flag or as a switch. -/
structure OneRole (switches args : List String) : Prop where
  path_not_value : ∀ i, (roles args)[i + 1]? = some .path → ¬ TakesValue args i
  value_not_flag : ∀ i, (roles args)[i]? = some .value → ¬ TakesValue args i
  value_not_switch : ∀ i, (roles args)[i]? = some .value → ∀ s ∈ switches, args.idxOf? s ≠ some i

namespace OneRole

/-- With one role each, even numbers of flags with a value stand before the flags that are read.
-/
theorem even_flagsBefore (h : OneRole switches args) :
    (∀ i, TakesValue args i → Even (flagsBefore args i).length) ∧
      ∀ s ∈ switches, ∀ i, args.idxOf? s = some i → Even (flagsBefore args i).length := by
  refine ⟨fun i htakes => ?_, fun s hs i hfirst => ?_⟩
  · obtain ⟨hi, -⟩ := htakes.exists_mem
    by_contra hodd
    exact h.value_not_flag i (roles_eq_value_iff.2 ⟨hi, hodd⟩) htakes
  · obtain ⟨hi, -⟩ := List.idxOf?_eq_some_iff.1 hfirst
    by_contra hodd
    exact h.value_not_switch i (roles_eq_value_iff.2 ⟨hi, hodd⟩) s hs hfirst

/-- Even numbers of such flags are enough for one role each. -/
theorem of_even (hflags : ∀ i, TakesValue args i → Even (flagsBefore args i).length)
    (hswitches : ∀ s ∈ switches, ∀ i, args.idxOf? s = some i →
      Even (flagsBefore args i).length) : OneRole switches args where
  path_not_value i hpath htakes := by
    -- The flag is not passed over itself, so it passes over what follows.
    obtain ⟨_, hname⟩ := htakes.exists_mem
    have hrole : (roles args)[i]? ≠ some .value := fun hvalue =>
      (roles_eq_value_iff.1 hvalue).2 (hflags i htakes)
    rw [(roles_succ_iff (lt_length_of_roles hpath)).2 ⟨hname, hrole⟩] at hpath
    cases hpath
  value_not_flag i hvalue htakes := (roles_eq_value_iff.1 hvalue).2 (hflags i htakes)
  value_not_switch i hvalue s hs hfirst :=
    (roles_eq_value_iff.1 hvalue).2 (hswitches s hs i hfirst)

end OneRole

/-- **When arguments have one role.**  The paths are the arguments with the role of a path in
the reading from left to right, which passes over an argument behind an odd number of flags
that take a value.  The values of a flag are the arguments behind its names; where one value is
taken, it is the one behind the first name.  A switch is given where its name first stands.  So
a position has one role in all these readings exactly if whatever is read as a flag or as a
switch stands behind an even number of flags that take a value, mostly behind none. -/
theorem one_role_iff (switches args : List String) :
    bare args = ((args.zip (roles args)).filter (·.2 == .path)).map (·.1) ∧
    (∀ i : Nat, (roles args)[i]? = some Role.value ↔
      i < args.length ∧ ¬ Even (flagsBefore args i).length) ∧
    (∀ names, values names args =
      ((args.zip args.tail).filter (names.contains ·.1)).map (·.2)) ∧
    (∀ names, value? names args =
      (args.findIdx? names.contains).bind fun i => args[i + 1]?) ∧
    (∀ name, has args name = (args.idxOf? name).isSome) ∧
    (OneRole switches args ↔
      (∀ i, TakesValue args i → Even (flagsBefore args i).length) ∧
      ∀ s ∈ switches, ∀ i, args.idxOf? s = some i → Even (flagsBefore args i).length) := by
  exact ⟨bare_eq args, fun i => roles_eq_value_iff, fun names => values_eq names args,
    fun names => value?_eq names args, fun name => has_eq args name,
    OneRole.even_flagsBefore, fun h => OneRole.of_even h.1 h.2⟩

/-- The second `-r` is passed over as the value of the first one, and is read as a flag with
the value `AM006`, which is a path too. -/
theorem repeated_flag_two_roles :
    paths ["-r", "-r", "AM006"] = ["AM006"] ∧
      values ruleFlags ["-r", "-r", "AM006"] = ["-r", "AM006"] ∧
      ¬ OneRole ["--json", "--dry-run", "--all"] ["-r", "-r", "AM006"] := by
  refine ⟨by decide, by decide, fun h => ?_⟩
  exact h.path_not_value 1 (by decide) (.rule "-r" rfl (by decide))

end Arguments
end MappingAudit
