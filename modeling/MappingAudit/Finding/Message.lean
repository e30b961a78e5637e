/-
# Message templates

A template holds places `{n}`, which the arguments fill by position.  A number
without an argument leaves nothing; a brace that opens no place stands for itself.
The text of an argument is not read again.
-/

namespace MappingAudit
namespace Message

/-- The number in decimal digits. -/
def number (digits : List Char) : Nat :=
  digits.foldl (fun n d => 10 * n + (d.toNat - '0'.toNat)) 0

/-- The number that a text of digits with an optional plus sign stands for, when it is
below `limit`. -/
def natural? (limit : Nat) (cs : List Char) : Option Nat :=
  let digits := match cs with
    | '+' :: rest => rest
    | rest => rest
  let n := number digits
  if digits.isEmpty || !digits.all Char.isDigit || n ≥ limit then none else some n

/-- What the numbers of a machine word stay below. -/
def wordLimit : Nat := 0x10000000000000000

/-- The index that digits stand for.  Digits for which a word is too small stand for the
largest index. -/
def index (digits : List Char) : Nat := (natural? wordLimit digits).getD (wordLimit - 1)

/-- The index of a place and the text after it, when one starts after a brace: all up to the
next closing brace is digits. -/
def place? (cs : List Char) : Option (Nat × List Char) :=
  match cs.dropWhile (· != '}') with
  | [] => none
  | _ :: rest =>
    let digits := cs.takeWhile (· != '}')
    if digits.isEmpty || !digits.all Char.isDigit then none else some (index digits, rest)

/-- What starts with a place: digits, and a brace that closes them. -/
theorem place?_eq_some_iff {cs rest : List Char} {n : Nat} : place? cs = some (n, rest) ↔
    ∃ digits, digits ≠ [] ∧ (∀ d ∈ digits, d.isDigit = true) ∧ n = index digits ∧
      cs = digits ++ '}' :: rest := by
  have hsplit := List.takeWhile_append_dropWhile (p := (· != '}')) (l := cs)
  constructor
  · intro h
    rw [place?] at h
    cases hdrop : cs.dropWhile (· != '}') with
    | nil => simp [hdrop] at h
    | cons c after =>
      have hclose : c = '}' := by
        have hhead := List.head?_dropWhile_not (· != '}') cs
        simpa [hdrop] using hhead
      simp only [hdrop, Option.ite_none_left_eq_some, Option.some.injEq, Prod.mk.injEq,
        Bool.or_eq_true, not_or, List.isEmpty_iff, Bool.not_eq_true', Bool.not_eq_false,
        List.all_eq_true] at h
      obtain ⟨⟨hne, hdigits⟩, hn, rfl⟩ := h
      rw [hdrop, hclose] at hsplit
      exact ⟨_, hne, hdigits, hn.symm, hsplit.symm⟩
  · rintro ⟨digits, hne, hdigits, rfl, rfl⟩
    have hopen : ∀ d ∈ digits, (d != '}') = true := by
      intro d hd
      rw [bne_iff_ne]
      rintro rfl
      exact absurd (hdigits _ hd) (by decide)
    rw [place?, List.takeWhile_append_of_pos hopen, List.dropWhile_append_of_pos hopen]
    simpa [hne] using hdigits

/-- A place is not the whole text, so the text after it is shorter. -/
theorem place?_length {cs rest : List Char} {n : Nat} (h : place? cs = some (n, rest)) :
    rest.length < cs.length := by
  obtain ⟨digits, -, -, -, rfl⟩ := place?_eq_some_iff.1 h
  rw [List.length_append, List.length_cons]
  omega

/-- The template with its places filled. -/
def fillChars (args : List String) (cs : List Char) : List Char :=
  match cs with
  | [] => []
  | c :: rest =>
    if c = '{' then
      match _h : place? rest with
      | some (n, after) => ((args[n]?).getD "").toList ++ fillChars args after
      | none => c :: fillChars args rest
    else c :: fillChars args rest
termination_by cs.length
decreasing_by
  · exact Nat.lt_succ_of_lt (place?_length _h)
  · exact Nat.lt_succ_self _
  · exact Nat.lt_succ_self _

/-- The template with its places filled. -/
def fill (template : String) (args : List String) : String :=
  String.ofList (fillChars args template.toList)

end Message
end MappingAudit
