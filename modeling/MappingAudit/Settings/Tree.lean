/-
# Settings as text

Settings are written as nested mappings of names to values, in the block form

    rules:
      AM004:
        enabled: false

or in the flow form `{AM004: {enabled: false}}`, in which there are also lists such as
`[false, info]`.  This is the part of YAML that settings need: mappings, lists, plain
and quoted values, comments, and one document.  In the block form the entries of a
mapping stand in one column, and nested ones further to the right.
-/

import MappingAudit.Text.Pieces

namespace MappingAudit

/-- Nested mappings of names to values, and lists of them. -/
inductive Tree where
  | value (text : String) (quoted : Bool)
  | list (items : List Tree)
  | mapping (entries : List (String × Tree))
  deriving Repr, Inhabited

namespace Tree

/-- The value that is not written. -/
def empty : Tree := value "" false

/-- A place in the text: the characters from there on, and the column. -/
abbrev Cursor := List Char × Nat

/-- The character ends a line. -/
def isBreak (c : Char) : Bool := c == '\n' || c == '\r'

/-- The text ends, or a blank follows. -/
def atBlank (cs : List Char) : Bool :=
  match cs with
  | [] => true
  | c :: _ => c == ' ' || c == '\t' || isBreak c

/-- Skips blanks, line ends and comments.  In the block form tabs count as blanks only
after something else on the line. -/
def skip (tabs flow comment : Bool) : List Char → Nat → Cursor
  | [], col => ([], col)
  | c :: cs, col =>
    if isBreak c then skip flow flow false cs 0
    else if comment then skip tabs flow true cs (col + 1)
    else if c == ' ' || (c == '\t' && tabs) then skip tabs flow false cs (col + 1)
    else if c == '#' then skip tabs flow true cs (col + 1)
    else (c :: cs, col)

/-- Skips the blanks of a line. -/
def skipBlanks : List Char → Nat → Cursor
  | [], col => ([], col)
  | c :: cs, col =>
    if c == ' ' || c == '\t' then skipBlanks cs (col + 1) else (c :: cs, col)

/-- The rest of the line holds nothing but a comment. -/
def atLineEnd (cs : List Char) : Bool :=
  match cs with
  | [] => true
  | c :: _ => isBreak c || c == '#'

/-- Characters that structure the flow form. -/
def isFlowMark (c : Char) : Bool := c == ',' || c == '[' || c == ']' || c == '{' || c == '}'

/-- A plain value cannot start here. -/
def startsNoPlain (flow : Bool) (cs : List Char) : Bool :=
  match cs with
  | [] => true
  | c :: rest =>
    if c == '-' then atBlank rest
    else if c == '?' || c == ':' then flow || atBlank rest
    else isFlowMark c || "#&*!|>'\"%@`".toList.contains c || c == ' ' || c == '\t' || isBreak c

/-- The characters of a plain value, as far as they go on one line. -/
def plain (flow : Bool) : List Char → List Char × List Char
  | [] => ([], [])
  | c :: cs =>
    if isBreak c || (c == ':' && atBlank cs) || (flow && isFlowMark c) ||
        ((c == ' ' || c == '\t') && cs.head? == some '#') then
      ([], c :: cs)
    else
      let (text, rest) := plain flow cs
      (c :: text, rest)

/-- The characters of a value in single quotes, where a quote is written twice. -/
def singleQuoted : List Char → Option (List Char × List Char)
  | [] => none
  | '\'' :: '\'' :: cs => (singleQuoted cs).map fun (t, r) => ('\'' :: t, r)
  | c :: cs =>
    if c == '\'' then some ([], cs)
    else if isBreak c then none
    else (singleQuoted cs).map fun (t, r) => (c :: t, r)

/-- The character that a letter stands for after a backslash. -/
def escaped? (c : Char) : Option Char :=
  [('0', '\x00'), ('a', '\x07'), ('b', '\x08'), ('t', '\t'), ('n', '\n'), ('v', '\x0b'),
    ('f', '\x0c'), ('r', '\r'), ('e', '\x1b'), (' ', ' '), ('"', '"'), ('/', '/'),
    ('\\', '\\'), ('N', '\u0085'), ('_', '\u00a0'), ('L', '\u2028'), ('P', '\u2029')].lookup c

/-- The number of digits after the letter of an escaped code point. -/
def codeDigits : Char → Nat
  | 'x' => 2
  | 'u' => 4
  | 'U' => 8
  | _ => 0

/-- The character of a code point in hexadecimal digits. -/
def ofCode? (digits : List Char) : Option Char := do
  let n ← digits.foldlM (fun n c => (hexDigit? c).map fun d => 16 * n + d) 0
  if n.isValidChar then some (Char.ofNat n) else none
where
  /-- The value of a hexadecimal digit. -/
  hexDigit? (c : Char) : Option Nat :=
    if c.isDigit then some (c.toNat - '0'.toNat)
    else if 'a' ≤ c && c ≤ 'f' then some (c.toNat - 'a'.toNat + 10)
    else if 'A' ≤ c && c ≤ 'F' then some (c.toNat - 'A'.toNat + 10)
    else none

/-- The character after a backslash, and the number of characters it takes. -/
def escape? : List Char → Option (Char × Nat)
  | [] => none
  | e :: cs =>
    match codeDigits e with
    | 0 => (escaped? e).map fun c => (c, 1)
    | n => if n ≤ cs.length then (ofCode? (cs.take n)).map fun c => (c, n + 1) else none

/-- The characters of a value in double quotes, after as many as belong to a character
that was read already. -/
def doubleQuoted : Nat → List Char → Option (List Char × List Char)
  | _, [] => none
  | n + 1, _ :: cs => doubleQuoted n cs
  | 0, c :: cs =>
    if c == '"' then some ([], cs)
    else if isBreak c then none
    else if c == '\\' then do
      let (e, n) ← escape? cs
      let (t, r) ← doubleQuoted n cs
      pure (e :: t, r)
    else (doubleQuoted 0 cs).map fun (t, r) => (c :: t, r)

/-- A value with the place after it. -/
structure Scanned where
  text : String
  quoted : Bool
  after : Cursor

/-- The value at a place. -/
def scalar? (flow : Bool) (at_ : Cursor) : Option Scanned :=
  let (cs, col) := at_
  let moved (rest : List Char) : Cursor := (rest, col + (cs.length - rest.length))
  match cs with
  | '\'' :: rest => (singleQuoted rest).map fun (t, r) => ⟨String.ofList t, true, moved r⟩
  | '"' :: rest => (doubleQuoted 0 rest).map fun (t, r) => ⟨String.ofList t, true, moved r⟩
  | cs =>
    if startsNoPlain flow cs then none
    else
      let (t, r) := plain flow cs
      if flow && endsInColon t r then none
      else some ⟨String.ofList (Pieces.trimEnd (fun c => c == ' ' || c == '\t') t), false, moved r⟩
where
  /-- In the flow form a colon has to be followed by a blank or by more of the value. -/
  endsInColon (t r : List Char) : Bool :=
    t.getLast? == some ':' && r.head?.any isFlowMark

/-- The places after a name and after the colon that follows it. -/
def colon? (flow : Bool) (after : Cursor) : Option Cursor :=
  let (cs, col) := if flow then skip true true false after.1 after.2 else skipBlanks after.1 after.2
  match cs with
  | ':' :: rest => if flow || atBlank rest then some (rest, col + 1) else none
  | _ => none

mutual

/-- A value, mapping or list in the flow form. -/
def flowTree? : Nat → Cursor → Option (Tree × Cursor)
  | 0, _ => none
  | n + 1, at_ =>
    match at_.1 with
    | '{' :: rest =>
      (flowEntries? n (skip true true false rest (at_.2 + 1))).map fun (es, c) => (mapping es, c)
    | '[' :: rest =>
      (flowItems? n (skip true true false rest (at_.2 + 1))).map fun (ts, c) => (list ts, c)
    | _ => (scalar? true at_).map fun s => (value s.text s.quoted, s.after)

/-- The entries of a mapping in the flow form, up to its end. -/
def flowEntries? : Nat → Cursor → Option (List (String × Tree) × Cursor)
  | 0, _ => none
  | n + 1, at_ =>
    match at_.1 with
    | '}' :: rest => some ([], (rest, at_.2 + 1))
    | _ => do
      let key ← scalar? true at_
      let (tree, after) ←
        match colon? true key.after with
        | none => some (empty, key.after)
        | some c =>
          let c := skip true true false c.1 c.2
          match c.1 with
          | ',' :: _ => some (empty, c)
          | '}' :: _ => some (empty, c)
          | _ => flowTree? n c
      let (cs, col) := skip true true false after.1 after.2
      match cs with
      | ',' :: rest => do
        let (es, c) ← flowEntries? n (skip true true false rest (col + 1))
        some ((key.text, tree) :: es, c)
      | '}' :: rest => some ([(key.text, tree)], (rest, col + 1))
      | _ => none

/-- The items of a list in the flow form, up to its end. -/
def flowItems? : Nat → Cursor → Option (List Tree × Cursor)
  | 0, _ => none
  | n + 1, at_ =>
    match at_.1 with
    | ']' :: rest => some ([], (rest, at_.2 + 1))
    | _ => do
      let (tree, after) ← flowTree? n at_
      let (cs, col) := skip true true false after.1 after.2
      match cs with
      | ',' :: rest => do
        let (ts, c) ← flowItems? n (skip true true false rest (col + 1))
        some (tree :: ts, c)
      | ']' :: rest => some ([tree], (rest, col + 1))
      | _ => none

end

/-- The text ends here, or a mark that ends the document follows. -/
def atEnd (at_ : Cursor) : Bool :=
  at_.1.isEmpty || (at_.2 == 0 &&
    ["---", "..."].any fun m => ((Pieces.dropHead? m.toList at_.1).map atBlank).getD false)

/-- The next line with something on it, after the end of a value. -/
def nextLine? (after : Cursor) : Option Cursor :=
  let (cs, col) := skipBlanks after.1 after.2
  if atLineEnd cs then some (skip true false false cs col) else none

/-- A value, or a mapping or list in the flow form, that takes the rest of its line. -/
def lineTree? (at_ : Cursor) : Option (Tree × Cursor) := do
  let (tree, after) ←
    match at_.1 with
    | '{' :: _ => flowTree? (at_.1.length + 1) at_
    | '[' :: _ => flowTree? (at_.1.length + 1) at_
    | _ => (scalar? false at_).map fun s => (value s.text s.quoted, s.after)
  pure (tree, ← nextLine? after)

mutual

/-- What stands in the block form at a place: a mapping when a name with a colon stands
there. -/
def blockTree? : Nat → Cursor → Option (Tree × Cursor)
  | 0, _ => none
  | n + 1, at_ =>
    match (scalar? false at_).bind fun s => colon? false s.after with
    | some _ => (blockEntries? n at_.2 at_).map fun (es, c) => (mapping es, c)
    | none => lineTree? at_

/-- The entries of a mapping that stands in a column, and the next place to the left
of it. -/
def blockEntries? : Nat → Nat → Cursor → Option (List (String × Tree) × Cursor)
  | 0, _, _ => none
  | n + 1, column, at_ => do
    let key ← scalar? false at_
    let c ← colon? false key.after
    let (cs, col) := skipBlanks c.1 c.2
    let (tree, next) ←
      if atLineEnd cs then
        let inner := skip true false false cs col
        if atEnd inner || inner.2 ≤ column then some (empty, inner) else blockTree? n inner
      else lineTree? (cs, col)
    if atEnd next || next.2 < column then some ([(key.text, tree)], next)
    else if next.2 = column then do
      let (es, c) ← blockEntries? n column next
      some ((key.text, tree) :: es, c)
    else none

end

/-- Skips a mark that starts the document. -/
def skipStart (at_ : Cursor) : Cursor :=
  match Pieces.dropHead? "---".toList at_.1 with
  | some rest => if at_.2 == 0 && atBlank rest then skip true false false rest 3 else at_
  | none => at_

/-- Nothing follows a document but a mark that ends it. -/
def endsAt (at_ : Cursor) : Bool :=
  match Pieces.dropHead? "...".toList at_.1 with
  | some rest => (skip true false false rest 3).1.isEmpty
  | none => at_.1.isEmpty

/-- Reads a settings text. -/
def read? (text : String) : Option Tree :=
  let cs := match text.toList with
    | '\ufeff' :: rest => rest
    | rest => rest
  let start := skipStart (skip false false false cs 0)
  if atEnd start then if endsAt start then some empty else none
  else do
    let (tree, next) ← blockTree? (cs.length + 1) start
    if endsAt next then some tree else none

end Tree
end MappingAudit
