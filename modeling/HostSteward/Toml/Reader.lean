import HostSteward.Toml.Definition

/-!
# Reading TOML

A text is read as a list of statements, one on a line; their definitions make the document.
Arrays may go over several lines, inline tables may not.
-/

namespace HostSteward.Toml

/-- Skips white space, line breaks and comments; `comment` says whether a comment has begun. -/
def skipTrivia (comment : Bool) : List Char → List Char
  | [] => []
  | c :: rest =>
    if comment && isPlain c then skipTrivia true rest
    else if isWhite c || c = '\n' then skipTrivia false rest
    else if c = '\r' ∧ rest.head? = some '\n' then skipTrivia false rest
    else if c = '#' then skipTrivia true rest
    else c :: rest

/-- The rest after the end of a line, before which a comment may stand. -/
def lineEnd? (cs : List Char) : Option (List Char) :=
  let rest := match skipWhite cs with
    | '#' :: rest => rest.dropWhile isPlain
    | rest => rest
  if rest.isEmpty then some [] else newline? rest

/-- Brackets nest, and keys have parts, to less than this depth. -/
def maxDepth : Nat := 80

def key? (cs : List Char) : Option (List String × List Char) := do
  let (path, rest) ← readKey? [] (cs.length + 1) cs
  if path.length < maxDepth then some (path, rest) else none

mutual

def value? (depth : Nat) : Nat → List Char → Option (Node × List Char)
  | 0, _ => none
  | fuel + 1, cs =>
    match cs with
    | '"' :: _ | '\'' :: _ => (readString? cs).map fun (s, rest) => (.text (String.ofList s), rest)
    | '[' :: rest =>
      if depth ≤ 1 then none
      else (items? (depth - 1) [] fuel (skipTrivia false rest)).map fun (j, rest) => (.value j, rest)
    | '{' :: rest =>
      if depth ≤ 1 then none
      else match skipWhite rest with
        | '}' :: rest => some (.value (.object []), rest)
        | rest => (members? (depth - 1) [] fuel rest).map fun (j, rest) => (.value j, rest)
    | cs => (scalar? cs).map fun (j, rest) => (.value j, rest)

/-- The items of an array; a comma may stand after the last one. -/
def items? (depth : Nat) (acc : List Json) : Nat → List Char → Option (Json × List Char)
  | 0, _ => none
  | fuel + 1, cs =>
    match cs with
    | ']' :: rest => some (.array acc.reverse, rest)
    | cs =>
      match (value? depth fuel cs).bind fun (n, rest) => n.toJson?.map (·, rest) with
      | none => none
      | some (j, rest) =>
        match skipTrivia false rest with
        | ',' :: rest => items? depth (j :: acc) fuel (skipTrivia false rest)
        | ']' :: rest => some (.array (j :: acc).reverse, rest)
        | _ => none

def members? (depth : Nat) (acc : Members) : Nat → List Char → Option (Json × List Char)
  | 0, _ => none
  | fuel + 1, cs =>
    match key? cs with
    | none => none
    | some (path, rest) =>
      match rest with
      | '=' :: rest =>
        match value? depth fuel (skipWhite rest) with
        | none => none
        | some (n, rest) =>
          match acc.assign? n true path with
          | none => none
          | some acc =>
            match skipWhite rest with
            | ',' :: rest => members? depth acc fuel rest
            | '}' :: rest => acc.toJson?.map (·, rest)
            | _ => none
      | _ => none

end

/-- A statement up to, but without, the end of its line. -/
def statement? (cs : List Char) : Option (Statement × List Char) :=
  match cs with
  | '[' :: '[' :: rest => do
    let (path, rest) ← key? rest
    some (.element path, ← dropWord? [']', ']'] rest)
  | '[' :: rest => do
    let (path, rest) ← key? rest
    some (.table path, ← dropWord? [']'] rest)
  | cs => do
    let (path, rest) ← key? cs
    let rest ← dropWord? ['='] rest
    let (n, rest) ← value? maxDepth (2 * rest.length + 2) (skipWhite rest)
    some (.assignment path n, rest)

/-- The statements of a text. Every turn of the loop takes a character at least. -/
def statements? (acc : List Statement) : Nat → List Char → Option (List Statement)
  | 0, _ => none
  | fuel + 1, cs =>
    if cs.isEmpty then some acc.reverse
    else
      match lineEnd? cs with
      | some rest => statements? acc fuel rest
      | none => do
        let (s, rest) ← statement? (skipWhite cs)
        statements? (s :: acc) fuel (← lineEnd? rest)

/-- Reads a document; a byte order mark may stand at its beginning. -/
def read? (text : String) : Option Json := do
  let cs := match text.toList with
    | '\uFEFF' :: cs => cs
    | cs => cs
  let d ← Document.ofStatements? (← statements? [] (cs.length + 1) cs)
  d.root.toJson?

end HostSteward.Toml
