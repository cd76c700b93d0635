import HostSteward.Json.Reader

/-!
# Strings and keys in TOML

A string is written in the plainest of four styles that can hold it, a key bare if it can
be. The readers accept every style, whatever style the writer would have chosen.
-/

namespace HostSteward.Toml

/-- Control characters; tab and line feed are judged by the caller. -/
def isControl (c : Char) : Bool := c.toNat < 0x20 || c.toNat = 0x7F

inductive StringStyle where
  | basic
  | literal
  | multilineBasic
  | multilineLiteral
deriving DecidableEq

/-- The length of the longest run of a character, `current` of which were just seen. -/
def longestRun (q : Char) (current best : Nat) : List Char → Nat
  | [] => max current best
  | c :: rest =>
    if c = q then longestRun q (current + 1) best rest
    else longestRun q 0 (max current best) rest

/-- Quotes in a row are counted in a byte. -/
def runLimit : Nat := 255

/-- Whether a string has so many equal quotes in a row that it cannot be written as a value.
Keys are not counted in. -/
def overruns (cs : List Char) : Bool :=
  runLimit < longestRun '"' 0 0 cs || runLimit < longestRun '\'' 0 0 cs

/-- The first style that fits, going from the plainest to the one that can hold anything. -/
def styleOf (cs : List Char) : StringStyle :=
  let codes := cs.any fun c => isControl c && c ≠ '\t' && c ≠ '\n'
  let escape := cs.any (· = '\\')
  let newline := cs.any (· = '\n')
  let double := longestRun '"' 0 0 cs
  let single := longestRun '\'' 0 0 cs
  if !codes && !escape && !newline && double = 0 then .basic
  else if !codes && !newline && single = 0 then .literal
  else if !codes && !escape && double ≤ 2 then .multilineBasic
  else if !codes && single ≤ 2 then .multilineLiteral
  else if newline then .multilineBasic
  else .basic

def hexUpper (n : Nat) : Char := (Nat.digitChar n).toUpper

def escapeChar (multiline : Bool) (c : Char) : List Char :=
  if c = '\x08' then ['\\', 'b']
  else if c = '\t' then ['\\', 't']
  else if c = '\n' then if multiline then ['\n'] else ['\\', 'n']
  else if c = '\x0c' then ['\\', 'f']
  else if c = '\r' then ['\\', 'r']
  else if c = '\\' then ['\\', '\\']
  else if isControl c then
    ['\\', 'u', '0', '0', hexUpper (c.toNat / 16), hexUpper (c.toNat % 16)]
  else [c]

/-- The inside of a basic string. Of the quotes in a row every one after `allowed` bare ones
is escaped; `bare` counts the bare ones just written. -/
def escapeBody (multiline : Bool) (allowed bare : Nat) : List Char → List Char
  | [] => []
  | c :: rest =>
    if c = '"' then
      if bare < allowed then '"' :: escapeBody multiline allowed (bare + 1) rest
      else '\\' :: '"' :: escapeBody multiline allowed 0 rest
    else escapeChar multiline c ++ escapeBody multiline allowed 0 rest

def writeBasic (cs : List Char) : List Char := '"' :: escapeBody false 0 0 cs ++ ['"']

/-- The line feed after opening quotes is not part of the string. -/
def leadingBreak (cs : List Char) : List Char := if cs.any (· = '\n') then ['\n'] else []

def writeString (cs : List Char) : List Char :=
  match styleOf cs with
  | .basic => writeBasic cs
  | .literal => '\'' :: cs ++ ['\'']
  | .multilineBasic =>
    ['"', '"', '"'] ++ leadingBreak cs ++ escapeBody true 2 0 cs ++ ['"', '"', '"']
  | .multilineLiteral => ['\'', '\'', '\''] ++ leadingBreak cs ++ cs ++ ['\'', '\'', '\'']

def isBareKeyChar (c : Char) : Bool := c.isAlphanum || c = '_' || c = '-'

def writeKey (cs : List Char) : List Char :=
  let control := cs.any fun c => isControl c && c ≠ '\t'
  if !cs.isEmpty && cs.all isBareKeyChar then cs
  else if !control && !cs.any (fun c => c = '\\' || c = '"') then writeBasic cs
  else if !control && !cs.any (· = '\'') then '\'' :: cs ++ ['\'']
  else writeBasic cs

/-! ## Reading -/

/-- Characters that may stand for themselves inside a string of one line. -/
def isPlain (c : Char) : Bool := !isControl c || c = '\t'

def isWhite (c : Char) : Bool := c = ' ' || c = '\t'

def skipWhite (cs : List Char) : List Char := cs.dropWhile isWhite

/-- The rest after a line break, which is a line feed or a carriage return and a line feed. -/
def newline? : List Char → Option (List Char)
  | '\n' :: rest => some rest
  | '\r' :: '\n' :: rest => some rest
  | _ => none

/-- A character from its code point, surrogates excluded. -/
def charOfCode? (n : Nat) : Option Char :=
  if n < 0xD800 ∨ (0xDFFF < n ∧ n < 0x110000) then some (Char.ofNat n) else none

def escapeLetter? : Char → Option Char
  | 'b' => some '\x08'
  | 't' => some '\t'
  | 'n' => some '\n'
  | 'f' => some '\x0c'
  | 'r' => some '\r'
  | '"' => some '"'
  | '\\' => some '\\'
  | _ => none

def readEscape? : List Char → Option (Char × List Char)
  | 'u' :: a :: b :: c :: d :: rest => do
    return (← charOfCode? (← Json.Reader.hex? [a, b, c, d]), rest)
  | 'U' :: a :: b :: c :: d :: e :: f :: g :: h :: rest => do
    return (← charOfCode? (← Json.Reader.hex? [a, b, c, d, e, f, g, h]), rest)
  | c :: rest => (escapeLetter? c).map (·, rest)
  | [] => none

/-- The rest of a one-line basic string after its opening quote. -/
def readBasic? (acc : List Char) : Nat → List Char → Option (List Char × List Char)
  | 0, _ => none
  | _ + 1, [] => none
  | fuel + 1, c :: rest =>
    if c = '"' then some (acc.reverse, rest)
    else if c = '\\' then
      match readEscape? rest with
      | none => none
      | some (c, rest) => readBasic? (c :: acc) fuel rest
    else if isPlain c then readBasic? (c :: acc) fuel rest
    else none

def readLiteral? (acc : List Char) : List Char → Option (List Char × List Char)
  | [] => none
  | c :: rest =>
    if c = '\'' then some (acc.reverse, rest)
    else if isPlain c then readLiteral? (c :: acc) rest
    else none

/-- Up to two quotes may stand before the three that close a multi-line string; all leading
quotes of `cs` are counted. -/
def closing? (q : Char) (acc : List Char) (cs : List Char) : Option (List Char × List Char) :=
  let run := (cs.takeWhile (· = q)).length
  if 3 ≤ run then
    let extra := min (run - 3) 2
    some (acc.reverse ++ List.replicate extra q, cs.drop (extra + 3))
  else none

def skipBlankLines : List Char → List Char
  | [] => []
  | c :: rest =>
    if c = ' ' ∨ c = '\t' ∨ c = '\n' then skipBlankLines rest
    else if c = '\r' ∧ rest.head? = some '\n' then skipBlankLines rest
    else c :: rest

/-- The rest of a multi-line basic string after its opening quotes and line break. -/
def readMultilineBasic? (acc : List Char) : Nat → List Char → Option (List Char × List Char)
  | 0, _ => none
  | _ + 1, [] => none
  | fuel + 1, c :: rest =>
    if c = '"' then
      match closing? '"' acc (c :: rest) with
      | some r => some r
      | none => readMultilineBasic? ('"' :: acc) fuel rest
    else if c = '\\' then
      match newline? (skipWhite rest) with
      | some rest => readMultilineBasic? acc fuel (skipBlankLines rest)
      | none =>
        match readEscape? rest with
        | none => none
        | some (c, rest) => readMultilineBasic? (c :: acc) fuel rest
    else
      match newline? (c :: rest) with
      | some rest => readMultilineBasic? ('\n' :: acc) fuel rest
      | none => if isPlain c then readMultilineBasic? (c :: acc) fuel rest else none

def readMultilineLiteral? (acc : List Char) : Nat → List Char → Option (List Char × List Char)
  | 0, _ => none
  | _ + 1, [] => none
  | fuel + 1, c :: rest =>
    if c = '\'' then
      match closing? '\'' acc (c :: rest) with
      | some r => some r
      | none => readMultilineLiteral? ('\'' :: acc) fuel rest
    else
      match newline? (c :: rest) with
      | some rest => readMultilineLiteral? ('\n' :: acc) fuel rest
      | none => if isPlain c then readMultilineLiteral? (c :: acc) fuel rest else none

def dropBreak (cs : List Char) : List Char := (newline? cs).getD cs

def readString? (cs : List Char) : Option (List Char × List Char) :=
  match cs with
  | '"' :: '"' :: '"' :: rest => readMultilineBasic? [] (rest.length + 1) (dropBreak rest)
  | '\'' :: '\'' :: '\'' :: rest => readMultilineLiteral? [] (rest.length + 1) (dropBreak rest)
  | '"' :: rest => readBasic? [] (rest.length + 1) rest
  | '\'' :: rest => readLiteral? [] rest
  | _ => none

/-- One part of a key: bare or a string of one line. -/
def readSimpleKey? (cs : List Char) : Option (List Char × List Char) :=
  match cs with
  | '"' :: rest => readBasic? [] (rest.length + 1) rest
  | '\'' :: rest => readLiteral? [] rest
  | cs =>
    if (cs.takeWhile isBareKeyChar).isEmpty then none
    else some (cs.takeWhile isBareKeyChar, cs.dropWhile isBareKeyChar)

def readKey? (acc : List String) : Nat → List Char → Option (List String × List Char)
  | 0, _ => none
  | fuel + 1, cs =>
    match readSimpleKey? (skipWhite cs) with
    | none => none
    | some (part, rest) =>
      let parts := String.ofList part :: acc
      match skipWhite rest with
      | '.' :: rest => readKey? parts fuel rest
      | rest => some (parts.reverse, rest)

end HostSteward.Toml
