import HostSteward.Json

/-!
# Writing JSON text

`Json.write` gives the compact form on one line.
-/

namespace HostSteward.Json

def escapeChar (c : Char) : List Char :=
  match c with
  | '"' => ['\\', '"']
  | '\\' => ['\\', '\\']
  | '\n' => ['\\', 'n']
  | '\r' => ['\\', 'r']
  | '\t' => ['\\', 't']
  | c =>
    if c.toNat < 0x20 then
      ['\\', 'u', '0', '0', Nat.digitChar (c.toNat / 16), Nat.digitChar (c.toNat % 16)]
    else [c]

def quote (s : String) : String :=
  String.ofList ('"' :: s.toList.flatMap escapeChar ++ ['"'])

def writeInt (n : Int) : String :=
  if n < 0 then "-" ++ Numeral.text n.natAbs else Numeral.text n.natAbs

/-- A real number keeps a fraction, so that it is not taken for an integer. -/
def writeReal (x : Binary64) : String :=
  match x with
  | .finite _ _ _ =>
    let text := x.text
    if text.toList.contains '.' then text else text ++ ".0"
  | _ => "null"

mutual

def write : Json → String
  | .null => "null"
  | .bool b => if b then "true" else "false"
  | .int n => writeInt n
  | .real x => writeReal x
  | .string s => quote s
  | .array items => "[" ++ String.intercalate "," (writeItems items) ++ "]"
  | .object members =>
    "\x7b" ++ String.intercalate "," (writeMembers members) ++ "\x7d"

def writeItems : List Json → List String
  | [] => []
  | j :: rest => write j :: writeItems rest

def writeMembers : List (String × Json) → List String
  | [] => []
  | (name, j) :: rest => (quote name ++ ":" ++ write j) :: writeMembers rest

end

end HostSteward.Json
