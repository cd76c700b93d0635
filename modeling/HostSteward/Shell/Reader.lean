import HostSteward.Shell.Command

/-!
# Reading shell scripts

A script is read line by line, where a command may go on over several lines, and a line is run
before the next one is read. The readers take a number that bounds how deep they go, for which
the length of the script is a measure. Texts in the script and parts that are cut off parameters
are not followed.
-/

namespace HostSteward.Shell

inductive Unread where
  | wrong
  /-- It may be a script, of which nothing is known here. -/
  | unknown
deriving DecidableEq

abbrev Reader := StateT (List Char) (Except Unread)

namespace Reader

def wrong {α : Type} : Reader α := throw .wrong

def unknown {α : Type} : Reader α := throw .unknown

/-! ## Characters -/

def isNameStart (c : Char) : Bool := c.isAlpha || c = '_'

def isNameChar (c : Char) : Bool := c.isAlphanum || c = '_'

def isName (cs : List Char) : Bool := cs.head?.any isNameStart && cs.all isNameChar

/-- Parameters that are named by a single character besides digits. -/
def isSpecialName (c : Char) : Bool := ['@', '*', '#', '?', '-', '$', '!'].contains c

def endsWord (c : Char) : Bool := [' ', '\t', '\n', ';', '&', '|', '<', '>', '(', ')'].contains c

/-- Goes over blanks, joined lines and comments, and over the ends of lines on request. -/
def skip (overLines isComment : Bool) : List Char → List Char
  | [] => []
  | '\\' :: '\n' :: rest =>
    if isComment && !overLines then '\n' :: rest else skip overLines false rest
  | '\n' :: rest => if overLines then skip overLines false rest else '\n' :: rest
  | c :: rest =>
    if isComment ∨ c = '#' then skip overLines true rest
    else if c = ' ' ∨ c = '\t' then skip overLines false rest
    else c :: rest

def skipBlanks (cs : List Char) : List Char := skip false false cs

def skipNewlines : Reader Unit := modify (skip true false)

inductive Operator where
  | newline
  | and
  | or
  | pipe
  | stop
  | endOfCase
  | background
  | opening
  | closing
deriving DecidableEq

def operator? : List Char → Option (Operator × List Char)
  | '\n' :: rest => some (.newline, rest)
  | '&' :: '&' :: rest => some (.and, rest)
  | '|' :: '|' :: rest => some (.or, rest)
  | ';' :: ';' :: rest => some (.endOfCase, rest)
  | '&' :: rest => some (.background, rest)
  | '|' :: rest => some (.pipe, rest)
  | ';' :: rest => some (.stop, rest)
  | '(' :: rest => some (.opening, rest)
  | ')' :: rest => some (.closing, rest)
  | _ => none

def reserved : List String :=
  ["!", "\x7b", "\x7d", "case", "do", "done", "elif", "else", "esac", "fi", "for", "if", "in", "then",
    "until", "while"]

def closers : List String := ["\x7d", "do", "done", "elif", "else", "esac", "fi", "then"]

def keyword? (cs : List Char) : Option (String × List Char) :=
  let word := String.ofList (cs.takeWhile (!endsWord ·))
  if reserved.contains word then some (word, cs.dropWhile (!endsWord ·)) else none

def isOver (cs : List Char) : Bool :=
  cs.isEmpty || match operator? cs, keyword? cs with
  | some (op, _), _ => op = .closing || op = .endOfCase
  | none, some (word, _) => closers.contains word
  | none, none => false

def redirection? (cs : List Char) : Option (Nat × Char × List Char) :=
  match cs with
  | '<' :: rest => some (0, '<', rest)
  | '>' :: rest => some (1, '>', rest)
  | d :: '<' :: rest => if d.isDigit then some (d.toNat - 48, '<', rest) else none
  | d :: '>' :: rest => if d.isDigit then some (d.toNat - 48, '>', rest) else none
  | _ => none

def nextOperator? : Reader (Option (Operator × List Char)) :=
  return operator? (skipBlanks (← get))

def expectOperator (op : Operator) : Reader Unit := do
  match ← nextOperator? with
  | some (found, rest) => if found = op then set rest else wrong
  | none => wrong

def skipKeyword (word : String) : Reader Bool := do
  match keyword? (skipBlanks (← get)) with
  | some (found, rest) =>
    if found = word then do set rest; return true else return false
  | none => return false

def expectKeyword (word : String) : Reader Unit := do
  if ← skipKeyword word then return () else wrong

def assignment? (cs : List Char) : Option (String × List Char) :=
  match cs.dropWhile isNameChar with
  | '=' :: rest =>
    if isName (cs.takeWhile isNameChar) then some (String.ofList (cs.takeWhile isNameChar), rest)
    else none
  | _ => none

/-! ## Words -/

/-- Where pieces stand, which says where they end and what quotes them. -/
inductive Place where
  | word
  | quotes
  | braces (isQuoted : Bool)
  | sum (depth : Nat)
deriving DecidableEq

namespace Place

def isQuoted : Place → Bool
  | .word | .braces false => false
  | .quotes | .braces true | .sum _ => true

def end? (p : Place) (cs : List Char) : Option (List Char) :=
  match p, cs with
  | .word, [] => some []
  | .word, c :: _ => if endsWord c then some cs else none
  | .quotes, '"' :: rest => some rest
  | .braces _, '}' :: rest => some rest
  | .sum 0, ')' :: ')' :: rest => some rest
  | _, _ => none

def escapes (p : Place) (c : Char) : Bool :=
  match p with
  | .word | .braces false => true
  | .quotes => ['$', '\x60', '"', '\\'].contains c
  | .braces true => ['$', '\x60', '"', '\\', '}'].contains c
  | .sum _ => ['$', '\x60', '\\'].contains c

def after (p : Place) (c : Char) : Place :=
  match p with
  | .sum depth => if c = '(' then .sum (depth + 1) else if c = ')' then .sum (depth - 1) else p
  | p => p

end Place

/-- What stands between back quotes, and the rest. A backslash takes the meaning of a few
characters away. -/
def backQuoted? (isQuoted : Bool) : List Char → Option (List Char × List Char)
  | [] => none
  | '\x60' :: rest => some ([], rest)
  | '\\' :: c :: rest =>
    let cs := if ['\\', '\x60', '$'].contains c || (isQuoted && c = '"') then [c] else ['\\', c]
    (backQuoted? isQuoted rest).map fun (text, rest) => (cs ++ text, rest)
  | c :: rest => (backQuoted? isQuoted rest).map fun (text, rest) => (c :: text, rest)

def parameterName? (cs : List Char) : Option (String × List Char) :=
  match cs with
  | [] => none
  | c :: rest =>
    if isNameStart c then
      some (String.ofList (cs.takeWhile isNameChar), cs.dropWhile isNameChar)
    else if c.isDigit then
      some (String.ofList (cs.takeWhile Char.isDigit), cs.dropWhile Char.isDigit)
    else if isSpecialName c then some (String.singleton c, rest)
    else none

def remedy? : Char → Option Remedy
  | '-' => some .use
  | '=' => some .assign
  | '?' => some .fail
  | '+' => some .replace
  | _ => none

/-- What follows the name of a parameter in braces, but for the word and the brace. -/
def use? (cs : List Char) : Option ((Word → Use) × List Char) :=
  match cs with
  | ':' :: c :: rest => (remedy? c).map fun r => (.remedied true r, rest)
  | c :: rest => (remedy? c).map fun r => (.remedied false r, rest)
  | [] => none

/-- Quoted pieces make a word even if there is nothing in them, unless they stand for all
arguments. -/
def quotation (inner : Word) : Word :=
  match inner with
  | [.parameter _ "@" .value] => inner
  | inner => .text true [] :: inner

/-- The name that a word is, if nothing in it is quoted. -/
def plainName? (w : Word) : Option String := do
  let parts ← w.mapM fun
    | .text false cs => some cs
    | _ => none
  if isName parts.flatten then some (String.ofList parts.flatten) else none

/-! ## Commands -/

mutual

def pieces : Nat → Place → Reader Word
  | 0, _ => wrong
  | fuel + 1, p => do
    let cs ← get
    match p.end? cs with
    | some rest =>
      set rest
      return []
    | none =>
      match cs with
      | [] => wrong
      | '\\' :: '\n' :: rest =>
        set rest
        pieces fuel p
      | '\\' :: c :: rest =>
        set rest
        let text : Piece := .text true (if p.escapes c then [c] else ['\\', c])
        return text :: (← pieces fuel p)
      | '\x60' :: rest =>
        match backQuoted? p.isQuoted rest with
        | none => wrong
        | some (text, rest) =>
          set text
          let body ← commands fuel true
          if !(skipBlanks (← get)).isEmpty then wrong
          set rest
          return .output p.isQuoted body :: (← pieces fuel p)
      | '$' :: rest =>
        set rest
        let first ← dollar fuel p.isQuoted
        return first :: (← pieces fuel p)
      | c :: rest =>
        if c = '\'' ∧ !p.isQuoted then
          match rest.dropWhile (· ≠ '\'') with
          | [] => wrong
          | _ :: after =>
            set after
            return .text true (rest.takeWhile (· ≠ '\'')) :: (← pieces fuel p)
        else if c = '"' ∧ (p = .word ∨ p = .braces true ∨ p = .braces false) then
          set rest
          let inner ← pieces fuel .quotes
          return quotation inner ++ (← pieces fuel p)
        else
          set rest
          return .text p.isQuoted [c] :: (← pieces fuel (p.after c))

def dollar : Nat → Bool → Reader Piece
  | 0, _ => wrong
  | fuel + 1, isQuoted => do
    match ← get with
    | '(' :: '(' :: rest =>
      set rest
      return .number isQuoted (← pieces fuel (.sum 0))
    | '(' :: rest =>
      set rest
      let body ← commands fuel true
      expectOperator .closing
      return .output isQuoted body
    | '{' :: rest =>
      set rest
      inBraces fuel isQuoted
    | c :: rest =>
      if isNameStart c then
        set ((c :: rest).dropWhile isNameChar)
        return .parameter isQuoted (String.ofList ((c :: rest).takeWhile isNameChar)) .value
      else if c.isDigit || isSpecialName c then
        set rest
        return .parameter isQuoted (String.singleton c) .value
      else return .text isQuoted ['$']
    | [] => return .text isQuoted ['$']

def inBraces : Nat → Bool → Reader Piece
  | 0, _ => wrong
  | fuel + 1, isQuoted => do
    match ← get with
    | '#' :: '}' :: rest =>
      set rest
      return .parameter isQuoted "#" .value
    | '#' :: rest =>
      match parameterName? rest with
      | some (name, '}' :: rest) =>
        set rest
        return .parameter isQuoted name .length
      | _ => unknown
    | cs =>
      match parameterName? cs with
      | some (name, '}' :: rest) =>
        set rest
        return .parameter isQuoted name .value
      | some (name, cs) =>
        match use? cs with
        | some (use, rest) =>
          set rest
          return .parameter isQuoted name (use (← pieces fuel (.braces isQuoted)))
        | none => unknown
      | none => unknown

def word : Nat → Reader Word
  | 0 => wrong
  | fuel + 1 => do
    match skipBlanks (← get) with
    | '~' :: rest =>
      if (Place.end? .word rest).isNone ∧ rest.head? ≠ some '/' then unknown
      set rest
      return .home :: (← pieces fuel .word)
    | cs =>
      set cs
      let w ← pieces fuel .word
      if w.isEmpty then wrong
      return w

/-- A list of commands inside another command. -/
def commands : Nat → Bool → Reader Command
  | 0, _ => wrong
  | fuel + 1, mayBeOver => do
    skipNewlines
    if mayBeOver && isOver (← get) then return .nothing
    let first ← chain fuel
    match ← nextOperator? with
    | some (.stop, rest) =>
      set rest
      return .sequence first (← commands fuel true)
    | some (.background, rest) =>
      set rest
      return .sequence (.background first) (← commands fuel true)
    | some (.newline, _) => return .sequence first (← commands fuel true)
    | _ => return first

def chain : Nat → Reader Command
  | 0 => wrong
  | fuel + 1 => do
    let first ← pipeline fuel
    links fuel first

def links : Nat → Command → Reader Command
  | 0, _ => wrong
  | fuel + 1, left => do
    match ← nextOperator? with
    | some (.and, rest) =>
      set rest
      skipNewlines
      let right ← pipeline fuel
      links fuel (.both left right)
    | some (.or, rest) =>
      set rest
      skipNewlines
      let right ← pipeline fuel
      links fuel (.either left right)
    | _ => return left

def pipeline : Nat → Reader Command
  | 0 => wrong
  | fuel + 1 => do
    let isNegated ← skipKeyword "!"
    let first ← command fuel
    let others ← pipes fuel
    let whole := if others.isEmpty then first else .pipeline (first :: others)
    return if isNegated then .negated whole else whole

def pipes : Nat → Reader (List Command)
  | 0 => wrong
  | fuel + 1 => do
    match ← nextOperator? with
    | some (.pipe, rest) =>
      set rest
      skipNewlines
      let first ← command fuel
      return first :: (← pipes fuel)
    | _ => return []

def command : Nat → Reader Command
  | 0 => wrong
  | fuel + 1 => do
    let cs := skipBlanks (← get)
    match operator? cs, keyword? cs with
    | some (.opening, rest), _ =>
      set rest
      let body ← commands fuel false
      expectOperator .closing
      redirected fuel (.separate body)
    | some _, _ => wrong
    | none, some (word, rest) =>
      set rest
      match word with
      | "\x7b" =>
        let body ← commands fuel false
        expectKeyword "\x7d"
        redirected fuel body
      | "if" => redirected fuel (← conditional fuel)
      | "while" => redirected fuel (← loop fuel false)
      | "until" => redirected fuel (← loop fuel true)
      | "for" => redirected fuel (← forEach fuel)
      | "case" =>
        let subject ← Reader.word fuel
        skipNewlines
        expectKeyword "in"
        redirected fuel (.choice subject (← cases fuel))
      | _ => wrong
    | none, none => simple fuel [] [] []

def redirected : Nat → Command → Reader Command
  | 0, _ => wrong
  | fuel + 1, c => do
    match ← redirections fuel with
    | [] => return c
    | rs => return .redirected c rs

def redirections : Nat → Reader (List Redirection)
  | 0 => wrong
  | fuel + 1 => do
    match redirection? (skipBlanks (← get)) with
    | none => return []
    | some (descriptor, sign, rest) =>
      set rest
      let first ← redirection fuel descriptor sign
      return first :: (← redirections fuel)

/-- A redirection after the first character of its sign. -/
def redirection : Nat → Nat → Char → Reader Redirection
  | 0, _, _ => wrong
  | fuel + 1, descriptor, sign => do
    match sign, ← get with
    | '<', '<' :: _ | '<', '>' :: _ => unknown
    | _, '&' :: rest =>
      set rest
      return (descriptor, .duplicate, ← word fuel)
    | '>', '>' :: rest =>
      set rest
      return (descriptor, .append, ← word fuel)
    | '>', '|' :: rest =>
      set rest
      return (descriptor, .output, ← word fuel)
    | '>', _ => return (descriptor, .output, ← word fuel)
    | _, _ => return (descriptor, .input, ← word fuel)

/-- A simple command after some of it, or the definition of a function. -/
def simple : Nat → List (String × Word) → List Word → List Redirection → Reader Command
  | 0, _, _, _ => wrong
  | fuel + 1, assignments, words, redirections => do
    let cs := skipBlanks (← get)
    match redirection? cs with
    | some (descriptor, sign, rest) =>
      set rest
      let r ← redirection fuel descriptor sign
      simple fuel assignments words (redirections ++ [r])
    | none =>
      if cs.isEmpty || (operator? cs).isSome then
        match operator? cs, assignments, words, redirections with
        | some (.opening, rest), [], [w], [] =>
          set rest
          expectOperator .closing
          match plainName? w with
          | none => wrong
          | some name =>
            skipNewlines
            return .function name (← command fuel)
        | some (.opening, _), _, _, _ => wrong
        | _, [], [], [] => wrong
        | _, _, _, _ =>
          set cs
          return .simple assignments words redirections
      else
        match if words.isEmpty then assignment? cs else none with
        | some (name, rest) =>
          set rest
          if rest.head? = some '~' then unknown
          let value ← pieces fuel .word
          simple fuel (assignments ++ [(name, value)]) words redirections
        | none =>
          let w ← word fuel
          simple fuel assignments (words ++ [w]) redirections

/-- What follows a condition is there, up to the end of the command. -/
def conditional : Nat → Reader Command
  | 0 => wrong
  | fuel + 1 => do
    let condition ← commands fuel false
    expectKeyword "then"
    let yes ← commands fuel false
    if ← skipKeyword "elif" then return .conditional condition yes (← conditional fuel)
    if ← skipKeyword "else" then
      let no ← commands fuel false
      expectKeyword "fi"
      return .conditional condition yes no
    expectKeyword "fi"
    return .conditional condition yes .nothing

def loop : Nat → Bool → Reader Command
  | 0, _ => wrong
  | fuel + 1, isNegated => do
    let condition ← commands fuel false
    expectKeyword "do"
    let body ← commands fuel false
    expectKeyword "done"
    return .loop isNegated condition body

def forEach : Nat → Reader Command
  | 0 => wrong
  | fuel + 1 => do
    let cs := skipBlanks (← get)
    let name := cs.takeWhile (!endsWord ·)
    if !isName name then wrong
    set (cs.dropWhile (!endsWord ·))
    skipNewlines
    let words ←
      if ← skipKeyword "in" then do
        let ws ← wordList fuel
        match ← nextOperator? with
        | some (.stop, rest) => set rest
        | some (.newline, _) => pure ()
        | _ => wrong
        pure (some ws)
      else do
        match ← nextOperator? with
        | some (.stop, rest) => set rest
        | _ => pure ()
        pure none
    skipNewlines
    expectKeyword "do"
    let body ← commands fuel false
    expectKeyword "done"
    return .forEach (String.ofList name) words body

def wordList : Nat → Reader (List Word)
  | 0 => wrong
  | fuel + 1 => do
    let cs := skipBlanks (← get)
    if cs.isEmpty || cs.head?.any endsWord then
      set cs
      return []
    let first ← word fuel
    return first :: (← wordList fuel)

def cases : Nat → Reader (List (List Word × Command))
  | 0 => wrong
  | fuel + 1 => do
    skipNewlines
    if ← skipKeyword "esac" then return []
    match ← nextOperator? with
    | some (.opening, rest) => set rest
    | _ => pure ()
    let patterns ← alternatives fuel
    expectOperator .closing
    let body ← commands fuel true
    skipNewlines
    if ← skipKeyword "esac" then return [(patterns, body)]
    expectOperator .endOfCase
    return (patterns, body) :: (← cases fuel)

def alternatives : Nat → Reader (List Word)
  | 0 => wrong
  | fuel + 1 => do
    let first ← word fuel
    match ← nextOperator? with
    | some (.pipe, rest) =>
      set rest
      return first :: (← alternatives fuel)
    | _ => return [first]

end

/-! ## Lines -/

def line : Nat → Reader Command
  | 0 => wrong
  | fuel + 1 => do
    let first ← chain fuel
    let (separator, isBackground) ← match ← nextOperator? with
      | some (.stop, rest) => pure (some rest, false)
      | some (.background, rest) => pure (some rest, true)
      | some (.newline, _) => pure (none, false)
      | none => if (skipBlanks (← get)).isEmpty then pure (none, false) else wrong
      | _ => wrong
    let first := if isBackground then .background first else first
    match separator with
    | none => return first
    | some rest =>
      set rest
      match operator? (skipBlanks rest) with
      | some (.newline, _) => return first
      | _ => if (skipBlanks rest).isEmpty then return first else return .sequence first (← line fuel)

end Reader

def nextLine (cs : List Char) : Except Unread (Option (Command × List Char)) := do
  let cs := Reader.skip true false cs
  if cs.isEmpty then return none
  let (c, rest) ← (Reader.line (16 * (cs.length + 2))).run cs
  return some (c, match Reader.operator? (Reader.skipBlanks rest) with
    | some (.newline, rest) => rest
    | _ => rest)

end HostSteward.Shell
