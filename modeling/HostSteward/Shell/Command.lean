/-!
# The language of shell scripts

A script is a list of commands. A command is made of words, and a word of pieces that stand
for themselves or for something that is only known when the script runs: a parameter, the
output of commands, or a number to be computed.
-/

namespace HostSteward.Shell

/-- What happens about a missing parameter, or to one that is not missing. -/
inductive Remedy where
  | use
  | assign
  | fail
  /-- The word replaces a parameter that is not missing. -/
  | replace
deriving DecidableEq

inductive RedirectKind where
  | input
  | output
  | append
  | duplicate
deriving DecidableEq

mutual

inductive Piece where
  | text (isQuoted : Bool) (cs : List Char)
  | home
  | parameter (isQuoted : Bool) (name : String) (use : Use)
  | output (isQuoted : Bool) (body : Command)
  | number (isQuoted : Bool) (expression : List Piece)

inductive Use where
  | value
  | length
  /-- An empty parameter may count as missing, too. -/
  | remedied (emptyToo : Bool) (remedy : Remedy) (word : List Piece)

/-- A redirection is a number, a kind and the word for what is connected with the number. -/
inductive Command where
  | nothing
  | simple (assignments : List (String × List Piece)) (words : List (List Piece))
      (redirections : List (Nat × RedirectKind × List Piece))
  | sequence (first second : Command)
  | background (c : Command)
  | both (first second : Command)
  | either (first second : Command)
  | negated (c : Command)
  | pipeline (parts : List Command)
  | separate (c : Command)
  | redirected (c : Command) (redirections : List (Nat × RedirectKind × List Piece))
  | conditional (condition yes no : Command)
  | loop (isNegated : Bool) (condition body : Command)
  /-- Without words the loop is over the arguments. -/
  | forEach (name : String) (words : Option (List (List Piece))) (body : Command)
  | choice (word : List Piece) (cases : List (List (List Piece) × Command))
  | function (name : String) (body : Command)

end

abbrev Word := List Piece

abbrev Redirection := Nat × RedirectKind × Word

instance : Inhabited Command := ⟨.nothing⟩

end HostSteward.Shell
