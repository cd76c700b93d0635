import HostSteward.Text.LetterCase

/-!
# Small letters

A text is lowercased letter by letter. Two letters are special: the dotted capital I keeps
its dot as a mark of its own, and a sigma at the end of a word gets its final form.
-/

namespace HostSteward.Text

/-- The small letters of a character that is no sigma. -/
def smallLetters (c : Char) : List Char :=
  if c.toNat < 0x80 then [c.toLower]
  else if c = '\u0130' then ['i', '\u0307']
  else
    match capitalRuns.findSome? (·.small? c.toNat) with
    | some n => [Char.ofNat n]
    | none => [c]

theorem smallLetters_of_ascii {c : Char} (h : c.toNat < 0x80) : smallLetters c = [c.toLower] := by
  simp only [smallLetters, h, if_true]

def nextIsCased (cs : List Char) : Bool := (cs.dropWhile isCaseIgnorable).head?.any isCased

/-- The small sigma between what is `before` it, last character first, and what is after. -/
def smallSigma (before after : List Char) : Char :=
  if nextIsCased before && !nextIsCased after then 'ς' else 'σ'

def lowercaseFrom (before : List Char) : List Char → List Char
  | [] => []
  | c :: after =>
    let small := if c = 'Σ' then [smallSigma before after] else smallLetters c
    small ++ lowercaseFrom (c :: before) after

def lowercase (s : String) : String := String.ofList (lowercaseFrom [] s.toList)

end HostSteward.Text
