import Missive.Text.CaseContext
import Missive.Text.CaseTable

/-!
# Upper and lower case

The full case mappings of a text.  A character may become several, and a capital sigma becomes
a final sigma where it ends a word.
-/

namespace Missive.Text

/-- The run maps the code point. -/
def CaseRun.covers (run : CaseRun) (code : Nat) : Bool :=
  run.first ≤ code && code ≤ run.last && (code - run.first) % run.stride == 0

/-- The counterpart of a character by the given tables; a character without one is kept. -/
def caseForm (runs : List CaseRun) (expansions : List (Nat × List Nat)) (c : Char) : List Char :=
  match expansions.lookup c.toNat with
  | some codes => codes.map Char.ofNat
  | none =>
    match runs.find? (·.covers c.toNat) with
    | some run => [Char.ofNat (c.toNat + run.shift).toNat]
    | none => [c]

/-- The upper-case form of a text. -/
def toUpper (text : String) : String :=
  String.ofList (text.toList.flatMap (caseForm upperRuns upperExpansions))

/-- The lower-case forms of the characters of `rest`, where `before` holds the characters in
front of them, the nearest first. -/
def lowerFrom (before : List Char) : (rest : List Char) → List Char
  | [] => []
  | c :: rest =>
    let form :=
      if c = 'Σ' then
        if reachesCased before && !reachesCased rest then ['ς'] else ['σ']
      else caseForm lowerRuns lowerExpansions c
    form ++ lowerFrom (c :: before) rest

/-- The lower-case form of a text. -/
def toLower (text : String) : String :=
  String.ofList (lowerFrom [] text.toList)

end Missive.Text
