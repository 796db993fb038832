import Missive.Code.CodeUnit
import Missive.Numeric.Decimal
import Missive.Program.Literal
import Missive.Text.Quoted

/-!
# Listings of code units

A listing shows every instruction of a unit with what its operand refers to.  The body of a
block is listed where the block is created, and the methods of a class where the class is
defined.

A listing is first a list of lines that say what they show, and only then a text, so that one
can ask which instructions a listing contains.
-/

namespace Missive

namespace Listing

/-- What one line of a listing shows. -/
inductive Content where
  /-- The rule above and below the heading of a unit. -/
  | rule
  /-- The title of a unit. -/
  | title (name : String)
  /-- How many instructions and constants a unit has. -/
  | sizes (instructions constants : Nat)
  /-- The mark above an instruction that is the target of a jump. -/
  | targetMark
  /-- An instruction with its position and an optional comment. -/
  | instruction (ip : Nat) (isTarget : Bool) (shown : Instruction) (comment : Option String)
  /-- The heading of a class. -/
  | classHeading (name superclass : String)
  /-- The fields of a class. -/
  | fields (names : List String)
  /-- The class variables of a class. -/
  | classVars (names : List String)
  /-- The empty line after a unit. -/
  | blank

/-- A line of a listing with its level of indentation. -/
structure Line where
  indent : Nat
  content : Content

/-- Pads a text on the right with spaces. -/
def padRight (width : Nat) (text : String) : String :=
  text ++ String.ofList (List.replicate (width - text.length) ' ')

/-- Pads a text on the left with spaces. -/
def padLeft (width : Nat) (text : String) : String :=
  String.ofList (List.replicate (width - text.length) ' ') ++ text

/-- An integer in at least four characters, filled with zeros after the sign. -/
def fourDigits (n : Int) : String :=
  let digits := Nat.toDigits 10 n.natAbs
  let sign := if n < 0 then ['-'] else []
  String.ofList (sign ++ List.replicate (4 - sign.length - digits.length) '0' ++ digits)

/-- The rule of a heading: forty double lines. -/
def ruleText : String := String.ofList (List.replicate 40 '═')

/-- The mark above the target of a jump. -/
def targetMarkText : String :=
  String.ofList (List.replicate 6 ' ' ++ '┌' :: List.replicate 34 '─')

/-- A line without its indentation and its end. -/
def Content.text : Content → String
  | .rule => ruleText
  | .title name => " " ++ name
  | .sizes instructions constants =>
    " " ++ toString instructions ++ " instructions, " ++ toString constants ++ " constants"
  | .targetMark => targetMarkText
  | .instruction ip isTarget shown comment =>
    let marker := if isTarget then "► " else "  "
    let body :=
      match comment with
      | some comment => padRight 22 shown.text ++ "; " ++ comment
      | none => shown.text
    fourDigits ip ++ " " ++ marker ++ body
  | .classHeading name superclass => "class " ++ name ++ " < " ++ superclass
  | .fields names => "  fields: " ++ " ".intercalate names
  | .classVars names => "  class vars: " ++ " ".intercalate names
  | .blank => ""

/-- A whole line.  The line after a unit is empty at every level. -/
def Line.text (line : Line) : String :=
  let indentation :=
    match line.content with
    | .blank => ""
    | _ => String.ofList (List.replicate (2 * line.indent) ' ')
  indentation ++ line.content.text ++ "\n"

/-- The text of a listing. -/
def text (lines : List Line) : String := String.join (lines.map Line.text)

/-! ## Comments -/

/-- The entry that an operand selects from a pool; a negative operand selects none. -/
def operandEntry (constants : List Constant) (operand : Int32) : Option Constant :=
  if operand < 0 then none else constants[operand.toInt.toNat]?

/-- A constant as a comment shows it. -/
def constantText : Constant → String
  | .int value => toString value.toInt
  | .float value => value.text .literal
  | .string value => Text.quoted value
  | .bool value => Literal.boolText value
  | .nil => "nil"
  | .block body => "[ <" ++ toString body.code.size ++ " instructions> ]"
  | .classDescriptor descriptor => "<class " ++ descriptor.name ++ ">"

/-- The comment that tells what the operand of the instruction at `ip` refers to. -/
def comment (constants : List Constant) (ip : Nat) (instruction : Instruction) : Option String :=
  let operand := instruction.operand
  let (index, count) := Instruction.unpack operand
  match instruction.opcode.operandKind with
  | .constant => (operandEntry constants operand).map constantText
  | .name =>
    match operandEntry constants operand with
    | some (.string name) => some name
    | _ => none
  | .send =>
    match constants[index]? with
    | some (.string name) => some ("#" ++ name)
    | _ => none
  | .outer => some ("slot " ++ toString index ++ " up " ++ toString count)
  | .target =>
    let direction := if operand.toInt ≤ ip then "↑" else "↓"
    some (direction ++ " (→ " ++ fourDigits operand.toInt ++ ")")
  | .classDescriptor =>
    match operandEntry constants operand with
    | some (.classDescriptor descriptor) => some descriptor.name
    | _ => none
  | .none | .slot | .field | .closure | .count => none

/-- Some jump of the code leads to the position. -/
def isJumpTarget (code : Array Instruction) (ip : Nat) : Bool :=
  code.any fun instruction =>
    instruction.opcode.operandKind == .target && instruction.operand.toInt == (ip : Int)

/-! ## Units -/

/-- The lines of a nested unit or class for a count of parameters and a level. -/
abbrev NestedLines := Nat → Nat → List Line

/-- The entry of the pool that an instruction lists below itself, with the count to list it
with. -/
def nestedEntry? (nested : List (Opcode × NestedLines)) (instruction : Instruction) :
    Option (Nat × NestedLines) :=
  let (index, count) := Instruction.unpack instruction.operand
  let selected :=
    match instruction.opcode with
    | .makeClosure => nested[index]?
    | .defineClass =>
      if instruction.operand < 0 then none else nested[instruction.operand.toInt.toNat]?
    | _ => none
  match selected with
  | some (opcode, lines) => if opcode = instruction.opcode then some (count, lines) else none
  | none => none

/-- The lines of the instruction at `ip` and of what it lists below itself. -/
def instructionLines (code : Array Instruction) (constants : List Constant)
    (nested : List (Opcode × NestedLines)) (indent ip : Nat) (instruction : Instruction) :
    List Line :=
  let isTarget := isJumpTarget code ip
  let mark := if isTarget then [⟨indent, .targetMark⟩] else []
  let shown := ⟨indent, .instruction ip isTarget instruction (comment constants ip instruction)⟩
  let below :=
    match nestedEntry? nested instruction with
    | some (count, lines) => lines count (indent + 2)
    | none => []
  mark ++ shown :: below

mutual

/-- The lines of a unit under a title. -/
def unitLines (title : String) (indent : Nat) : CodeUnit → List Line
  | ⟨code, constants⟩ =>
    let heading : List Line :=
      [⟨indent, .rule⟩, ⟨indent, .title title⟩, ⟨indent, .sizes code.size constants.length⟩,
       ⟨indent, .rule⟩]
    let nested := nestedLines constants
    let body := code.toList.zipIdx.flatMap fun (instruction, ip) =>
      instructionLines code constants nested indent ip instruction
    heading ++ body ++ [⟨indent, .blank⟩]

/-- How the constants of a pool are listed below the instructions that use them, each with the
operation that lists it. -/
def nestedLines : List Constant → List (Opcode × NestedLines)
  | [] => []
  | constant :: rest => constantLines constant :: nestedLines rest

/-- How a constant is listed below an instruction that uses it. -/
def constantLines : Constant → Opcode × NestedLines
  | .block body =>
    (.makeClosure, fun count indent => unitLines ("block/" ++ toString count) indent body)
  | .classDescriptor ⟨name, superclass, fields, classVars, methods, classMethods⟩ =>
    (.defineClass, fun _ indent =>
      let heading : List Line := [⟨indent, .classHeading name (superclass.getD "nil")⟩]
      let fieldLines : List Line := if fields.isEmpty then [] else [⟨indent, .fields fields⟩]
      let classVarLines : List Line :=
        if classVars.isEmpty then [] else [⟨indent, .classVars classVars⟩]
      heading ++ fieldLines ++ classVarLines ++ methodLines name (indent + 1) methods
        ++ methodLines (name ++ " class") (indent + 1) classMethods)
  | _ => (.pushConstant, fun _ _ => [])

/-- The lines of the methods on one side of a class. -/
def methodLines (owner : String) (indent : Nat) : List MethodDescriptor → List Line
  | [] => []
  | ⟨selector, _, body⟩ :: rest =>
    unitLines (owner ++ ">>" ++ selector) indent body ++ methodLines owner indent rest

end

end Listing

namespace CodeUnit

/-- The lines of the listing of a whole program. -/
def listing (codeUnit : CodeUnit) : List Listing.Line := Listing.unitLines "main" 0 codeUnit

/-- The text of the listing of a whole program. -/
def listingText (codeUnit : CodeUnit) : String := Listing.text codeUnit.listing

end CodeUnit

end Missive
