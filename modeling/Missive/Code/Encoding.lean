import Missive.Code.Format
import Missive.Code.LittleEndian

/-!
# Writing code units

The bytes of a unit in the file format.  Writing fails only where a list is too long for its
count to fit in four bytes; it does not verify the unit.
-/

namespace Missive.Encoding

open LittleEndian

/-- The bytes of the content written, or the list that was too long. -/
abbrev Encoded := Except FormatError (List UInt8)

/-- The count of a list. -/
def count (part : String) (size : Nat) : Encoded :=
  if size < 0x100000000 then pure (bytes 4 size) else throw (.tooLarge part size)

/-- A text: the count of its UTF-8 bytes and the bytes. -/
def text (value : String) : Encoded := do
  let size ← count "string" value.utf8ByteSize
  pure (size ++ value.toUTF8.toList)

/-- Items one after the other. -/
def sequence {α : Type} (item : α → Encoded) : List α → Encoded
  | [] => pure []
  | a :: rest => do
    let first ← item a
    let others ← sequence item rest
    pure (first ++ others)

/-- A counted list of texts. -/
def texts (part : String) (values : List String) : Encoded := do
  let size ← count part values.length
  let content ← sequence text values
  pure (size ++ content)

/-- An instruction: the byte of its operation and its operand. -/
def instruction (i : Instruction) : List UInt8 :=
  i.opcode.byte :: bytes 4 i.operand.toUInt32.toNat

/-- The superclass of a class: a byte that tells whether there is one, and its name. -/
def superclass : Option String → Encoded
  | none => pure [0]
  | some name => do
    let content ← text name
    pure (1 :: content)

mutual

/-- A unit: its instructions and its constants, each as a counted list. -/
def codeUnit : CodeUnit → Encoded
  | ⟨code, constants⟩ => do
    let codeSize ← count "instruction list" code.size
    let poolSize ← count "constant pool" constants.length
    let pool ← pool constants
    pure (codeSize ++ code.toList.flatMap instruction ++ poolSize ++ pool)

/-- The constants of a pool, one after the other. -/
def pool : List Constant → Encoded
  | [] => pure []
  | c :: rest => do
    let first ← constant c
    let others ← pool rest
    pure (first ++ others)

/-- A constant: its tag and its content. -/
def constant : Constant → Encoded
  | .int value => pure (Format.Tag.int.byte :: bytes 8 value.toUInt64.toNat)
  | .float value => pure (Format.Tag.float.byte :: bytes 8 value.bits.toNat)
  | .string value => do
    let content ← text value
    pure (Format.Tag.string.byte :: content)
  | .bool value => pure [Format.Tag.bool.byte, if value then 1 else 0]
  | .nil => pure [Format.Tag.nil.byte]
  | .block body => do
    let content ← codeUnit body
    pure (Format.Tag.block.byte :: content)
  | .classDescriptor ⟨name, parent, fields, classVars, methods, classMethods⟩ => do
    let nameBytes ← text name
    let parentBytes ← superclass parent
    let fieldBytes ← texts "field list" fields
    let classVarBytes ← texts "class variable list" classVars
    let methodCount ← count "method table" methods.length
    let methodBytes ← methodTable methods
    let classMethodCount ← count "method table" classMethods.length
    let classMethodBytes ← methodTable classMethods
    pure (Format.Tag.classDescriptor.byte :: (nameBytes ++ parentBytes ++ fieldBytes
      ++ classVarBytes ++ methodCount ++ methodBytes ++ classMethodCount ++ classMethodBytes))

/-- Methods one after the other: selector, parameters and body of each. -/
def methodTable : List MethodDescriptor → Encoded
  | [] => pure []
  | ⟨selector, parameters, body⟩ :: rest => do
    let selectorBytes ← text selector
    let parameterBytes ← texts "parameter list" parameters
    let bodyBytes ← codeUnit body
    let others ← methodTable rest
    pure (selectorBytes ++ parameterBytes ++ bodyBytes ++ others)

end

/-- What a file starts with: the magic word, the version and no flags. -/
def header : List UInt8 := Format.magic ++ bytes 4 Format.version ++ bytes 4 0

end Missive.Encoding

namespace Missive

/-- The bytes of a file that holds the unit. -/
def CodeUnit.encode (codeUnit : CodeUnit) : Except FormatError (List UInt8) := do
  let content ← Encoding.codeUnit codeUnit
  pure (Encoding.header ++ content)

end Missive
