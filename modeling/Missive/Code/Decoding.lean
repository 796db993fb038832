import Missive.Code.Format
import Missive.Code.LittleEndian

/-!
# Reading code units

A reader takes bytes from the front of the input and keeps the offset it has reached, so that a
fault can be placed.  Counts are held against the bytes that are left before anything is read
for them.  Units nest only to a fixed depth, which also makes the readers end on every input.
-/

namespace Missive.Decoding

/-- The input that is left and the offset at which it starts. -/
structure Cursor where
  rest : List UInt8
  offset : Nat
  deriving Repr

/-- A reader of one part of a file. -/
abbrev Reader := StateT Cursor (Except FormatError)

/-- The offset that has been reached. -/
def position : Reader Nat := do return (← get).offset

/-- Fails unless `size` bytes are left; only so many are looked at. -/
def require (size : Nat) (part : String) : Reader Unit := do
  let cursor ← get
  let available := (cursor.rest.take size).length
  if available < size then throw (.truncated cursor.offset (size - available) part)

/-- The next `size` bytes. -/
def take (size : Nat) (part : String) : Reader (List UInt8) := do
  require size part
  let cursor ← get
  set { rest := cursor.rest.drop size, offset := cursor.offset + size : Cursor }
  return cursor.rest.take size

/-- The next byte. -/
def byte (part : String) : Reader UInt8 := do
  let taken ← take 1 part
  return taken.headD 0

/-- The number in the next `width` bytes. -/
def word (width : Nat) (part : String) : Reader Nat := do
  let taken ← take width part
  return LittleEndian.value taken

/-- A count of items that take at least `itemSize` bytes each.  It is refused at once when the
input that is left cannot hold so many. -/
def count (itemSize : Nat) (part : String) : Reader Nat := do
  let size ← word 4 part
  require (size * itemSize) part
  return size

/-- The same reader several times. -/
def many {α : Type} (reader : Reader α) : (times : Nat) → Reader (List α)
  | 0 => return []
  | times + 1 => do
    let first ← reader
    let others ← many reader times
    return first :: others

/-- A counted text. -/
def text (part : String) : Reader String := do
  let size ← count 1 part
  let offset ← position
  let taken ← take size part
  match String.fromUTF8? ⟨taken.toArray⟩ with
  | some value => return value
  | none => throw (.invalidText offset)

/-- A counted list of texts. -/
def texts (part : String) : Reader (List String) := do
  let size ← count 4 part
  many (text part) size

/-- An instruction. -/
def instruction : Reader Instruction := do
  let offset ← position
  let code ← byte "opcode"
  match Opcode.ofByte? code with
  | none => throw (.unknownOpcode code offset)
  | some opcode =>
    let operand ← word 4 "operand"
    return ⟨opcode, (UInt32.ofNat operand).toInt32⟩

/-- A constant, given how the units and the class descriptors nested in it are read. -/
def constant (block : Reader CodeUnit) (descriptor : Reader ClassDescriptor) :
    Reader Constant := do
  let offset ← position
  let tag ← byte "constant tag"
  match Format.Tag.ofByte? tag with
  | some .int => return .int (UInt64.ofNat (← word 8 "integer constant")).toInt64
  | some .float => return .float ⟨UInt64.ofNat (← word 8 "float constant")⟩
  | some .string => return .string (← text "string constant")
  | some .bool => return .bool ((← byte "boolean constant") != 0)
  | some .nil => return .nil
  | some .block => return .block (← block)
  | some .classDescriptor => return .classDescriptor (← descriptor)
  | none => throw (.unknownConstantTag tag offset)

/-- A unit, given how its constants are read. -/
def unitOf (constant : Reader Constant) : Reader CodeUnit := do
  let codeSize ← count 5 "instruction count"
  let code ← many instruction codeSize
  let poolSize ← count 1 "constant count"
  let constants ← many constant poolSize
  return ⟨code.toArray, constants⟩

/-- A method, given how its body is read. -/
def method (body : Reader CodeUnit) : Reader MethodDescriptor := do
  let selector ← text "selector"
  let parameters ← texts "parameter list"
  let body ← body
  return ⟨selector, parameters, body⟩

/-- A counted list of methods, given how their bodies are read.  A method takes at least four
counts of four bytes. -/
def methodTable (body : Reader CodeUnit) : Reader (List MethodDescriptor) := do
  let size ← count 16 "method table"
  many (method body) size

/-- The superclass of a class; any byte but zero tells that there is one. -/
def superclass : Reader (Option String) := do
  let flag ← byte "superclass flag"
  if flag = 0 then return none else return some (← text "superclass name")

/-- A class descriptor, given how the bodies of its methods are read. -/
def descriptorOf (body : Reader CodeUnit) : Reader ClassDescriptor := do
  let name ← text "class name"
  let parent ← superclass
  let fields ← texts "field list"
  let classVars ← texts "class variable list"
  let methods ← methodTable body
  let classMethods ← methodTable body
  return ⟨name, parent, fields, classVars, methods, classMethods⟩

/-- Reports that the input nests too deeply here. -/
def tooDeep {α : Type} : Reader α := do
  throw (.nestingTooDeep (← position))

mutual

/-- A unit that may nest `levels - 1` levels deep; with no level left it is refused. -/
def codeUnit : (levels : Nat) → Reader CodeUnit
  | 0 => tooDeep
  | levels + 1 => unitOf (constant (codeUnit levels) (classDescriptor levels))

/-- A class descriptor, one level above the bodies of its methods. -/
def classDescriptor : (levels : Nat) → Reader ClassDescriptor
  | 0 => tooDeep
  | levels + 1 => descriptorOf (codeUnit levels)

end

/-- The magic word, a supported version and no flags. -/
def header : Reader Unit := do
  let magic ← take 4 "magic"
  if magic ≠ Format.magic then throw (.invalidMagic magic)
  let version ← word 4 "version"
  if version ≠ Format.version then throw (.unsupportedVersion version)
  let flags ← word 4 "flags"
  if flags ≠ 0 then throw (.unsupportedFlags flags)

/-- A whole file: the header, one unit, and nothing after it. -/
def file : Reader CodeUnit := do
  header
  let result ← codeUnit (Format.maxNesting + 1)
  let cursor ← get
  if cursor.rest.length ≠ 0 then throw (.trailingBytes cursor.offset cursor.rest.length)
  return result

end Missive.Decoding

namespace Missive

/-- The unit in a file, once the file is read to its end and the unit has passed verification. -/
def CodeUnit.decode (input : List UInt8) : Except FormatError CodeUnit := do
  let (codeUnit, _) ← Decoding.file.run ⟨input, 0⟩
  codeUnit.verify.mapError .invalid
  return codeUnit

end Missive
