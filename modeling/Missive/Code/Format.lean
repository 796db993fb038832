import Missive.Code.Verification

/-!
# The file format of code units

The constants of the format and the faults that writing and reading can meet.

A file is the magic word, a version, a word of flags and one unit.  A unit is a counted list of
instructions (a byte and a signed word each) and a counted list of constants.  A constant is a
tag followed by its content.  All counts are words of four bytes, all numbers are little-endian,
and texts are counted sequences of UTF-8 bytes.
-/

namespace Missive

namespace Format

/-- The bytes with which a file starts. -/
def magic : List UInt8 := [0x53, 0x4D, 0x4F, 0x47]

/-- The version of the format. -/
def version : Nat := 1

/-- The greatest depth to which units and class descriptors may be nested in a file. -/
def maxNesting : Nat := 64

/-- The tags that introduce the constants. -/
inductive Tag where
  | int
  | float
  | string
  | bool
  | nil
  | block
  | classDescriptor
  deriving DecidableEq, Repr

/-- The byte of a tag. -/
def Tag.byte : Tag → UInt8
  | .int => 1
  | .float => 2
  | .string => 3
  | .bool => 4
  | .nil => 5
  | .block => 6
  | .classDescriptor => 7

/-- The tag for which a byte stands. -/
def Tag.ofByte? (b : UInt8) : Option Tag :=
  [int, float, string, bool, nil, block, classDescriptor].find? fun tag => tag.byte == b

/-- Reading the byte of a tag gives the tag back. -/
@[simp] theorem Tag.ofByte?_byte (tag : Tag) : Tag.ofByte? tag.byte = some tag := by
  cases tag <;> rfl

end Format

/-- What can go wrong in writing or reading a file. -/
inductive FormatError where
  | invalidMagic (found : List UInt8)
  | unsupportedVersion (found : Nat)
  | unsupportedFlags (flags : Nat)
  /-- The input ends before the part that is being read. -/
  | truncated (offset needed : Nat) (part : String)
  | unknownOpcode (byte : UInt8) (offset : Nat)
  | unknownConstantTag (tag : UInt8) (offset : Nat)
  | invalidText (offset : Nat)
  | trailingBytes (offset count : Nat)
  | nestingTooDeep (offset : Nat)
  /-- A list is too long for its count to be written. -/
  | tooLarge (part : String) (size : Nat)
  /-- The input was read to its end but the unit does not pass verification. -/
  | invalid (fault : VerifyError)
  deriving DecidableEq, Repr

namespace FormatError

/-- A number in hexadecimal with at least the given count of digits. -/
def hexadecimal (width n : Nat) : String :=
  let digits := Nat.toDigits 16 n
  String.ofList (List.replicate (width - digits.length) '0' ++ digits)

/-- The text that reports a fault. -/
def message : FormatError → String
  | .invalidMagic found =>
    "bad magic: expected \"SMOG\", found ["
      ++ ", ".intercalate (found.map fun b => hexadecimal 2 b.toNat) ++ "]"
  | .unsupportedVersion found =>
    "unsupported version " ++ toString found ++ " (this build reads version "
      ++ toString Format.version ++ ")"
  | .unsupportedFlags flags => "unsupported flags 0x" ++ hexadecimal 8 flags
  | .truncated offset needed part =>
    "truncated input at byte " ++ toString offset ++ ": need " ++ toString needed
      ++ " more byte(s) for " ++ part
  | .unknownOpcode byte offset =>
    "unknown opcode 0x" ++ hexadecimal 2 byte.toNat ++ " at byte " ++ toString offset
  | .unknownConstantTag tag offset =>
    "unknown constant tag " ++ toString tag.toNat ++ " at byte " ++ toString offset
  | .invalidText offset => "invalid UTF-8 in string at byte " ++ toString offset
  | .trailingBytes offset count =>
    toString count ++ " trailing byte(s) after unit ending at byte " ++ toString offset
  | .nestingTooDeep offset =>
    "nesting deeper than " ++ toString Format.maxNesting ++ " levels at byte " ++ toString offset
  | .tooLarge part size =>
    part ++ " too large to encode (" ++ toString size ++ " entries)"
  | .invalid fault => "decoded bytecode is invalid: " ++ fault.message

end FormatError

end Missive
