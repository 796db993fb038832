import Missive.Code.Decoding
import Missive.Code.Encoding
import Missive.Code.Statistics
import Missive.CommandLine
import Missive.Compile.Lowering
import Missive.Machine.Running
import Missive.Main
import Missive.Proofs.Alike.Transcript
import Missive.Proofs.Classes.Fragments
import Missive.Proofs.Classes.Sharing
import Missive.Proofs.Classes.Variables
import Missive.Proofs.Compile.Disassembly
import Missive.Proofs.Code.Truncation
import Missive.Proofs.Compile.Nesting
import Missive.Proofs.Meaning.Correctness
import Missive.Proofs.Memory.Cycles
import Missive.Proofs.Memory.Exactness
import Missive.Proofs.Safety.Evaluation
import Missive.Proofs.Scopes.Addressing
import Missive.Proofs.Scopes.OuterOperands
import Missive.Proofs.Scopes.Parameters
import Missive.Proofs.Steps.Returns
import Missive.Proofs.Steps.Soundness
import Missive.Proofs.Compile.Slots
import Missive.Proofs.Steps.Limits
import Missive.Proofs.Compile.Decision
import Missive.Proofs.Compile.Verdict
import Missive.Proofs.Fragments.Composition
import Missive.Proofs.Classes.Representation
import Missive.Proofs.Memory.Handles
import Missive.Proofs.Object.Dictionary
import Missive.Proofs.Object.Equality
import Missive.Proofs.Protocol.Arithmetic
import Missive.Proofs.Protocol.Bounds
import Missive.Proofs.Protocol.Comparison
import Missive.Proofs.Protocol.Counting
import Missive.Proofs.Protocol.Courses
import Missive.Proofs.Protocol.Loops
import Missive.Proofs.Protocol.Understanding
import Missive.Proofs.Steps.Raising
