import CilBind.Code.Decoder
import CilBind.Code.Error
import CilBind.Code.Instruction
import CilBind.Code.OpCode
import CilBind.Code.Token
import CilBind.Code.Writer
import CilBind.Default.Composite
import CilBind.Default.Recognize
import CilBind.Float.Remainder
import CilBind.Float.Shortest
import CilBind.Float.Text
import CilBind.Meta.Decimal
import CilBind.Meta.Default
import CilBind.Meta.Member
import CilBind.Meta.TypeRef
import CilBind.Proofs.ArgumentSlots
import CilBind.Proofs.BodyCodec
import CilBind.Proofs.BuilderDepth
import CilBind.Proofs.CacheSession
import CilBind.Proofs.CodedIndexTokens
import CilBind.Proofs.CompressedForms
import CilBind.Proofs.CompressedRuns
import CilBind.Proofs.DecimalText
import CilBind.Proofs.DecimalValue
import CilBind.Proofs.DefaultVerdicts
import CilBind.Proofs.ForestNesting
import CilBind.Proofs.ForestShape
import CilBind.Proofs.ForestSubtree
import CilBind.Proofs.InterpreterStep
import CilBind.Proofs.LiteralReplay
import CilBind.Proofs.Outcome
import CilBind.Proofs.PrimitiveSignatures
import CilBind.Proofs.ReadBounds
import CilBind.Proofs.ReadProgress
import CilBind.Proofs.ReplayStack
import CilBind.Proofs.RoutineRun
import CilBind.Proofs.ShortForms
import CilBind.Proofs.SignatureRoundTrip
import CilBind.Proofs.SignatureWellFormed
import CilBind.Proofs.StackEffect
import CilBind.Proofs.Substitution
import CilBind.Proofs.SynthesisSafety
import CilBind.Proofs.TokenRows
import CilBind.Routine.Cache
import CilBind.Routine.Error
import CilBind.Routine.Factory
import CilBind.Routine.Layout
import CilBind.Routine.Op
import CilBind.Routine.Options
import CilBind.Routine.Options.Toml
import CilBind.Routine.Synthesis
import CilBind.Run.Arith
import CilBind.Run.Error
import CilBind.Run.Host
import CilBind.Run.Interpreter
import CilBind.Run.Scripted
import CilBind.Run.Value
import CilBind.Signature.Compressed
import CilBind.Signature.ElementType
import CilBind.Signature.Error
import CilBind.Signature.Reader
import CilBind.Signature.Resolve
import CilBind.Signature.Types
import CilBind.Signature.Writer
import CilBind.Text.Hex
import CilBind.Text.Printable
import CilBind.Text.Quoted
import CilBind.Toml.Datetime
import CilBind.Toml.Document
import CilBind.Toml.Error
import CilBind.Toml.Grammar
import CilBind.Toml.Scalar
import CilBind.Toml.Strings
import CilBind.Toml.Syntax
import CilBind.Toml.Token
import CilBind.Toml.Value
import CilBind.Tree.Builder
import CilBind.Tree.Packet
import CilBind.Tree.Slots
