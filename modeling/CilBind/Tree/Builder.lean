import CilBind.Tree.Packet

/-!
# `CilBind.Tree.Builder`: rebuilding expressions by simulating the stack

The instructions of a straight-line body are replayed over an abstract stack of
packet numbers. Each instruction takes as its operands the topmost packets that
leave a value, as many as it pops; packets without a value stay where they are,
as statements. Its packet then goes on top of the stack. A `dup` takes nothing
and records the topmost value packet, which stays. A switch or an indirect call
cannot be part of an expression tree.

The packet keeps the instruction as it was after its stack counts were worked
out, so the tokens those counts looked up are resolved in it.
-/

set_option autoImplicit false

namespace CilBind

/-- Why a body cannot be rebuilt as expression trees. -/
inductive TreeError where
  /-- A switch or an indirect call. -/
  | disallowed (offset : Nat) (opcode : OpCode)
  /-- Fewer value packets on the stack than the instruction pops. -/
  | stackUnderflow (offset : Nat) (opcode : OpCode) (needed : Nat) (available : Nat)
  /-- Working out the stack counts failed. -/
  | decode (e : DecodeError)

namespace TreeError

/-- The name of the cause, as reports spell it. -/
def tag : TreeError → String
  | disallowed .. => "Disallowed"
  | stackUnderflow .. => "StackUnderflow"
  | decode _ => "Decode"

/-- The whole report; a decoding failure reports as itself. -/
def message : TreeError → String
  | disallowed o op =>
    s!"{op.name} at offset {Hex.padded 6 o} cannot be represented as an expression tree"
  | stackUnderflow o op n a =>
    s!"{op.name} at offset {Hex.padded 6 o} pops {n} values but only {a} are available"
  | decode e => e.message

end TreeError

namespace Forest

/-- Splits the `n` topmost value packets off a stack given top first: the packets
taken, top first, and the stack without them. Fewer are taken when the stack
holds fewer. -/
def takeValues (isValue : Nat → Bool) : Nat → List Nat → List Nat × List Nat
  | 0, s => ([], s)
  | _ + 1, [] => ([], [])
  | n + 1, x :: s =>
    if isValue x then
      let (t, r) := takeValues isValue n s
      (x :: t, r)
    else
      let (t, r) := takeValues isValue (n + 1) s
      (t, x :: r)

/-- Whether packet `id` leaves a value. -/
def isValue (packets : Array Packet) (id : Nat) : Bool :=
  match packets[id]? with
  | some p => p.hasValue
  | none => false

/-- The packets so far and the stack, top first, after one more instruction. -/
def step (returnsValue : Bool) (acc : Array Packet × List Nat) (i : Instruction) :
    Except TreeError (Array Packet × List Nat) := do
  let (packets, stack) := acc
  let id := packets.size
  if i.opcode.isTreeDisallowed then throw (.disallowed i.offset i.opcode)
  if i.opcode = .dup then
    match stack.find? (isValue packets) with
    | some top => pure (packets.push ⟨i, [], some top, true⟩, id :: stack)
    | none => throw (.stackUnderflow i.offset i.opcode 1 0)
  else
    let needed ← (i.stackPops returnsValue).mapError .decode
    let (taken, rest) := takeValues (isValue packets) needed stack
    if taken.length < needed then throw (.stackUnderflow i.offset i.opcode needed taken.length)
    let pushes ← i.stackPushes.mapError .decode
    pure (packets.push ⟨i.touchCounts, taken.reverse, none, pushes > 0⟩, id :: rest)

/-- The packets of a body, one per instruction, and the roots left on the stack. -/
def build (returnsValue : Bool) (is : List Instruction) : Except TreeError Forest := do
  let (packets, stack) ← is.foldlM (step returnsValue) (#[], [])
  pure ⟨packets, stack.reverse⟩

end Forest

end CilBind
