import CilBind.Code.Instruction

/-!
# `CilBind.Tree.Packet`: expression trees over a method body

A packet is one instruction together with the packets whose values it takes,
in left-to-right operand order. A `dup` packet takes nothing and records the
packet whose value it copies. Packets are numbered by their instruction's place
in the body; the roots are the packets left on the stack at the end, bottom to
top, and the last root is the tail expression.

A subtree is listed children first, in operand order, then the packet itself:
the order in which its instructions rebuild its value. The text of a forest has
one line per packet, indented two spaces per level below its root.
-/

set_option autoImplicit false

namespace CilBind

/-- One instruction and the packets that produced its operands. -/
structure Packet where
  instr : Instruction
  children : List Nat
  dupOf : Option Nat
  hasValue : Bool

/-- The packets of one simulated run, and the roots left on the stack. -/
structure Forest where
  packets : Array Packet
  roots : List Nat

namespace Forest

/-- The packet with number `id`. -/
def get? (f : Forest) (id : Nat) : Option Packet := f.packets[id]?

/-- The children of a packet; none for a number with no packet. -/
def childrenOf (f : Forest) (id : Nat) : List Nat :=
  match f.get? id with
  | some p => p.children
  | none => []

/-- The tail expression. -/
def top? (f : Forest) : Option Nat := f.roots.getLast?

/-- The subtree of `id`, children first; `fuel` bounds the depth. -/
def postOrderFuel (f : Forest) : Nat → Nat → List Nat
  | 0, _ => []
  | fuel + 1, id => (f.childrenOf id).flatMap (postOrderFuel f fuel) ++ [id]

/-- The packets of the subtree of `id`, operands before their consumer. A child
has a smaller number than its parent, so the depth is below the packet count. -/
def postOrder (f : Forest) (id : Nat) : List Nat := f.postOrderFuel (f.packets.size + 1) id

/-- The lines of the subtree of `id` at `depth`; `fuel` bounds the depth. -/
def linesFuel (f : Forest) : Nat → Nat → Nat → List String
  | 0, _, _ => []
  | fuel + 1, depth, id =>
    let text := match f.get? id with
      | some p => p.instr.text
      | none => ""
    (String.ofList (List.replicate (2 * depth) ' ') ++ text ++ "\n") ::
      (f.childrenOf id).flatMap (linesFuel f fuel (depth + 1))

/-- Every root's subtree, one line per packet. -/
def text (f : Forest) : String :=
  String.join (f.roots.flatMap (f.linesFuel (f.packets.size + 1) 0))

end Forest

end CilBind
