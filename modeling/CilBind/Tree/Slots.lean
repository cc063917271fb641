import CilBind.Tree.Packet

/-!
# `CilBind.Tree.Slots`: which packets touch each local slot

For every local slot, the packets that load it, store it or take its address,
in packet order. Slots are listed in increasing order.
-/

set_option autoImplicit false

namespace CilBind

/-- The packets touching each local slot, by increasing slot. -/
structure SlotIndex where
  slots : List (Nat × List Nat)

namespace SlotIndex

/-- Adds packet `id` to slot `slot`, keeping the slots in increasing order. -/
def add (slot id : Nat) : List (Nat × List Nat) → List (Nat × List Nat)
  | [] => [(slot, [id])]
  | (s, ids) :: rest =>
    if slot = s then (s, ids ++ [id]) :: rest
    else if slot < s then (slot, [id]) :: (s, ids) :: rest
    else (s, ids) :: add slot id rest

/-- The index of a forest. -/
def ofForest (f : Forest) : SlotIndex :=
  ⟨(List.range f.packets.size).foldl (fun acc id =>
    match f.get? id with
    | some p =>
      match p.instr.localIndex? with
      | some slot => add slot id acc
      | none => acc
    | none => acc) []⟩

/-- The packets that touch `slot`. -/
def refs (x : SlotIndex) (slot : Nat) : List Nat :=
  match x.slots.find? (fun e => e.1 = slot) with
  | some (_, ids) => ids
  | none => []

/-- How many packets touch `slot`. -/
def refCount (x : SlotIndex) (slot : Nat) : Nat := (x.refs slot).length

/-- How many slots are touched. -/
def slotCount (x : SlotIndex) : Nat := x.slots.length

end SlotIndex

end CilBind
