import GraphQuery.Fault.Basic
import GraphQuery.Value.Throughout

/-! # Copies of values

A copy shares nothing with its original. A set is copied into a new set that is filled with copies of
the items, one after the other, and a set lists its items in an order of its own: it depends on how the
set was filled, so that a copy may list them in another order than the original and a copy of the copy
in a third one. Equality does not see this order, but a text may. What is no value of this library can
get in the way of a copy. A `Copying` says how sets list their items and what cannot be copied.

A literal is not copied as a whole: its maps, lists and tuples are made anew, and what they lead to is
copied. So the keys of its maps are kept as they are.
-/

namespace GraphQuery

namespace Value

mutual

/-- A copy of a value, with the items of every new set in the order that they are given. -/
def copied (arrange : List Value → List Value) : Value → Value
  | .list items => .list (copiedItems arrange items)
  | .tuple items => .tuple (copiedItems arrange items)
  | .set frozen items => .set frozen (arrange (copiedItems arrange items))
  | .map entries => .map (copiedEntries arrange entries)
  | other => other

def copiedItems (arrange : List Value → List Value) : List Value → List Value
  | [] => []
  | item :: rest => copied arrange item :: copiedItems arrange rest

def copiedEntries (arrange : List Value → List Value) : List (Value × Value) → List (Value × Value)
  | [] => []
  | (key, item) :: rest => (copied arrange key, copied arrange item) :: copiedEntries arrange rest

end

mutual

/-- A literal whose maps, lists and tuples are made anew and lead to copies. -/
def copiedLiteral (arrange : List Value → List Value) : Value → Value
  | .list items => .list (copiedLiterals arrange items)
  | .tuple items => .tuple (copiedLiterals arrange items)
  | .map entries => .map (copiedLiteralEntries arrange entries)
  | other => copied arrange other

def copiedLiterals (arrange : List Value → List Value) : List Value → List Value
  | [] => []
  | item :: rest => copiedLiteral arrange item :: copiedLiterals arrange rest

def copiedLiteralEntries (arrange : List Value → List Value) :
    List (Value × Value) → List (Value × Value)
  | [] => []
  | (key, item) :: rest => (key, copiedLiteral arrange item) :: copiedLiteralEntries arrange rest

end

mutual

/-- What the maps, lists and tuples of a literal lead to, in order. -/
def leaves : Value → List Value
  | .list items => leavesOfItems items
  | .tuple items => leavesOfItems items
  | .map entries => leavesOfEntries entries
  | other => [other]

/-- What several literals lead to. -/
def leavesOfItems : List Value → List Value
  | [] => []
  | item :: rest => leaves item ++ leavesOfItems rest

def leavesOfEntries : List (Value × Value) → List Value
  | [] => []
  | (_, item) :: rest => leaves item ++ leavesOfEntries rest

end

theorem copiedItems_eq_map (arrange : List Value → List Value) (items : List Value) :
    copiedItems arrange items = items.map (copied arrange) := by
  induction items with
  | nil => rfl
  | cons item rest ih => rw [copiedItems, ih, List.map_cons]

theorem copiedEntries_eq_map (arrange : List Value → List Value) (entries : List (Value × Value)) :
    copiedEntries arrange entries =
      entries.map fun entry => (entry.1.copied arrange, entry.2.copied arrange) := by
  induction entries with
  | nil => rfl
  | cons entry rest ih => rw [copiedEntries, ih, List.map_cons]

theorem copiedLiterals_eq_map (arrange : List Value → List Value) (items : List Value) :
    copiedLiterals arrange items = items.map (copiedLiteral arrange) := by
  induction items with
  | nil => rfl
  | cons item rest ih => rw [copiedLiterals, ih, List.map_cons]

theorem copiedLiteralEntries_eq_map (arrange : List Value → List Value)
    (entries : List (Value × Value)) : copiedLiteralEntries arrange entries =
      entries.map fun entry => (entry.1, entry.2.copiedLiteral arrange) := by
  induction entries with
  | nil => rfl
  | cons entry rest ih => rw [copiedLiteralEntries, ih, List.map_cons]

theorem leavesOfItems_eq_flatMap (items : List Value) : leavesOfItems items = items.flatMap leaves := by
  induction items with
  | nil => rfl
  | cons item rest ih => rw [leavesOfItems, ih, List.flatMap_cons]

theorem leavesOfEntries_eq_flatMap (entries : List (Value × Value)) :
    leavesOfEntries entries = entries.flatMap fun entry => entry.2.leaves := by
  induction entries with
  | nil => rfl
  | cons entry rest ih => rw [leavesOfEntries, ih, List.flatMap_cons]

end Value

/-- How values are copied. -/
structure Copying where
  /-- The order in which a new set lists the items that it is filled with. -/
  arrange : List Value → List Value
  /-- What is in the way of copying a value. -/
  refusal? : Value → Option Fault
  arrange_perm : ∀ items, (arrange items).Perm items
  refusal?_copied : ∀ v, refusal? v = none → refusal? (v.copied arrange) = none

namespace Copying

variable (copying : Copying)

/-- What is in the way of making one of several literals anew. -/
def literalRefusal? (literals : List Value) : Option Fault :=
  (literals.flatMap Value.leaves).findSome? copying.refusal?

def entry (entry : Value × Value) : Except Fault (Value × Value) :=
  match copying.refusal? entry.2 with
  | some fault => .error fault
  | none => .ok (entry.1, entry.2.copied copying.arrange)

end Copying

end GraphQuery
