import GraphQuery.Decimal.Reading
import GraphQuery.Value.Basic

/-! # Conditions throughout values

A condition may be asked of a value and of everything in it, the keys of maps included. One such
condition is that integers are not too long: none is written with more digits than can be read.
-/

namespace GraphQuery.Value

mutual

/-- Whether a condition holds for a value and all its parts, at any depth that lists, tuples, sets and maps
reach. -/
def throughout (p : Value → Bool) : Value → Bool
  | .list items => p (.list items) && itemsThroughout p items
  | .tuple items => p (.tuple items) && itemsThroughout p items
  | .set frozen items => p (.set frozen items) && itemsThroughout p items
  | .map entries => p (.map entries) && entriesThroughout p entries
  | other => p other

/-- Whether a condition holds for several values and all their parts. -/
def itemsThroughout (p : Value → Bool) : List Value → Bool
  | [] => true
  | item :: rest => throughout p item && itemsThroughout p rest

/-- Whether a condition holds for the keys and items of entries and all their parts. -/
def entriesThroughout (p : Value → Bool) : List (Value × Value) → Bool
  | [] => true
  | (key, item) :: rest => throughout p key && throughout p item && entriesThroughout p rest

end

/-- Whether a value is an integer of more digits than can be written. -/
def isTooLong : Value → Bool
  | .int i => Nat.pow 10 Decimal.digitLimit ≤ i.natAbs
  | _ => false

/-- Whether every integer in a value can be written. -/
def isWritable (v : Value) : Bool :=
  v.throughout fun part => !part.isTooLong

theorem itemsThroughout_eq_all (p : Value → Bool) (items : List Value) :
    itemsThroughout p items = items.all (throughout p) := by
  induction items with
  | nil => rfl
  | cons item rest ih => rw [itemsThroughout, ih, List.all_cons]

theorem entriesThroughout_eq_all (p : Value → Bool) (entries : List (Value × Value)) :
    entriesThroughout p entries = entries.all fun entry => throughout p entry.1 && throughout p entry.2 := by
  induction entries with
  | nil => rfl
  | cons entry rest ih => rw [entriesThroughout, ih, List.all_cons]

@[simp] theorem isWritable_null : isWritable .null = true := rfl

@[simp] theorem isWritable_bool (b : Bool) : isWritable (.bool b) = true := rfl

@[simp] theorem isWritable_text (s : String) : isWritable (.text s) = true := rfl

theorem isWritable_list (items : List Value) : isWritable (.list items) = items.all isWritable :=
  (Bool.true_and _).trans (itemsThroughout_eq_all _ items)

theorem isWritable_tuple (items : List Value) : isWritable (.tuple items) = items.all isWritable :=
  (Bool.true_and _).trans (itemsThroughout_eq_all _ items)

theorem isWritable_set (frozen : Bool) (items : List Value) :
    isWritable (.set frozen items) = items.all isWritable :=
  (Bool.true_and _).trans (itemsThroughout_eq_all _ items)

theorem isWritable_map (entries : List (Value × Value)) :
    isWritable (.map entries) = entries.all fun entry => entry.1.isWritable && entry.2.isWritable :=
  (Bool.true_and _).trans (entriesThroughout_eq_all _ entries)

end GraphQuery.Value
