import GraphQuery.Sorting
import GraphQuery.Value.Nesting

/-! # The order of sets

A set keeps its items in a table that has more places than it has items, and lists them in the order of
their places. The hash of an item gives a row of places: the place that the last bits of the hash name
and up to nine behind it, then a place that is computed from the last one and from the other bits, and
so on. An item is put into the first place of its row that is free, so the order of items
that want one place depends on which of them was put in first. When three fifths of the places are
taken the items move to a larger table, in the order of their places.

Whole numbers and truth values have the same hashes in every run. A set with any other item is listed in
the order in which it was filled.
-/

namespace GraphQuery

/-- An item of a table. -/
structure HashTable.Slot where
  place : Nat
  hash : Nat
  item : Value

/-- A table. The number of its places is a power of two. -/
structure HashTable where
  /-- The last place. -/
  mask : Nat
  slots : List HashTable.Slot

namespace HashTable

def empty : HashTable := ⟨7, []⟩

/-- The hash of a value, if it is the same in every run: a word of 64 bits. The number -1 shares its
hash with -2. -/
def hash? : Value → Option Nat
  | .bool b => some b.toNat
  | .int i =>
    let size := i.natAbs % (Nat.pow 2 61 - 1)
    if 0 ≤ i || size = 0 then some size
    else if size = 1 then some (Nat.pow 2 64 - 2)
    else some (Nat.pow 2 64 - size)
  | _ => none

/-- The first free place of a row. Every step looks at one place, or at ten if the table has as many
from there on. -/
def freePlace (isTaken : Nat → Bool) (mask : Nat) : (fuel place rest : Nat) → Nat
  | 0, place, _ => place
  | fuel + 1, place, rest =>
    let behind := if place + 9 ≤ mask then 9 else 0
    match (List.range (behind + 1)).find? fun offset => !isTaken (place + offset) with
    | some offset => place + offset
    | none => freePlace isTaken mask fuel ((5 * place + 1 + rest / 32) &&& mask) (rest / 32)

/-- Puts an item into the first free place of its row. Once the bits of the hash are used up, as many
steps as there are places are enough. -/
def put (table : HashTable) (hash : Nat) (item : Value) : HashTable :=
  let isTaken (place : Nat) : Bool := table.slots.any fun slot => slot.place = place
  let place := freePlace isTaken table.mask (table.mask + 14) (hash &&& table.mask) hash
  { table with slots := ⟨place, hash, item⟩ :: table.slots }

/-- The slots in the order of their places. -/
def inOrder (table : HashTable) : List Slot :=
  stableSort (fun a b => decide (a.place ≤ b.place)) table.slots

/-- Moves the items to a table that has more than four places for each of them, or more than two for
each of very many. -/
def grown (table : HashTable) : HashTable :=
  let count := table.slots.length
  let wanted := if 50000 < count then 2 * count else 4 * count
  table.inOrder.foldl (fun larger slot => larger.put slot.hash slot.item)
    ⟨max 8 (Nat.pow 2 (wanted.log2 + 1)) - 1, []⟩

/-- Puts an item into a table that grows when it is too full. -/
def insert (table : HashTable) (item : Value) : HashTable :=
  let filled := table.put ((hash? item).getD 0) item
  if 5 * filled.slots.length < 3 * filled.mask then filled else filled.grown

/-- The items in the order in which a set lists them that was filled with them one after the other. -/
def arrange (items : List Value) : List Value :=
  if items.all fun item => (hash? item).isSome then
    (items.foldl insert empty).inOrder.map Slot.item
  else items

/-! ## No item is lost -/

/-- The items of a table, the last one that was put in first. -/
def items (table : HashTable) : List Value :=
  table.slots.map Slot.item

private theorem inOrder_perm (table : HashTable) : (table.inOrder.map Slot.item).Perm table.items :=
  (stableSort_perm _ _).map _

private theorem foldl_put_perm (slots : List Slot) (table : HashTable) :
    (slots.foldl (fun larger slot => larger.put slot.hash slot.item) table).items.Perm
      (slots.map Slot.item ++ table.items) := by
  induction slots generalizing table with
  | nil => exact .refl _
  | cons slot rest ih => exact (ih (table.put slot.hash slot.item)).trans List.perm_middle

private theorem grown_perm (table : HashTable) : table.grown.items.Perm table.items := by
  have moved := foldl_put_perm table.inOrder
  exact (moved _).trans ((List.append_nil _).symm ▸ table.inOrder_perm)

private theorem insert_perm (table : HashTable) (item : Value) :
    (table.insert item).items.Perm (item :: table.items) := by
  unfold insert
  dsimp only
  split
  · exact .refl _
  · exact grown_perm _

private theorem foldl_insert_perm (items : List Value) (table : HashTable) :
    (items.foldl insert table).items.Perm (items ++ table.items) := by
  induction items generalizing table with
  | nil => exact .refl _
  | cons item rest ih =>
    exact (ih (table.insert item)).trans (((insert_perm table item).append_left rest).trans List.perm_middle)

/-- A set lists what it was filled with. -/
theorem arrange_perm (items : List Value) : (arrange items).Perm items := by
  unfold arrange
  split
  · have all : (items.foldl insert empty).items.Perm (items ++ []) := foldl_insert_perm items empty
    rw [List.append_nil] at all
    exact (inOrder_perm _).trans all
  · exact .refl _

end HashTable

/-- Copying with sets in hash tables, where only what is nested too deeply cannot be copied. -/
def Copying.standard (levels : Nat) : Copying where
  arrange := HashTable.arrange
  refusal? v := if v.nestsWithin levels then none else some .tooDeep
  arrange_perm := HashTable.arrange_perm
  refusal?_copied v copies := by
    rwa [Value.nestsWithin_copied HashTable.arrange_perm]

end GraphQuery
