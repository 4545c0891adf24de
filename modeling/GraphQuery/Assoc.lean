/-! # Association lists in insertion order

Every mapping of the library whose order can be seen is a list of pairs with distinct keys.
Writing to a key that is present keeps its place and replaces its value; a new key goes last.
`get?_put_self` and `get?_put_of_ne` say what a write does to every look-up.
-/

namespace GraphQuery.Assoc

variable {Key Item : Type} [DecidableEq Key]

/-- The item stored under a key, the first one if a key is repeated. -/
def get? (key : Key) : List (Key × Item) → Option Item
  | [] => none
  | (k, item) :: rest => if k = key then some item else get? key rest

/-- Replaces the item of a key in its place, or adds the pair at the end. -/
def put (key : Key) (item : Item) : List (Key × Item) → List (Key × Item)
  | [] => [(key, item)]
  | (k, old) :: rest => if k = key then (k, item) :: rest else (k, old) :: put key item rest

/-- Drops every pair with the given key. -/
def erase (key : Key) (entries : List (Key × Item)) : List (Key × Item) :=
  entries.filter fun entry => entry.1 ≠ key

/-- Whether some pair has the given key. -/
def contains (key : Key) (entries : List (Key × Item)) : Bool :=
  (get? key entries).isSome

/-- Writes pairs one after another: a repeated key keeps its first place and its last item. -/
def ofPairs (pairs : List (Key × Item)) : List (Key × Item) :=
  pairs.foldl (fun entries pair => put pair.1 pair.2 entries) []

theorem get?_cons (key k : Key) (item : Item) (rest : List (Key × Item)) :
    get? key ((k, item) :: rest) = if k = key then some item else get? key rest := rfl

@[simp] theorem get?_put_self (key : Key) (item : Item) (entries : List (Key × Item)) :
    get? key (put key item entries) = some item := by
  induction entries with
  | nil => simp [put, get?]
  | cons entry rest ih =>
    obtain ⟨k, old⟩ := entry
    by_cases same : k = key <;> simp [put, get?, same, ih]

theorem get?_put_of_ne {key other : Key} (different : other ≠ key) (item : Item)
    (entries : List (Key × Item)) : get? other (put key item entries) = get? other entries := by
  induction entries with
  | nil => simp [put, get?, different.symm]
  | cons entry rest ih =>
    obtain ⟨k, old⟩ := entry
    by_cases same : k = key
    · subst same
      simp [put, get?, different.symm]
    · simp [put, get?, same, ih]

end GraphQuery.Assoc
