import GraphQuery.Number
import GraphQuery.Sorting

/-! # The order of map keys

Keys of one kind are ordered: numbers by size (what is not a number
keeps its place), texts by code points, dates in time, tuples by the
first item in which they differ. Keys of different kinds have no order, and a map that has such
keys cannot be sorted.
-/

namespace GraphQuery

namespace Value

mutual

/-- How two keys compare, if they do. -/
def keyOrder? : Value → Value → Option Ordering
  | .text s, other =>
    match other with
    | .text t => some (compare s t)
    | _ => none
  | .external .date s, other =>
    match other with
    | .external .date t => some (compare s t)
    | _ => none
  | .tuple items, other =>
    match other with
    | .tuple others => keyOrderAll? items others
    | _ => none
  | .null, other =>
    match other with
    | .null => some .eq
    | _ => none
  | a, b =>
    (Number.ofValue? a).bind fun x => (Number.ofValue? b).map fun y => (x.compare? y).getD .eq

/-- How two tuples of keys compare, if they do. -/
def keyOrderAll? : List Value → List Value → Option Ordering
  | [], [] => some .eq
  | [], _ :: _ => some .lt
  | _ :: _, [] => some .gt
  | a :: rest, b :: others =>
    match keyOrder? a b with
    | some .eq => keyOrderAll? rest others
    | order => order

end

/-- Whether any two of the keys compare. -/
def comparableKeys {Item : Type} : List (Value × Item) → Bool
  | [] => true
  | (key, _) :: rest =>
    rest.all (fun entry => (keyOrder? key entry.1).isSome) && comparableKeys rest

/-- Sorts entries by their keys, if any two of them compare. -/
def sortEntries? {Item : Type} (entries : List (Value × Item)) : Option (List (Value × Item)) :=
  if comparableKeys entries then
    some (stableSort (fun a b => keyOrder? a.1 b.1 != some .gt) entries)
  else none

end Value

end GraphQuery
