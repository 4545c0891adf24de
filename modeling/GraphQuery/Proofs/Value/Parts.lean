import GraphQuery.Value.Basic
import Mathlib.Data.List.Forall2

/-! # Parts and keys at any depth

The parts of a value are the items of a map, a list or a tuple, and parts may have parts again.
`Value.AllKeys` says something about the keys of every map that is reached in this way; what belongs
to a set, to a key or to a record is not reached. Relations that allow one part to be exchanged allow
all parts to be, whatever they are parts of.
-/

namespace GraphQuery

/-! ## Exchanging parts -/

section Exchange

variable {Part Whole : Type} {related : Whole → Whole → Prop} {r : Part → Part → Prop}
  (wrap : List Part → Whole) (reflexive : ∀ whole, related whole whole)
  (transitive : ∀ first second third, related first second → related second third → related first third)
  (exchange : ∀ before after part other, r part other →
    related (wrap (before ++ part :: after)) (wrap (before ++ other :: after)))
include reflexive transitive exchange

private theorem exchange_behind {parts others : List Part} (same : List.Forall₂ r parts others)
    (before : List Part) : related (wrap (before ++ parts)) (wrap (before ++ others)) := by
  induction same generalizing before with
  | nil => exact reflexive _
  | @cons part other parts others first _ ih =>
    have rest := ih (before ++ [other])
    simp only [List.append_assoc, List.singleton_append] at rest
    exact transitive _ _ _ (exchange before parts part other first) rest

/-- What may be exchanged one part at a time may be exchanged in all parts. -/
theorem exchange_forall₂ {parts others : List Part} (same : List.Forall₂ r parts others) :
    related (wrap parts) (wrap others) :=
  exchange_behind wrap reflexive transitive exchange same []

theorem exchange_map {f : Part → Part} {parts : List Part} (same : ∀ part ∈ parts, r (f part) part) :
    related (wrap (parts.map f)) (wrap parts) :=
  exchange_forall₂ wrap reflexive transitive exchange
    (List.forall₂_map_left_iff.mpr (List.forall₂_same.mpr same))

end Exchange

namespace Value

/-- The keys of a map; no other value has keys. -/
def keys : Value → List Value
  | .map entries => entries.map Prod.fst
  | _ => []

/-- The items of a map, a list or a tuple; no other value has parts. -/
def parts : Value → List Value
  | .map entries => entries.map Prod.snd
  | .list items => items
  | .tuple items => items
  | _ => []

theorem sizeOf_lt_of_mem_parts {v part : Value} (member : part ∈ v.parts) : sizeOf part < sizeOf v := by
  cases v with
  | map entries =>
    obtain ⟨⟨key, item⟩, among, rfl⟩ := List.mem_map.mp member
    have smaller := List.sizeOf_lt_of_mem among
    simp only [Prod.mk.sizeOf_spec, Value.map.sizeOf_spec] at smaller ⊢
    omega
  | list items =>
    have smaller : sizeOf part < sizeOf items := List.sizeOf_lt_of_mem member
    simp only [Value.list.sizeOf_spec]
    omega
  | tuple items =>
    have smaller : sizeOf part < sizeOf items := List.sizeOf_lt_of_mem member
    simp only [Value.tuple.sizeOf_spec]
    omega
  | _ => cases member

/-- What holds of a value if it holds of its parts holds of every value. -/
theorem induction_parts {P : Value → Prop} (step : ∀ v, (∀ part ∈ v.parts, P part) → P v) (v : Value) :
    P v :=
  step v fun part _ => induction_parts step part
termination_by sizeOf v
decreasing_by exact sizeOf_lt_of_mem_parts ‹_›

/-- Whether the keys of a value, and those of everything that is reached from it, are as required. -/
inductive AllKeys (Good : List Value → Prop) : Value → Prop where
  | intro {v : Value} : Good v.keys → (∀ part ∈ v.parts, AllKeys Good part) → AllKeys Good v

theorem allKeys_iff {Good : List Value → Prop} {v : Value} :
    v.AllKeys Good ↔ Good v.keys ∧ ∀ part ∈ v.parts, part.AllKeys Good := by
  constructor
  · rintro ⟨good, parts⟩
    exact ⟨good, parts⟩
  · rintro ⟨good, parts⟩
    exact .intro good parts

section Parts

variable {Good : List Value → Prop}

theorem allKeys_of_parts_eq_nil {v : Value} (none : v.parts = []) : v.AllKeys Good ↔ Good v.keys := by
  rw [allKeys_iff, none]
  simp

@[simp] theorem allKeys_map {entries : List (Value × Value)} : (map entries).AllKeys Good ↔
    Good (entries.map Prod.fst) ∧ ∀ entry ∈ entries, entry.2.AllKeys Good := by
  rw [allKeys_iff, keys, parts, List.forall_mem_map]

@[simp] theorem allKeys_list {items : List Value} :
    (list items).AllKeys Good ↔ Good [] ∧ ∀ item ∈ items, item.AllKeys Good :=
  allKeys_iff

@[simp] theorem allKeys_tuple {items : List Value} :
    (tuple items).AllKeys Good ↔ Good [] ∧ ∀ item ∈ items, item.AllKeys Good :=
  allKeys_iff

@[simp] theorem allKeys_null : null.AllKeys Good ↔ Good [] :=
  allKeys_of_parts_eq_nil rfl

@[simp] theorem allKeys_int {i : Int} : (int i).AllKeys Good ↔ Good [] :=
  allKeys_of_parts_eq_nil rfl

@[simp] theorem allKeys_text {s : String} : (text s).AllKeys Good ↔ Good [] :=
  allKeys_of_parts_eq_nil rfl

end Parts

/-- Whether the keys of every map that is reached differ in what is said of them. -/
def KeysDiffer {Name : Type} (name : Value → Name) (v : Value) : Prop :=
  v.AllKeys fun keys => (keys.map name).Nodup

theorem keysDiffer_iff {Name : Type} {name : Value → Name} {v : Value} :
    v.KeysDiffer name ↔ (v.keys.map name).Nodup ∧ ∀ part ∈ v.parts, part.KeysDiffer name :=
  allKeys_iff

end Value

end GraphQuery
