import GraphQuery.Proofs.Decimal.Order
import GraphQuery.Proofs.Sorting
import GraphQuery.Value.Order

/-! # Sorted entries

Whether two keys compare does not depend on which of them comes first, and if they do, they compare
the other way around. So sorted entries can be sorted again, and nothing changes: this needs no
transitive order, which keys that are no numbers do not have.
-/

namespace GraphQuery.Value

private theorem keyOrder?_swap_of_numbers (a b : Option Number) :
    (a.bind fun x => b.map fun y => (x.compare? y).getD .eq).map Ordering.swap =
      b.bind fun y => a.map fun x => (y.compare? x).getD .eq := by
  cases a with
  | none => cases b <;> rfl
  | some x =>
    cases b with
    | none => rfl
    | some y =>
      have swapped := Number.compare?_swap x y
      cases order : x.compare? y <;> rw [order] at swapped <;> simp [order, ← swapped]

mutual

/-- Keys compare the other way around if they change places. -/
theorem keyOrder?_swap : (a b : Value) → (keyOrder? a b).map Ordering.swap = keyOrder? b a
  | .text s, b => by
    cases b with
    | text t => exact congrArg some Std.OrientedCmp.eq_swap.symm
    | external other _ => cases other <;> simp [keyOrder?, Number.ofValue?]
    | _ => simp [keyOrder?, Number.ofValue?]
  | .tuple items, b => by
    cases b with
    | tuple others => simpa [keyOrder?] using keyOrderAll?_swap items others
    | external other _ => cases other <;> simp [keyOrder?, Number.ofValue?]
    | _ => simp [keyOrder?, Number.ofValue?]
  | .null, b => by
    cases b with
    | external other _ => cases other <;> simp [keyOrder?, Number.ofValue?]
    | _ => simp [keyOrder?, Number.ofValue?]
  | .external kind s, b => by
    cases b with
    | external other t =>
      have swapped : (compare s t).swap = compare t s := Std.OrientedCmp.eq_swap.symm
      cases kind <;> cases other <;> simp [keyOrder?, Number.ofValue?, swapped]
    | _ => cases kind <;> simp [keyOrder?, Number.ofValue?]
  | .bool _, b | .int _, b | .float _, b | .list _, b | .set _ _, b | .map _, b | .entity _, b
  | .record _, b => by
    cases b with
    | external other _ => cases other <;> simp [keyOrder?, Number.ofValue?]
    | text | tuple | null => simp [keyOrder?, Number.ofValue?]
    | _ => simpa [keyOrder?] using keyOrder?_swap_of_numbers _ _

private theorem keyOrderAll?_swap :
    (items others : List Value) → (keyOrderAll? items others).map Ordering.swap = keyOrderAll? others items
  | [], [] | [], _ :: _ | _ :: _, [] => rfl
  | a :: rest, b :: others => by
    rw [keyOrderAll?, keyOrderAll?, ← keyOrder?_swap a b]
    cases keyOrder? a b with
    | none => rfl
    | some order =>
      cases order with
      | eq => exact keyOrderAll?_swap rest others
      | lt | gt => rfl

end

variable {Item : Type}

private theorem comparableKeys_iff {entries : List (Value × Item)} :
    comparableKeys entries = true ↔ entries.Pairwise fun a b => (keyOrder? a.1 b.1).isSome = true := by
  induction entries with
  | nil => simp [comparableKeys]
  | cons entry rest ih =>
    simp only [comparableKeys, Bool.and_eq_true, List.all_eq_true, List.pairwise_cons, ih]

private theorem comparableKeys_of_perm {entries others : List (Value × Item)} (perm : entries.Perm others) :
    comparableKeys entries = comparableKeys others := by
  rw [Bool.eq_iff_iff, comparableKeys_iff, comparableKeys_iff]
  refine perm.pairwise_iff fun {a b} compares => ?_
  rwa [← keyOrder?_swap, Option.isSome_map]

/-- Sorting entries keeps all of them. -/
theorem perm_of_sortEntries? {entries sorted : List (Value × Item)}
    (returned : sortEntries? entries = some sorted) : sorted.Perm entries := by
  unfold sortEntries? at returned
  split at returned
  · obtain rfl := Option.some.inj returned
    exact stableSort_perm _ entries
  · cases returned

/-- Sorted entries are sorted to themselves. -/
theorem sortEntries?_sortEntries? {entries sorted : List (Value × Item)}
    (returned : sortEntries? entries = some sorted) : sortEntries? sorted = some sorted := by
  unfold sortEntries? at returned
  split at returned
  · rename_i comparable
    obtain rfl := Option.some.inj returned
    rw [sortEntries?, comparableKeys_of_perm (stableSort_perm _ entries), if_pos comparable,
      stableSort_stableSort fun a b => ?_]
    rw [← keyOrder?_swap a.1 b.1]
    cases keyOrder? a.1 b.1 with
    | none => exact .inl rfl
    | some order => cases order <;> simp
  · cases returned

end GraphQuery.Value
