import GraphQuery.Value.Display

/-! # Entries of maps

Looking up and writing entries under keys of any kind. Two keys are the same if they are the same
text, or are no texts and look the same in messages. Writing to a key that is present keeps its
place.
-/

namespace GraphQuery

namespace Value

def sameKey : Value → Value → Bool
  | .text s, .text t => s == t
  | .text _, _ | _, .text _ => false
  | a, b => a.display == b.display

def item? (key : Value) : List (Value × Value) → Option Value
  | [] => none
  | (k, item) :: rest => if sameKey k key then some item else item? key rest

def putEntry (key item : Value) : List (Value × Value) → List (Value × Value)
  | [] => [(key, item)]
  | (k, old) :: rest =>
    if sameKey k key then (k, item) :: rest else (k, old) :: putEntry key item rest

/-- Leaves out the entries under a text key. -/
def without (key : String) (entries : List (Value × Value)) : List (Value × Value) :=
  entries.filter fun entry => !entry.1.isText key

theorem lookup_putEntry_self (key : String) (item : Value) (entries : List (Value × Value)) :
    lookup key (putEntry (.text key) item entries) = some item := by
  induction entries with
  | nil => simp [putEntry, lookup, isText]
  | cons entry rest ih =>
    obtain ⟨k, old⟩ := entry
    cases k with
    | text s => by_cases same : s = key <;> simp [putEntry, sameKey, lookup, isText, same, ih]
    | _ => simpa [putEntry, sameKey, lookup, isText] using ih

theorem lookup_putEntry_of_ne {key other : String} (different : other ≠ key) (item : Value)
    (entries : List (Value × Value)) :
    lookup other (putEntry (.text key) item entries) = lookup other entries := by
  induction entries with
  | nil => simp [putEntry, lookup, isText, different.symm]
  | cons entry rest ih =>
    obtain ⟨k, old⟩ := entry
    cases k with
    | text s =>
      by_cases same : s = key
      · simp [putEntry, sameKey, lookup, isText, same, different.symm]
      · simp [putEntry, sameKey, lookup, isText, same, ih]
    | _ => simpa [putEntry, sameKey, lookup, isText] using ih

theorem exists_mem_of_lookup {name : String} {entries : List (Value × Value)} {item : Value}
    (found : lookup name entries = some item) : (.text name, item) ∈ entries := by
  induction entries with
  | nil => cases found
  | cons entry rest ih =>
    obtain ⟨key, other⟩ := entry
    rw [lookup] at found
    split at found
    · cases key <;> simp_all [isText]
    · exact List.mem_cons_of_mem _ (ih found)

theorem lookup_of_mem {fields : List (String × Value)} (distinct : (fields.map Prod.fst).Nodup)
    {name : String} {item : Value} (member : (name, item) ∈ fields) :
    lookup name (fields.map fun field => (.text field.1, field.2)) = some item := by
  induction fields with
  | nil => cases member
  | cons field rest ih =>
    obtain ⟨absent, distinctRest⟩ := List.nodup_cons.mp distinct
    rcases List.mem_cons.mp member with rfl | among
    · simp [lookup, isText]
    · have different : field.1 ≠ name := by
        rintro rfl
        exact absent (List.mem_map.mpr ⟨_, among, rfl⟩)
      simpa [lookup, isText, different] using ih distinctRest among

mutual

/-- Lays a new item over an old one: the entries of a map are laid over those of a map, and anything
else takes the place of what was there. -/
def overlay (old : Option Value) : (new : Value) → Value
  | .map updates =>
    match old with
    | some (.map entries) => .map (overlayEntries entries updates)
    | _ => .map updates
  | new => new

/-- Lays entries over entries, one after another. -/
def overlayEntries (entries : List (Value × Value)) :
    (updates : List (Value × Value)) → List (Value × Value)
  | [] => entries
  | (key, item) :: rest =>
    overlayEntries (putEntry key (overlay (item? key entries) item) entries) rest

end

end Value

end GraphQuery
