/-! # Splitting text at marks

A text is split at every place where a mark stands, from left to right; marks do not overlap.
`splitAt?_eq_some` says that nothing is lost.
-/

namespace GraphQuery.Text

/-- What follows a row of characters, if a list starts with it. -/
def afterMark? : (mark : List Char) → List Char → Option (List Char)
  | [], cs => some cs
  | m :: mark, c :: cs => if m = c then afterMark? mark cs else none
  | _ :: _, [] => none

theorem eq_append_of_afterMark? {mark cs after : List Char}
    (found : afterMark? mark cs = some after) : cs = mark ++ after := by
  induction mark generalizing cs with
  | nil => simpa [afterMark?] using found
  | cons m mark ih =>
    cases cs with
    | nil => simp [afterMark?] at found
    | cons c cs =>
      by_cases same : m = c
      · simp only [afterMark?, same, if_true] at found
        simp [same, ih found]
      · simp [afterMark?, same] at found

/-- What stands before and after the first mark. -/
def splitAt? (mark : List Char) : List Char → Option (List Char × List Char)
  | [] => if mark.isEmpty then some ([], []) else none
  | c :: rest =>
    match afterMark? mark (c :: rest) with
    | some after => some ([], after)
    | none => (splitAt? mark rest).map fun (before, after) => (c :: before, after)

theorem splitAt?_eq_some {mark cs before after : List Char}
    (found : splitAt? mark cs = some (before, after)) : cs = before ++ mark ++ after := by
  induction cs generalizing before with
  | nil =>
    cases mark with
    | nil => simp_all [splitAt?]
    | cons m mark => simp [splitAt?] at found
  | cons c cs ih =>
    cases start : afterMark? mark (c :: cs) with
    | some rest =>
      simp only [splitAt?, start, Option.some.injEq, Prod.mk.injEq] at found
      obtain ⟨rfl, rfl⟩ := found
      simpa using eq_append_of_afterMark? start
    | none =>
      simp only [splitAt?, start, Option.map_eq_some_iff, Prod.mk.injEq] at found
      obtain ⟨⟨inner, rest⟩, split, rfl, rfl⟩ := found
      simp [ih split]

/-- The parts between marks. Fuel is spent on every part. -/
def partsOf (mark : List Char) : (fuel : Nat) → List Char → List (List Char)
  | 0, cs => [cs]
  | fuel + 1, cs =>
    match splitAt? mark cs with
    | none => [cs]
    | some (before, after) => before :: partsOf mark fuel after

/-- The parts of a text between marks. -/
def splitBy (mark : String) (s : String) : List String :=
  (partsOf mark.toList s.toList.length s.toList).map String.ofList

/-- What follows an opening, if a text starts with it. -/
def after? (opening s : String) : Option String :=
  (afterMark? opening.toList s.toList).map String.ofList

example : splitBy "__" "A___B" = ["A", "_B"] := by decide +kernel
example : splitBy "__" "A__" = ["A", ""] := by decide +kernel

end GraphQuery.Text
