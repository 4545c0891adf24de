import GraphQuery.Json.Basic
import GraphQuery.Proofs.Decimal.Text
import GraphQuery.Proofs.Text.Quoted

/-! # Compact documents

Different documents have different compact texts, whatever follows them. A scalar can be taken off
the front of a text, and collections are compared item by item. So documents with one canonical
text have the same sorted form.
-/

namespace GraphQuery.Json

open Decimal

/-- Whether a document is no collection. -/
def isScalar : Json → Bool
  | .array _ | .object _ => false
  | _ => true

private def ofNumeral (negative : Bool) (n : Numeral) : Json :=
  if n.isWhole then .int (n.toInt negative) else .float (n.toFloat negative)

private def takeNumber (negative : Bool) : List Char → Option (Json × List Char)
  | 'I' :: rest => some (.float (FloatForm.infinite negative).toFloat, rest.drop 7)
  | cs => (Numeral.read? cs).map fun (n, rest) => (ofNumeral negative n, rest)

private def takeScalar : List Char → Option (Json × List Char)
  | 'n' :: rest => some (.null, rest.drop 3)
  | 't' :: rest => some (.bool true, rest.drop 3)
  | 'f' :: rest => some (.bool false, rest.drop 4)
  | 'N' :: rest => some (.float FloatForm.nan.toFloat, rest.drop 2)
  | '"' :: rest => (Text.takeQuoted rest).map fun (cs, after) => (.text (String.ofList cs), after)
  | '-' :: rest => takeNumber true rest
  | cs => takeNumber false cs

private theorem takeNumber_digit {c : Char} (digit : c.isDigit = true) (negative : Bool)
    (cs : List Char) : takeNumber negative (c :: cs) =
      (Numeral.read? (c :: cs)).map fun (n, rest) => (ofNumeral negative n, rest) := by
  rw [takeNumber]
  rintro rest same
  obtain rfl := (List.cons.inj same).1
  exact absurd digit (by decide)

private theorem takeScalar_digit {c : Char} (digit : c.isDigit = true) (cs : List Char) :
    takeScalar (c :: cs) = takeNumber false (c :: cs) := by
  unfold takeScalar
  split <;> first
    | rfl
    | (rename_i same; obtain rfl := (List.cons.inj same).1; exact absurd digit (by decide))

private theorem takeScalar_signed {n : Numeral} (formed : n.WellFormed) (negative : Bool)
    {rest : List Char} (stops : Numeral.Stops rest) :
    takeScalar (signed negative n.chars ++ rest) = some (ofNumeral negative n, rest) := by
  obtain ⟨c, cs, first⟩ := List.exists_cons_of_ne_nil formed.whole_ne_nil
  have digit : c.isDigit = true := formed.whole c (by rw [first]; exact List.mem_cons_self ..)
  have read := Numeral.read?_chars formed stops
  obtain ⟨more, written⟩ : ∃ more, n.chars ++ rest = c :: more := by
    simp only [Numeral.chars, first]
    exact ⟨_, rfl⟩
  have number : takeNumber negative (n.chars ++ rest) = some (ofNumeral negative n, rest) := by
    rw [written, takeNumber_digit digit, ← written, read]
    rfl
  cases negative with
  | false =>
    rw [signed, if_neg (by decide), written, takeScalar_digit digit, ← written]
    exact number
  | true => exact number

private theorem takeScalar_scalarChars {s : Json} (scalar : s.isScalar) {rest : List Char}
    (stops : Numeral.Stops rest) : takeScalar (scalarChars false s ++ rest) = some (s, rest) := by
  cases s with
  | null => rfl
  | bool b => cases b <;> rfl
  | int i =>
    rw [scalarChars, Numeral.chars_toString, takeScalar_signed (Numeral.wellFormed_ofNat _) _ stops,
      ofNumeral, if_pos (Numeral.isWhole_ofNat _), Numeral.toInt_ofNat]
  | float x =>
    rw [scalarChars]
    cases read : FloatForm.ofFloat x with
    | nan =>
      rw [floatChars, read]
      simp [takeScalar, ← read, FloatForm.toFloat_ofFloat]
    | infinite negative =>
      rw [floatChars, read]
      cases negative <;> simp [takeScalar, signed, takeNumber, ← read, FloatForm.toFloat_ofFloat]
    | finite negative mantissa exponent =>
      obtain ⟨n, formed, notWhole, written, value⟩ :=
        Numeral.exists_numeral_float read "NaN".toList "Infinity".toList
      rw [written, takeScalar_signed formed _ stops, ofNumeral, if_neg (by simp [notWhole]), value,
        ← read, FloatForm.toFloat_ofFloat]
  | text s =>
    have read := Text.takeQuoted_quotedChars s.toList rest
    simp only [scalarChars, Text.quotedChars, List.cons_append, List.append_assoc, List.nil_append,
      takeScalar, read, Option.map_some, String.ofList_toList]
  | array items => simp [isScalar] at scalar
  | object fields => simp [isScalar] at scalar

private theorem takeScalar_bracket {c : Char} (bracket : c = '[' ∨ c = ']' ∨ c = '\x7b' ∨ c = '\x7d')
    (rest : List Char) : takeScalar (c :: rest) = none := by
  rcases bracket with rfl | rfl | rfl | rfl
  · simp [takeScalar, takeNumber, Numeral.read?]
  · simp [takeScalar, takeNumber, Numeral.read?]
  · simp [takeScalar, takeNumber, Numeral.read?]
  · simp [takeScalar, takeNumber, Numeral.read?]

/-- Different scalars have different texts, whatever follows them. -/
theorem scalarChars_append_inj {s other : Json} (scalar : s.isScalar) (otherScalar : other.isScalar)
    {rest remaining : List Char} (stops : Numeral.Stops rest) (ends : Numeral.Stops remaining)
    (same : scalarChars false s ++ rest = scalarChars false other ++ remaining) :
    s = other ∧ rest = remaining := by
  have taken := takeScalar_scalarChars scalar stops
  rw [same, takeScalar_scalarChars otherScalar ends, Option.some.injEq, Prod.mk.injEq] at taken
  exact ⟨taken.1.symm, taken.2.symm⟩

/-- The text of a scalar does not start with a bracket. -/
theorem scalarChars_append_ne {s : Json} (scalar : s.isScalar) {rest : List Char}
    (stops : Numeral.Stops rest) {c : Char}
    (bracket : c = '[' ∨ c = ']' ∨ c = '\x7b' ∨ c = '\x7d') (other : List Char) :
    scalarChars false s ++ rest ≠ c :: other := by
  intro same
  have taken := takeScalar_scalarChars scalar stops
  rw [same, takeScalar_bracket bracket] at taken
  cases taken

private theorem chars_of_isScalar {s : Json} (scalar : s.isScalar) :
    chars .compact s = scalarChars false s := by
  cases s <;> simp_all [chars, Layout.compact, isScalar]

private theorem chars_ne_bracket (d : Json) {rest : List Char} (stops : Numeral.Stops rest) {c : Char}
    (bracket : c = ']' ∨ c = '\x7d') (other : List Char) : chars .compact d ++ rest ≠ c :: other := by
  intro same
  cases scalar : d.isScalar with
  | true =>
    rw [chars_of_isScalar scalar] at same
    exact scalarChars_append_ne scalar stops (by tauto) other same
  | false =>
    cases d with
    | array items =>
      obtain rfl := (List.cons.inj same).1
      simp at bracket
    | object fields =>
      obtain rfl := (List.cons.inj same).1
      simp at bracket
    | _ => simp [isScalar] at scalar

private def itemsBehind : List Json → List Char
  | [] => []
  | items => ',' :: itemChars .compact items

private theorem itemChars_cons (item : Json) (rest : List Json) :
    itemChars .compact (item :: rest) = chars .compact item ++ itemsBehind rest := by
  cases rest <;> simp [itemChars, itemsBehind, Layout.compact]

private def fieldsBehind : List (String × Json) → List Char
  | [] => []
  | fields => ',' :: fieldChars .compact fields

private theorem fieldChars_cons (name : String) (item : Json) (rest : List (String × Json)) :
    fieldChars .compact ((name, item) :: rest) =
      '"' :: (name.toList.flatMap (Text.escapeQuoted false) ++
        '"' :: ':' :: (chars .compact item ++ fieldsBehind rest)) := by
  cases rest <;> simp [fieldChars, fieldsBehind, Layout.compact, Text.quotedChars]

private theorem stops_itemsBehind (items : List Json) (rest : List Char) :
    Numeral.Stops (itemsBehind items ++ ']' :: rest) := by
  cases items with
  | nil => simp [itemsBehind, Numeral.Stops]
  | cons item items => simp [itemsBehind, Numeral.Stops]

private theorem stops_fieldsBehind (fields : List (String × Json)) (rest : List Char) :
    Numeral.Stops (fieldsBehind fields ++ '\x7d' :: rest) := by
  cases fields with
  | nil => simp [fieldsBehind, Numeral.Stops]
  | cons field fields => simp [fieldsBehind, Numeral.Stops]

private theorem eq_of_isScalar {d other : Json} (scalar : d.isScalar) {rest remaining : List Char}
    (stops : Numeral.Stops rest) (ends : Numeral.Stops remaining)
    (same : chars .compact d ++ rest = chars .compact other ++ remaining) :
    d = other ∧ rest = remaining := by
  rw [chars_of_isScalar scalar] at same
  cases otherScalar : other.isScalar with
  | true =>
    rw [chars_of_isScalar otherScalar] at same
    exact scalarChars_append_inj scalar otherScalar stops ends same
  | false =>
    cases other with
    | array items => exact absurd same (scalarChars_append_ne scalar stops (by decide) _)
    | object fields => exact absurd same (scalarChars_append_ne scalar stops (by decide) _)
    | _ => simp [isScalar] at otherScalar

mutual

/-- Different documents have different compact texts, whatever follows them. -/
theorem chars_append_inj : (d other : Json) → {rest remaining : List Char} → Numeral.Stops rest →
    Numeral.Stops remaining → chars .compact d ++ rest = chars .compact other ++ remaining →
    d = other ∧ rest = remaining
  | .array items, other, rest, remaining, stops, ends, same => by
    cases scalar : other.isScalar with
    | true =>
      obtain ⟨wrong, -⟩ := eq_of_isScalar scalar ends stops same.symm
      rw [wrong] at scalar
      simp [isScalar] at scalar
    | false =>
      cases other with
      | array others =>
        simp only [chars, List.cons_append, List.append_assoc, List.nil_append, List.cons.injEq] at same
        obtain ⟨rfl, behind⟩ := itemChars_append_inj items others same.2
        exact ⟨rfl, behind⟩
      | object fields => simp [chars] at same
      | _ => simp [isScalar] at scalar
  | .object fields, other, rest, remaining, stops, ends, same => by
    cases scalar : other.isScalar with
    | true =>
      obtain ⟨wrong, -⟩ := eq_of_isScalar scalar ends stops same.symm
      rw [wrong] at scalar
      simp [isScalar] at scalar
    | false =>
      cases other with
      | array others => simp [chars] at same
      | object others =>
        simp only [chars, List.cons_append, List.append_assoc, List.nil_append, List.cons.injEq] at same
        obtain ⟨rfl, behind⟩ := fieldChars_append_inj fields others same.2
        exact ⟨rfl, behind⟩
      | _ => simp [isScalar] at scalar
  | .null, _, _, _, stops, ends, same | .bool _, _, _, _, stops, ends, same
  | .int _, _, _, _, stops, ends, same | .float _, _, _, _, stops, ends, same
  | .text _, _, _, _, stops, ends, same => eq_of_isScalar rfl stops ends same

private theorem itemChars_append_inj : (items others : List Json) → {rest remaining : List Char} →
    itemChars .compact items ++ ']' :: rest = itemChars .compact others ++ ']' :: remaining →
    items = others ∧ rest = remaining
  | [], [], _, _, same => ⟨rfl, (List.cons.inj same).2⟩
  | [], other :: others, rest, remaining, same => by
    rw [itemChars_cons, List.append_assoc] at same
    exact absurd same.symm (chars_ne_bracket other (stops_itemsBehind _ _) (.inl rfl) rest)
  | item :: items, [], rest, remaining, same => by
    rw [itemChars_cons, List.append_assoc] at same
    exact absurd same (chars_ne_bracket item (stops_itemsBehind _ _) (.inl rfl) remaining)
  | item :: items, other :: others, rest, remaining, same => by
    rw [itemChars_cons, itemChars_cons, List.append_assoc, List.append_assoc] at same
    obtain ⟨rfl, behind⟩ := chars_append_inj item other (stops_itemsBehind _ _) (stops_itemsBehind _ _) same
    match items, others, behind with
    | [], [], behind => exact ⟨rfl, (List.cons.inj behind).2⟩
    | [], _ :: _, behind => simp [itemsBehind] at behind
    | _ :: _, [], behind => simp [itemsBehind] at behind
    | first :: items, second :: others, behind =>
      obtain ⟨more, remaining⟩ := itemChars_append_inj (first :: items) (second :: others)
        (List.cons.inj behind).2
      exact ⟨by rw [more], remaining⟩

private theorem fieldChars_append_inj : (fields others : List (String × Json)) →
    {rest remaining : List Char} →
    fieldChars .compact fields ++ '\x7d' :: rest = fieldChars .compact others ++ '\x7d' :: remaining →
    fields = others ∧ rest = remaining
  | [], [], _, _, same => ⟨rfl, (List.cons.inj same).2⟩
  | [], (name, other) :: others, rest, remaining, same => by
    rw [fieldChars_cons] at same
    exact absurd (List.cons.inj same).1 (by decide)
  | (name, item) :: fields, [], rest, remaining, same => by
    rw [fieldChars_cons] at same
    exact absurd (List.cons.inj same).1 (by decide)
  | (name, item) :: fields, (otherName, other) :: others, rest, remaining, same => by
    rw [fieldChars_cons, fieldChars_cons] at same
    simp only [List.cons_append, List.append_assoc, List.cons.injEq, true_and] at same
    obtain ⟨sameName, afterName⟩ : name.toList = otherName.toList ∧ _ := by
      have taken := congrArg Text.takeQuoted same
      rw [Text.takeQuoted_quotedChars, Text.takeQuoted_quotedChars, Option.some.injEq,
        Prod.mk.injEq] at taken
      exact taken
    obtain rfl := String.toList_injective sameName
    obtain ⟨rfl, behind⟩ := chars_append_inj item other (stops_fieldsBehind _ _)
      (stops_fieldsBehind _ _) (List.cons.inj afterName).2
    match fields, others, behind with
    | [], [], behind => exact ⟨rfl, (List.cons.inj behind).2⟩
    | [], _ :: _, behind => simp [fieldsBehind] at behind
    | _ :: _, [], behind => simp [fieldsBehind] at behind
    | first :: fields, second :: others, behind =>
      obtain ⟨more, remaining⟩ := fieldChars_append_inj (first :: fields) (second :: others)
        (List.cons.inj behind).2
      exact ⟨by rw [more], remaining⟩

end

/-- Documents with one compact text are the same. -/
theorem write_compact_injective {d other : Json} (same : write .compact d = write .compact other) :
    d = other := by
  have stops : Numeral.Stops [] := by simp [Numeral.Stops]
  have chars := String.ofList_injective same
  exact (chars_append_inj d other stops stops (by rw [chars])).1

/-- Documents with one canonical text have one sorted form. -/
theorem canonicalText_eq_iff {d other : Json} :
    d.canonicalText = other.canonicalText ↔ d.sorted = other.sorted := by
  constructor
  · exact fun same => write_compact_injective same
  · intro same
    rw [canonicalText, canonicalText, same]

end GraphQuery.Json
