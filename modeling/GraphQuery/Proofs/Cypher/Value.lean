import GraphQuery.Proofs.Cypher.Level
import GraphQuery.Proofs.Value.Reordering

/-! # Written values

The text of a value that a document can express is read as the value. A negative number starts with
a minus sign, so that in the place of an operand its text is the negation of its absolute value.
-/

namespace GraphQuery

namespace Value

mutual

/-- Whether the keys of all maps are read as names. -/
def hasPlainKeys : Value → Bool
  | .list items => havePlainKeys items
  | .map entries => entriesHavePlainKeys entries
  | _ => true

/-- Whether the keys of all maps in several values are read as names. -/
def havePlainKeys : List Value → Bool
  | [] => true
  | item :: rest => hasPlainKeys item && havePlainKeys rest

/-- Whether keys, and the keys of all maps behind them, are read as names. -/
def entriesHavePlainKeys : List (Value × Value) → Bool
  | [] => true
  | (key, item) :: rest =>
    Cypher.isPlainName key.asText && hasPlainKeys item && entriesHavePlainKeys rest

end

/-- The absolute value of a negative number. -/
def magnitude? : Value → Option Value
  | .int i => if i < 0 then some (.int (-i)) else none
  | .float x =>
    match FloatForm.ofFloat x with
    | .finite true mantissa exponent => some (.float (FloatForm.finite false mantissa exponent).toFloat)
    | .infinite true => some (.float (FloatForm.infinite false).toFloat)
    | _ => none
  | _ => none

end Value

namespace Cypher

open Decimal

/-- Whether a reader gets an item from a row of tokens, if it may go as deep as the row is long. -/
def ReadsWithin {Item : Type} (reader : Nat → List Token → Option (Item × List Token)) (ts : List Token)
    (item : Item) : Prop :=
  ∀ fuel rest, ts.length ≤ fuel → reader fuel (ts ++ rest) = some (item, rest)

theorem ReadsWithin.items {Item : Type} {reader : Nat → List Token → Option (Item × List Token)}
    {items : List Item} {pieces : List (List Token)}
    (reads : List.Forall₂ (fun item piece => ReadsWithin reader piece item) items pieces) (close : String)
    {fuel : Nat} (enough : (separated pieces).length ≤ fuel) :
    List.Forall₂ (ReadsItem close (reader fuel)) items pieces := by
  rw [List.forall₂_iff_zip] at reads ⊢
  refine ⟨reads.1, ?_⟩
  intro item piece member s _ rest
  have shorter := length_le_of_mem_separated (List.of_mem_zip member).2
  exact reads.2 member fuel _ (shorter.trans enough)

/-- Whether the reader of values gets a value from a row of tokens. -/
def ReadsValue (ts : List Token) (value : Value) : Prop :=
  ReadsWithin readValue ts value

private theorem ReadsValue.of_step {ts : List Token} {value : Value} (nonempty : ts ≠ [])
    (step : ∀ fuel rest, ts.length ≤ fuel + 1 → readValue (fuel + 1) (ts ++ rest) = some (value, rest)) :
    ReadsValue ts value := by
  intro fuel rest enough
  have some := List.length_pos_of_ne_nil nonempty
  cases fuel with
  | zero => omega
  | succ fuel => exact step fuel rest enough

/-- What the tokens of a written value are. -/
structure WritesValue (value : Value) (ts : List Token) : Prop where
  lexes : Lexes value.literalChars ts
  reads : ReadsValue ts value
  unsigned : value.magnitude? = none → startsValue ts = true
  minus : ∀ magnitude, value.magnitude? = some magnitude →
    ∃ us, ts = .symbol "-" :: us ∧ startsValue us = true ∧ ReadsValue us magnitude

namespace WritesValue

private theorem of_unsigned {value : Value} {ts : List Token} (lexes : Lexes value.literalChars ts)
    (reads : ReadsValue ts value) (positive : value.magnitude? = none) (starts : startsValue ts = true) :
    WritesValue value ts :=
  ⟨lexes, reads, fun _ => starts, fun magnitude same => by simp [positive] at same⟩

private theorem readsValue_number (n : Numeral) : ReadsValue [.number n] (numberValue false n) :=
  .of_step (List.cons_ne_nil _ _) fun _ _ _ => rfl

private theorem readsValue_negative (n : Numeral) :
    ReadsValue [.symbol "-", .number n] (numberValue true n) :=
  .of_step (List.cons_ne_nil _ _) fun _ _ _ => rfl

private theorem readsValue_constant {s : String} {value : Value} (noBracket : s ≠ "-" ∧ s ≠ "[" ∧ s ≠ "\x7b")
    (known : constants.lookup s = some value) : ReadsValue [.symbol s] value := by
  apply ReadsValue.of_step (List.cons_ne_nil _ _)
  intro fuel rest _
  simp [readValue, noBracket, known]

private theorem of_numeral {value : Value} {n : Numeral} (negative : Bool) (formed : n.WellFormed)
    (written : value.literalChars = signed negative n.chars) (same : numberValue negative n = value)
    (magnitude : value.magnitude? = if negative then some (numberValue false n) else none) :
    ∃ ts, WritesValue value ts := by
  cases negative with
  | false =>
    refine ⟨[.number n], of_unsigned ?_ (same ▸ readsValue_number n) magnitude rfl⟩
    rw [written]
    exact .number formed
  | true =>
    refine ⟨[.symbol "-", .number n], ?_, same ▸ readsValue_negative n, ?_, ?_⟩
    · rw [written]
      exact (Lexes.number formed).mark (by decide)
    · intro none
      simp [none] at magnitude
    · intro value' same'
      obtain rfl : numberValue false n = value' := by simpa [magnitude] using same'
      exact ⟨_, rfl, rfl, readsValue_number n⟩

theorem exists_int (i : Int) : ∃ ts, WritesValue (.int i) ts := by
  refine of_numeral (decide (i < 0)) (Numeral.wellFormed_ofNat i.natAbs) ?_ ?_ ?_
  · exact Numeral.chars_toString i
  · rw [numberValue, if_pos (Numeral.isWhole_ofNat _), Numeral.toInt_ofNat]
  · rw [numberValue, if_pos (Numeral.isWhole_ofNat _), Value.magnitude?]
    by_cases negative : i < 0
    · have absolute : (Numeral.ofNat i.natAbs).toInt false = -i := by
        have whole := Numeral.toInt_ofNat (-i)
        rwa [Int.natAbs_neg, decide_eq_false (by omega)] at whole
      simp [negative, absolute]
    · simp [negative]

theorem exists_float (x : Float) : ∃ ts, WritesValue (.float x) ts := by
  have infinity : Lexes "Infinity".toList [.symbol "Infinity"] := .keyword (by decide) (by decide)
  cases read : FloatForm.ofFloat x with
  | nan =>
    have same : FloatForm.nan.toFloat = x := by rw [← read, FloatForm.toFloat_ofFloat]
    refine ⟨[.symbol "NaN"], of_unsigned ?_ ?_ ?_ rfl⟩
    · rw [Value.literalChars, floatChars, read]
      exact .keyword (by decide) (by decide)
    · apply readsValue_constant (by decide)
      rw [← same]
      rfl
    · rw [Value.magnitude?, read]
  | infinite negative =>
    have same : (FloatForm.infinite negative).toFloat = x := by rw [← read, FloatForm.toFloat_ofFloat]
    have positive : ReadsValue [.symbol "Infinity"] (.float (FloatForm.infinite false).toFloat) :=
      readsValue_constant (by decide) rfl
    cases negative with
    | false =>
      refine ⟨[.symbol "Infinity"], of_unsigned ?_ (same ▸ positive) ?_ rfl⟩
      · rw [Value.literalChars, floatChars, read]
        exact infinity
      · rw [Value.magnitude?, read]
    | true =>
      refine ⟨[.symbol "-", .symbol "Infinity"], ?_, ?_, ?_, ?_⟩
      · rw [Value.literalChars, floatChars, read]
        exact infinity.mark (by decide)
      · rw [← same]
        exact .of_step (List.cons_ne_nil _ _) fun _ _ _ => rfl
      · rw [Value.magnitude?, read]
        simp
      · rw [Value.magnitude?, read]
        rintro magnitude ⟨⟩
        exact ⟨_, rfl, rfl, positive⟩
  | finite negative mantissa exponent =>
    obtain ⟨n, formed, notWhole, written, value⟩ :=
      Numeral.exists_numeral_float read "NaN".toList "Infinity".toList
    have number (sign : Bool) : numberValue sign n =
        .float (FloatForm.finite sign mantissa exponent).toFloat := by
      rw [numberValue, if_neg (by simp [notWhole]), value]
    refine of_numeral negative formed written ?_ ?_
    · rw [number, ← read, FloatForm.toFloat_ofFloat]
    · rw [Value.magnitude?, read, number]
      cases negative <;> rfl

private theorem readsValue_list {items : List Value} {pieces : List (List Token)}
    (reads : List.Forall₂ (fun item piece => ReadsValue piece item) items pieces) :
    ReadsValue (.symbol "[" :: (separated pieces ++ [.symbol "]"])) (.list items) := by
  apply ReadsValue.of_step (List.cons_ne_nil _ _)
  intro fuel rest enough
  simp only [List.length_cons, List.length_append, List.length_nil] at enough
  have refuses (rest : List Token) : readValue fuel (.symbol "]" :: rest) = none :=
    readValue_eq_none (by decide) fuel rest
  have row := readRow_separated (by decide) refuses (ReadsWithin.items reads "]" (by omega)) rest
  rw [List.cons_append, List.append_assoc, List.singleton_append, readValue, if_neg (by decide),
    if_pos rfl, row]
  rfl

private theorem readsEntry {key : String} {item : Value} {ts : List Token} (reads : ReadsValue ts item) :
    ReadsWithin (fun fuel => readEntry (readValue fuel)) (.name key :: .symbol ":" :: ts)
      (.text key, item) := by
  intro fuel rest enough
  simp only [List.length_cons] at enough
  simp [readEntry, reads fuel rest (by omega)]

private theorem readsValue_map {entries : List (Value × Value)} {pieces : List (List Token)}
    (reads : List.Forall₂ (fun entry piece =>
      ReadsWithin (fun fuel => readEntry (readValue fuel)) piece entry) entries pieces) :
    ReadsValue (.symbol "\x7b" :: (separated pieces ++ [.symbol "\x7d"])) (.map entries) := by
  apply ReadsValue.of_step (List.cons_ne_nil _ _)
  intro fuel rest enough
  simp only [List.length_cons, List.length_append, List.length_nil] at enough
  have items : List.Forall₂ (ReadsItem "\x7d" (readEntry (readValue fuel))) entries pieces :=
    ReadsWithin.items reads "\x7d" (by omega)
  have row := readRow_separated (by decide) (fun _ => rfl) items rest
  rw [List.cons_append, List.append_assoc, List.singleton_append, readValue, if_neg (by decide),
    if_neg (by decide), if_pos rfl, row]
  rfl

mutual

/-- A value that a document can express is split into tokens that are read as the value. -/
theorem exists_tokens : (value : Value) → value.isJson = true → value.hasPlainKeys = true →
    ∃ ts, WritesValue value ts
  | .null, _, _ => ⟨_, of_unsigned (.keyword (s := "null") (by decide) (by decide))
      (readsValue_constant (by decide) rfl) rfl rfl⟩
  | .bool true, _, _ => ⟨_, of_unsigned (.keyword (s := "true") (by decide) (by decide))
      (readsValue_constant (by decide) rfl) rfl rfl⟩
  | .bool false, _, _ => ⟨_, of_unsigned (.keyword (s := "false") (by decide) (by decide))
      (readsValue_constant (by decide) rfl) rfl rfl⟩
  | .int i, _, _ => exists_int i
  | .float x, _, _ => exists_float x
  | .text s, _, _ => by
    have reads : ReadsValue [.text s] (.text s) :=
      .of_step (List.cons_ne_nil _ _) fun _ _ _ => rfl
    exact ⟨_, of_unsigned (.quoted s) reads rfl rfl⟩
  | .list items, json, plain => by
    obtain ⟨pieces, lexes, reads⟩ := exists_itemTokens items json plain
    refine ⟨_, of_unsigned ?_ (readsValue_list reads) rfl rfl⟩
    exact (Lexes.row (by decide) (by decide) lexes).mark (by decide)
  | .map entries, json, plain => by
    simp only [Value.isJson, Bool.and_eq_true] at json
    obtain ⟨pieces, lexes, reads⟩ := exists_entryTokens entries json.2 plain
    refine ⟨_, of_unsigned ?_ (readsValue_map reads) rfl rfl⟩
    exact (Lexes.row (by decide) (by decide) lexes).mark (by decide)
  | .tuple _, json, _ | .set _ _, json, _ | .external _ _, json, _ | .entity _, json, _
  | .record _, json, _ => by simp [Value.isJson] at json

theorem exists_itemTokens : (items : List Value) → Value.areJson items = true →
    Value.havePlainKeys items = true →
    ∃ pieces, List.Forall₂ Lexes (Value.literalItems items) pieces ∧
      List.Forall₂ (fun item piece => ReadsValue piece item) items pieces
  | [], _, _ => ⟨[], .nil, .nil⟩
  | item :: rest, json, plain => by
    simp only [Value.areJson, Value.havePlainKeys, Bool.and_eq_true] at json plain
    obtain ⟨ts, writes⟩ := exists_tokens item json.1 plain.1
    obtain ⟨pieces, lexes, reads⟩ := exists_itemTokens rest json.2 plain.2
    exact ⟨ts :: pieces, .cons writes.lexes lexes, .cons writes.reads reads⟩

theorem exists_entryTokens : (entries : List (Value × Value)) → Value.entriesAreJson entries = true →
    Value.entriesHavePlainKeys entries = true →
    ∃ pieces, List.Forall₂ Lexes (Value.literalEntries entries) pieces ∧
      List.Forall₂ (fun entry piece => ReadsWithin (fun fuel => readEntry (readValue fuel)) piece entry)
        entries pieces
  | [], _, _ => ⟨[], .nil, .nil⟩
  | (key, item) :: rest, json, plain => by
    simp only [Value.entriesAreJson, Value.entriesHavePlainKeys, Bool.and_eq_true] at json plain
    obtain ⟨ts, writes⟩ := exists_tokens item json.1.2 plain.1.2
    obtain ⟨pieces, lexes, reads⟩ := exists_entryTokens rest json.2 plain.2
    cases key with
    | text key =>
      have behind : Lexes (':' :: ' ' :: item.literalChars) (.symbol ":" :: ts) :=
        writes.lexes.blank.mark (by decide)
      have entry : Lexes (key.toList ++ ':' :: ' ' :: item.literalChars) (.name key :: .symbol ":" :: ts) :=
        (Lexes.name plain.1.1).append (by decide) behind
      exact ⟨_, .cons entry lexes, .cons (readsEntry writes.reads) reads⟩
    | _ => simp [Value.text?] at json

end

end WritesValue

end Cypher

end GraphQuery
