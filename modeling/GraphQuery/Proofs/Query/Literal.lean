import GraphQuery.Proofs.Json.Compact
import GraphQuery.Proofs.Value.Reordering
import GraphQuery.Query.Text
import Mathlib.Data.List.Infix

/-! # Literals and their texts

Texts that are data stand between quotation marks and cannot be mistaken for brackets, commas or
colons, whatever they hold. The keys of maps stand as they are. As long as no key holds a colon with
a blank behind it, or starts like the end of a map, the text of a literal says which value it is;
any map of two entries, however, has the text of a map with one entry under a longer key.
-/

namespace GraphQuery

open Numeral

/-! ## Rows of pieces -/

private def piecesBehind : List (List Char) → List Char
  | [] => []
  | pieces => comma ++ joinChars comma pieces

private theorem joinChars_eq_append (piece : List Char) (pieces : List (List Char)) :
    joinChars comma (piece :: pieces) = piece ++ piecesBehind pieces := by
  cases pieces <;> simp [joinChars, piecesBehind]

private theorem piecesBehind_cons (piece : List Char) (pieces : List (List Char)) :
    piecesBehind (piece :: pieces) = comma ++ (piece ++ piecesBehind pieces) := by
  rw [piecesBehind, joinChars_eq_append]
  exact List.cons_ne_nil piece pieces

private theorem stops_piecesBehind {close : Char} (closes : ∀ rest, Stops (close :: rest))
    (pieces : List (List Char)) (rest : List Char) : Stops (piecesBehind pieces ++ close :: rest) := by
  cases pieces with
  | nil => exact closes rest
  | cons piece pieces => simp [piecesBehind, comma, Stops]

/-- Whether the text of an item says where it ends and which item it is, among some others. -/
def TellsApart {Item : Type} (write : Item → List Char) (item other : Item) : Prop :=
  ∀ rest remaining, Stops rest → Stops remaining → write item ++ rest = write other ++ remaining →
    item = other ∧ rest = remaining

theorem TellsApart.symm {Item : Type} {write : Item → List Char} {item other : Item}
    (apart : TellsApart write item other) : TellsApart write other item := by
  intro rest remaining stops ends same
  obtain ⟨rfl, rfl⟩ := apart remaining rest ends stops same.symm
  exact ⟨rfl, rfl⟩

section Rows

variable {Item : Type} {write : Item → List Char} {close : Char}

private theorem piecesBehind_append_inj (closes : ∀ rest, Stops (close :: rest)) (noComma : close ≠ ',')
    {items others : List Item} (apart : ∀ item ∈ items, ∀ other ∈ others, TellsApart write item other)
    {rest remaining : List Char}
    (same : piecesBehind (items.map write) ++ close :: rest =
      piecesBehind (others.map write) ++ close :: remaining) : items = others ∧ rest = remaining := by
  have stops := stops_piecesBehind closes
  induction items generalizing others with
  | nil =>
    cases others with
    | nil => exact ⟨rfl, (List.cons.inj same).2⟩
    | cons other others =>
      rw [List.map_cons, piecesBehind_cons] at same
      exact absurd (List.cons.inj same).1 noComma
  | cons item items ih =>
    cases others with
    | nil =>
      rw [List.map_cons, piecesBehind_cons] at same
      exact absurd (List.cons.inj same).1.symm noComma
    | cons other others =>
      simp only [List.map_cons, piecesBehind_cons, List.append_assoc] at same
      obtain ⟨rfl, behind⟩ := apart item (List.mem_cons_self ..) other (List.mem_cons_self ..) _ _
        (stops _ _) (stops _ _) (List.append_cancel_left same)
      have apartBehind (item : Item) (member : item ∈ items) (other : Item) (among : other ∈ others) :
          TellsApart write item other :=
        apart item (List.mem_cons_of_mem _ member) other (List.mem_cons_of_mem _ among)
      obtain ⟨rfl, ends⟩ := ih apartBehind behind
      exact ⟨rfl, ends⟩

/-- Rows of items that are told apart are told apart, if no item starts with what closes the row. -/
theorem joinChars_append_inj (closes : ∀ rest, Stops (close :: rest)) (noComma : close ≠ ',')
    {items others : List Item}
    (starts : ∀ item, item ∈ items ∨ item ∈ others → ∀ rest tail, Stops rest →
      write item ++ rest ≠ close :: tail)
    (apart : ∀ item ∈ items, ∀ other ∈ others, TellsApart write item other) {rest remaining : List Char}
    (same : joinChars comma (items.map write) ++ close :: rest =
      joinChars comma (others.map write) ++ close :: remaining) : items = others ∧ rest = remaining := by
  have stops := stops_piecesBehind closes
  cases items with
  | nil =>
    cases others with
    | nil => exact ⟨rfl, (List.cons.inj same).2⟩
    | cons other others =>
      rw [List.map_cons, joinChars_eq_append, List.append_assoc] at same
      exact absurd same.symm (starts other (.inr (List.mem_cons_self ..)) _ _ (stops _ _))
  | cons item items =>
    cases others with
    | nil =>
      rw [List.map_cons, joinChars_eq_append, List.append_assoc] at same
      exact absurd same (starts item (.inl (List.mem_cons_self ..)) _ _ (stops _ _))
    | cons other others =>
      -- with a comma in front, both rows stand behind one item
      refine piecesBehind_append_inj closes noComma apart ?_
      simpa [piecesBehind] using same

end Rows

namespace Value

/-! ## Keys -/

/-- Whether a key can be told from what stands behind it: it does not hold what separates a key from
its item, and does not start like the end of a map. -/
def IsDelimited (key : Value) : Prop :=
  ¬[':', ' '] <:+: key.asText.toList ∧ ¬['\x7d'] <+: key.asText.toList

/-- Whether the keys of all maps that are reached can be told from what stands behind them. -/
def HasDelimitedKeys (v : Value) : Prop :=
  v.AllKeys fun keys => ∀ key ∈ keys, key.IsDelimited

def entryChars (entry : Value × Value) : List Char :=
  entry.1.asText.toList ++ ':' :: ' ' :: entry.2.literalChars

private theorem eq_nil_of_separator {cs rest remaining : List Char} (plain : ¬[':', ' '] <:+: cs)
    (same : ':' :: ' ' :: rest = cs ++ ':' :: ' ' :: remaining) : cs = [] := by
  match cs, plain, same with
  | [], _, _ => rfl
  | [c], _, same => simp at same
  | c :: d :: cs, plain, same =>
    simp only [List.cons_append, List.cons.injEq] at same
    obtain ⟨rfl, rfl, -⟩ := same
    exact absurd ⟨[], cs, rfl⟩ plain

/-- Characters without a separator are told from what stands behind their first separator. -/
theorem separated_append_inj {cs ds rest remaining : List Char} (plain : ¬[':', ' '] <:+: cs)
    (plainOther : ¬[':', ' '] <:+: ds) (same : cs ++ ':' :: ' ' :: rest = ds ++ ':' :: ' ' :: remaining) :
    cs = ds ∧ rest = remaining := by
  induction cs generalizing ds with
  | nil =>
    obtain rfl := eq_nil_of_separator plainOther same
    exact ⟨rfl, by simpa using same⟩
  | cons c cs ih =>
    cases ds with
    | nil => cases eq_nil_of_separator plain same.symm
    | cons d ds =>
      obtain ⟨rfl, tails⟩ := List.cons.inj same
      obtain ⟨rfl, behind⟩ := ih (fun inside => plain (List.infix_cons inside))
        (fun inside => plainOther (List.infix_cons inside)) tails
      exact ⟨rfl, behind⟩

/-! ## Texts of values -/

theorem literalItems_eq_map (items : List Value) : literalItems items = items.map literalChars := by
  induction items with
  | nil => rfl
  | cons item rest ih => rw [literalItems, ih, List.map_cons]

theorem literalEntries_eq_map (entries : List (Value × Value)) :
    literalEntries entries = entries.map entryChars := by
  induction entries with
  | nil => rfl
  | cons entry rest ih => rw [literalEntries, ih, List.map_cons]; rfl

private theorem scalar_or_list_or_map {v : Value} (json : v.isJson) :
    (∃ d : Json, d.isScalar ∧ v = ofJson d ∧ v.literalChars = Json.scalarChars false d) ∨
      (∃ items, v = .list items) ∨ ∃ entries, v = .map entries := by
  cases v with
  | null => exact .inl ⟨.null, rfl, rfl, rfl⟩
  | bool b => exact .inl ⟨.bool b, rfl, rfl, rfl⟩
  | int i => exact .inl ⟨.int i, rfl, rfl, rfl⟩
  | float x => exact .inl ⟨.float x, rfl, rfl, rfl⟩
  | text s => exact .inl ⟨.text s, rfl, rfl, rfl⟩
  | list items => exact .inr (.inl ⟨items, rfl⟩)
  | map entries => exact .inr (.inr ⟨entries, rfl⟩)
  | _ => simp [isJson] at json

private theorem literalChars_append_ne {v : Value} (json : v.isJson) {close : Char}
    (closes : close = ']' ∨ close = '\x7d') (rest tail : List Char) (stops : Stops rest) :
    v.literalChars ++ rest ≠ close :: tail := by
  rcases scalar_or_list_or_map json with ⟨d, scalar, -, written⟩ | ⟨items, rfl⟩ | ⟨entries, rfl⟩
  · rw [written]
    exact Json.scalarChars_append_ne scalar stops (by tauto) tail
  · intro same
    obtain rfl := (List.cons.inj same).1
    simp at closes
  · intro same
    obtain rfl := (List.cons.inj same).1
    simp at closes

private theorem entryChars_append_ne {entry : Value × Value} (delimited : entry.1.IsDelimited)
    (rest tail : List Char) : entryChars entry ++ rest ≠ '\x7d' :: tail := by
  intro same
  rw [entryChars, List.append_assoc] at same
  rcases List.append_eq_cons_iff.mp same with ⟨-, behind⟩ | ⟨cs, key, -⟩
  · cases behind
  · exact delimited.2 ⟨cs, key.symm⟩

private theorem tellsApart_entryChars {entry other : Value × Value} (delimited : entry.1.IsDelimited)
    (otherDelimited : other.1.IsDelimited) (textual : entry.1.text?.isSome)
    (otherTextual : other.1.text?.isSome) (apart : TellsApart literalChars entry.2 other.2) :
    TellsApart entryChars entry other := by
  intro rest remaining stops ends same
  obtain ⟨key, item⟩ := entry
  obtain ⟨otherKey, otherItem⟩ := other
  simp only [entryChars, List.append_assoc, List.cons_append] at same
  obtain ⟨keys, behind⟩ := separated_append_inj delimited.1 otherDelimited.1 same
  obtain ⟨rfl, rest⟩ := apart rest remaining stops ends behind
  cases key <;> cases otherKey <;> simp_all [text?, asText, String.toList_inj]

private theorem tellsApart_scalar {d : Json} (scalar : d.isScalar)
    (written : (ofJson d).literalChars = Json.scalarChars false d) {w : Value} (json : w.isJson) :
    TellsApart literalChars (ofJson d) w := by
  intro rest remaining stops ends same
  rw [written] at same
  rcases scalar_or_list_or_map json with ⟨e, otherScalar, rfl, otherWritten⟩ | ⟨items, rfl⟩ | ⟨entries, rfl⟩
  · rw [otherWritten] at same
    obtain ⟨rfl, behind⟩ := Json.scalarChars_append_inj scalar otherScalar stops ends same
    exact ⟨rfl, behind⟩
  · exact absurd same (Json.scalarChars_append_ne scalar stops (by decide) _)
  · exact absurd same (Json.scalarChars_append_ne scalar stops (by decide) _)

private theorem tellsApart_list {items others : List Value} (json : ∀ item ∈ items, item.isJson)
    (otherJson : ∀ other ∈ others, other.isJson)
    (apart : ∀ item ∈ items, ∀ other ∈ others, TellsApart literalChars item other) :
    TellsApart literalChars (.list items) (.list others) := by
  intro rest remaining _ _ same
  simp only [literalChars, literalItems_eq_map, List.cons_append, List.append_assoc, List.nil_append,
    List.cons.injEq, true_and] at same
  have starts (item : Value) (member : item ∈ items ∨ item ∈ others) (rest tail : List Char)
      (stops : Stops rest) : item.literalChars ++ rest ≠ ']' :: tail :=
    literalChars_append_ne (member.elim (json item) (otherJson item)) (.inl rfl) rest tail stops
  obtain ⟨rfl, behind⟩ := joinChars_append_inj (by simp [Stops]) (by decide) starts apart same
  exact ⟨rfl, behind⟩

private theorem tellsApart_map {entries others : List (Value × Value)}
    (delimited : ∀ entry, entry ∈ entries ∨ entry ∈ others → entry.1.IsDelimited)
    (apart : ∀ entry ∈ entries, ∀ other ∈ others, TellsApart entryChars entry other) :
    TellsApart literalChars (.map entries) (.map others) := by
  intro rest remaining _ _ same
  simp only [literalChars, literalEntries_eq_map, List.cons_append, List.append_assoc, List.nil_append,
    List.cons.injEq, true_and] at same
  have starts (entry : Value × Value) (member : entry ∈ entries ∨ entry ∈ others) (rest tail : List Char)
      (_ : Stops rest) : entryChars entry ++ rest ≠ '\x7d' :: tail :=
    entryChars_append_ne (delimited entry member) rest tail
  obtain ⟨rfl, behind⟩ := joinChars_append_inj (by simp [Stops]) (by decide) starts apart same
  exact ⟨rfl, behind⟩

/-- The text of a value of a document with delimited keys is told from the texts of all others. -/
theorem tellsApart_literalChars {v w : Value} (jsonV : v.isJson) (jsonW : w.isJson)
    (keysV : v.HasDelimitedKeys) (keysW : w.HasDelimitedKeys) : TellsApart literalChars v w := by
  induction v using induction_parts generalizing w with
  | step v ih =>
    rcases scalar_or_list_or_map jsonV with ⟨d, scalar, rfl, written⟩ | ⟨items, rfl⟩ | ⟨entries, rfl⟩
    · exact tellsApart_scalar scalar written jsonW
    · rcases scalar_or_list_or_map jsonW with ⟨d, scalar, rfl, written⟩ | ⟨others, rfl⟩ | ⟨others, rfl⟩
      · exact (tellsApart_scalar scalar written jsonV).symm
      · have json := (isJson_list items).mp jsonV
        have otherJson := (isJson_list others).mp jsonW
        refine tellsApart_list json otherJson fun item member other among => ?_
        exact ih item member (json item member) (otherJson other among)
          ((allKeys_list.mp keysV).2 item member) ((allKeys_list.mp keysW).2 other among)
      · exact fun rest remaining _ _ same => absurd (List.cons.inj same).1 (by decide)
    · rcases scalar_or_list_or_map jsonW with ⟨d, scalar, rfl, written⟩ | ⟨others, rfl⟩ | ⟨others, rfl⟩
      · exact (tellsApart_scalar scalar written jsonV).symm
      · exact fun rest remaining _ _ same => absurd (List.cons.inj same).1 (by decide)
      · obtain ⟨delimited, items⟩ := allKeys_map.mp keysV
        obtain ⟨otherDelimited, otherItems⟩ := allKeys_map.mp keysW
        have json := ((isJson_map entries).mp jsonV).2
        have otherJson := ((isJson_map others).mp jsonW).2
        rw [List.forall_mem_map] at delimited otherDelimited
        refine tellsApart_map (fun entry member => member.elim (delimited entry) (otherDelimited entry))
          fun entry member other among => ?_
        refine tellsApart_entryChars (delimited entry member) (otherDelimited other among)
          (json entry member).1 (otherJson other among).1 ?_
        exact ih entry.2 (List.mem_map_of_mem member) (json entry member).2 (otherJson other among).2
          (items entry member) (otherItems other among)

/-- Among values of documents with delimited keys the text of a literal says which value it is. -/
theorem literalText_eq_iff {v w : Value} (jsonV : v.isJson) (jsonW : w.isJson)
    (keysV : v.HasDelimitedKeys) (keysW : w.HasDelimitedKeys) : v.literalText = w.literalText ↔ v = w := by
  constructor
  · intro same
    have chars : v.literalChars ++ [] = w.literalChars ++ [] := by
      rw [String.ofList_injective same]
    have ends : Stops [] := by simp [Stops]
    exact (tellsApart_literalChars jsonV jsonW keysV keysW [] [] ends ends chars).1
  · rintro rfl
    rfl

/-- A map with a text that looks like the end of a text and another entry. -/
def quotedEntry : Value :=
  .map [(.text "a", .text "\", b: \"x")]

/-- The map that it would be if the text were not quoted. -/
def unquotedEntry : Value :=
  .map [(.text "a", .text ""), (.text "b", .text "x")]

/-- No text breaks out of its quotation marks. -/
theorem literalText_eq_iff_quotedEntry :
    quotedEntry.isJson ∧ unquotedEntry.isJson ∧ quotedEntry.HasDelimitedKeys ∧
      unquotedEntry.HasDelimitedKeys ∧ quotedEntry.literalText ≠ unquotedEntry.literalText := by
  have keyA : (text "a").IsDelimited := by
    unfold IsDelimited
    decide
  have keyB : (text "b").IsDelimited := by
    unfold IsDelimited
    decide
  have jsonQuoted : quotedEntry.isJson := by decide
  have jsonUnquoted : unquotedEntry.isJson := by decide
  have keysQuoted : quotedEntry.HasDelimitedKeys := by simp [quotedEntry, HasDelimitedKeys, keyA]
  have keysUnquoted : unquotedEntry.HasDelimitedKeys := by
    simp [unquotedEntry, HasDelimitedKeys, keyA, keyB]
  have different : quotedEntry ≠ unquotedEntry := by simp [quotedEntry, unquotedEntry]
  refine ⟨jsonQuoted, jsonUnquoted, keysQuoted, keysUnquoted, ?_⟩
  rw [ne_eq, literalText_eq_iff jsonQuoted jsonUnquoted keysQuoted keysUnquoted]
  exact different

/-! ## Keys that hold a separator -/

/-- Two entries have the text of one entry under a longer key. -/
theorem literalText_longer_key (key other : String) (item otherItem : Value) (rest : List (Value × Value)) :
    literalText (.map ((.text key, item) :: (.text other, otherItem) :: rest)) =
      literalText (.map ((.text (key ++ ": " ++ literalText item ++ ", " ++ other), otherItem) :: rest)) := by
  rw [literalText, literalText, literalChars, literalChars, literalEntries_eq_map, literalEntries_eq_map]
  simp only [List.map_cons, joinChars_eq_append, piecesBehind_cons]
  simp [entryChars, asText, literalText, comma]

def twoEntries : Value :=
  .map [(.text "a", .int 1), (.text "b", .int 2)]

/-- A map with one entry, whose key looks like an entry and a key. -/
def longKey : Value :=
  .map [(.text "a: 1, b", .int 2)]

/-- A key can change the shape of the text. -/
theorem not_literalText_injective : twoEntries.isJson ∧ longKey.isJson ∧ longKey ≠ twoEntries ∧
    longKey.literalText = twoEntries.literalText := by
  refine ⟨by decide, by decide, by simp [longKey, twoEntries], ?_⟩
  exact (literalText_longer_key "a" "b" (.int 1) (.int 2) []).symm

end Value

end GraphQuery
