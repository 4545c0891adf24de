import GraphQuery.Json.Reader
import Mathlib.Tactic.SplitIfs

/-! # Quoted text reads back

`Text.takeQuoted` takes a quoted text off the front of what follows its opening quotation mark. It
undoes the escapes of every character, so it gets back every text that was quoted without escaping
what is beyond ASCII.
-/

namespace GraphQuery.Text

/-- Takes a text off what follows an opening quotation mark. -/
def takeQuoted : List Char → Option (List Char × List Char)
  | '"' :: rest => some ([], rest)
  | '\\' :: 'u' :: a :: b :: c :: d :: rest =>
    match Json.ofHex? [a, b, c, d], takeQuoted rest with
    | some unit, some (cs, after) => some (Char.ofNat unit :: cs, after)
    | _, _ => none
  | '\\' :: c :: rest =>
    match Json.simpleEscape? c, takeQuoted rest with
    | some escaped, some (cs, after) => some (escaped :: cs, after)
    | _, _ => none
  | c :: rest => (takeQuoted rest).map fun (cs, after) => (c :: cs, after)
  | [] => none

theorem ofHex?_hexDigits {n : Nat} (small : n < 32) : Json.ofHex? (hexDigits 4 n) = some n := by
  revert n
  decide

private theorem takeQuoted_unicodeEscape {c : Char} (small : c.toNat < 32) (rest : List Char) :
    takeQuoted (unicodeEscape c.toNat ++ rest) =
      (takeQuoted rest).map fun (cs, after) => (c :: cs, after) := by
  have digits := ofHex?_hexDigits small
  simp only [unicodeEscape, hexDigits, List.nil_append, List.cons_append, takeQuoted] at digits ⊢
  rw [digits]
  cases takeQuoted rest with
  | none => rfl
  | some found => simp

private theorem takeQuoted_simpleEscape {letter c : Char} (escape : Json.simpleEscape? letter = some c)
    (rest : List Char) : takeQuoted ('\\' :: letter :: rest) =
      (takeQuoted rest).map fun (cs, after) => (c :: cs, after) := by
  have other : letter ≠ 'u' := by
    rintro rfl
    simp [Json.simpleEscape?] at escape
  rw [takeQuoted]
  · rw [escape]
    cases takeQuoted rest with
    | none => rfl
    | some found => rfl
  · intro a b c d rest' same
    exact absurd same other

private theorem takeQuoted_plain {c : Char} (quote : c ≠ '"') (escape : c ≠ '\\') (rest : List Char) :
    takeQuoted (c :: rest) = (takeQuoted rest).map fun (cs, after) => (c :: cs, after) := by
  rw [takeQuoted]
  · exact fun same => quote same
  · intro a b x d rest' same
    exact absurd same escape
  · intro letter rest' same
    exact absurd same escape

private theorem takeQuoted_escapeQuoted (c : Char) (rest : List Char) :
    takeQuoted (escapeQuoted false c ++ rest) =
      (takeQuoted rest).map fun (cs, after) => (c :: cs, after) := by
  unfold escapeQuoted
  split_ifs with quote backslash newline back tab delete feed control ascii
  · exact takeQuoted_simpleEscape (by rw [quote]; rfl) rest
  · exact takeQuoted_simpleEscape (by rw [backslash]; rfl) rest
  · exact takeQuoted_simpleEscape (by rw [newline]; rfl) rest
  · exact takeQuoted_simpleEscape (by rw [back]; rfl) rest
  · exact takeQuoted_simpleEscape (by rw [tab]; rfl) rest
  · exact takeQuoted_simpleEscape (by rw [delete]; rfl) rest
  · exact takeQuoted_simpleEscape (by rw [feed]; rfl) rest
  · exact takeQuoted_unicodeEscape control rest
  · simp at ascii
  · exact takeQuoted_plain quote backslash rest

/-- A quoted text is taken off whatever follows it. -/
theorem takeQuoted_quotedChars (cs rest : List Char) :
    takeQuoted (cs.flatMap (escapeQuoted false) ++ '"' :: rest) = some (cs, rest) := by
  induction cs with
  | nil => rfl
  | cons c cs ih => rw [List.flatMap_cons, List.append_assoc, takeQuoted_escapeQuoted, ih]; rfl

end GraphQuery.Text
