import GraphQuery.Proofs.Decimal.Text
import GraphQuery.Proofs.Text.Quoted
import GraphQuery.Query.Text
import GraphQuery.Text.Identifier

/-! # Tokens of the query language

A text is split into tokens from the left, and a token is as long as it can be. Blanks only keep
tokens apart. `Lexes` says which tokens the characters of a piece of a text are, whatever follows
the piece, as long as that starts with a character that may follow an expression.
-/

namespace GraphQuery.Cypher

open Decimal

/-- Tokens. A symbol is a mark or a keyword. -/
inductive Token where
  | name (s : String)
  | number (n : Numeral)
  | text (s : String)
  | symbol (s : String)
  deriving DecidableEq, Repr

def keywords : List String := [
  "OR", "XOR", "AND", "NOT", "IN", "CONTAINS", "STARTS", "ENDS", "WITH", "IS", "NULL",
  "null", "true", "false", "NaN", "Infinity"
]

def marks : List Char := "=<>+-*/%()[]\x7b\x7d,:.$".toList

/-- Whether a text is read as a name: an identifier that is no keyword. -/
def isPlainName (s : String) : Bool :=
  Text.isIdentifier s.toList && !keywords.contains s

def ofWord (s : String) : Token :=
  if keywords.contains s then .symbol s else .name s

/-- Takes a mark off a text, the longer one of two. -/
def takeMark (c : Char) (rest : List Char) : Option (Token × List Char) :=
  match c, rest with
  | '<', '>' :: rest => some (.symbol "<>", rest)
  | '<', '=' :: rest => some (.symbol "<=", rest)
  | '>', '=' :: rest => some (.symbol ">=", rest)
  | c, rest => if marks.contains c then some (.symbol (String.ofList [c]), rest) else none

/-- Takes a token off a text that starts with the given character. -/
def takeToken (c : Char) (rest : List Char) : Option (Token × List Char) :=
  if c = '"' then
    (Text.takeQuoted rest).map fun (cs, after) => (.text (String.ofList cs), after)
  else if Text.startsIdentifier c then
    some (ofWord (String.ofList (c :: rest.takeWhile Text.continuesIdentifier)),
      rest.dropWhile Text.continuesIdentifier)
  else if c.isDigit then
    (Numeral.read? (c :: rest)).map fun (n, after) => (.number n, after)
  else takeMark c rest

/-! ## A token is at least one character long -/

private theorem length_takeQuoted_lt {cs taken after : List Char}
    (found : Text.takeQuoted cs = some (taken, after)) : after.length < cs.length := by
  fun_induction Text.takeQuoted cs generalizing taken after with
  | case1 rest =>
    obtain ⟨-, rfl⟩ := by simpa using found
    simp
  | case2 a b c d rest unit cs' after' inner _ ih =>
    obtain ⟨-, rfl⟩ := by simpa using found
    have shorter := ih inner
    simp only [List.length_cons]
    omega
  | case3 => simp at found
  | case4 c rest _ escaped cs' after' inner _ ih =>
    obtain ⟨-, rfl⟩ := by simpa using found
    have shorter := ih inner
    simp only [List.length_cons]
    omega
  | case5 => simp at found
  | case6 c rest _ _ _ ih =>
    obtain ⟨⟨taken', after'⟩, inner, same⟩ := Option.map_eq_some_iff.mp found
    obtain ⟨-, rfl⟩ := by simpa using same
    have shorter := ih inner
    simp only [List.length_cons]
    omega
  | case7 => simp at found

private theorem length_takeFraction_le (cs : List Char) :
    (Numeral.takeFraction cs).2.length ≤ cs.length := by
  unfold Numeral.takeFraction
  split
  · rename_i rest
    split
    · simp
    · exact (List.dropWhile_sublist _).length_le.trans (Nat.le_succ _)
  · simp

private theorem length_takeExponent_le (cs : List Char) :
    (Numeral.takeExponent cs).2.length ≤ cs.length := by
  unfold Numeral.takeExponent
  split
  · exact (List.dropWhile_sublist _).length_le.trans (by simp only [List.length_cons]; omega)
  · exact (List.dropWhile_sublist _).length_le.trans (by simp only [List.length_cons]; omega)
  · simp

private theorem length_read?_le {c : Char} {rest after : List Char} {n : Numeral}
    (found : Numeral.read? (c :: rest) = some (n, after)) : after.length ≤ rest.length := by
  simp only [Numeral.read?] at found
  split at found
  · simp at found
  · rename_i nonempty
    have digit : c.isDigit = true := by
      by_contra other
      exact nonempty (List.takeWhile_cons_of_neg other)
    obtain ⟨-, rfl⟩ := by simpa using found
    refine (length_takeExponent_le _).trans ((length_takeFraction_le _).trans ?_)
    rw [List.dropWhile_cons_of_pos digit]
    exact (List.dropWhile_sublist _).length_le

private theorem length_takeMark_le {c : Char} {rest after : List Char} {t : Token}
    (found : takeMark c rest = some (t, after)) : after.length ≤ rest.length := by
  unfold takeMark at found
  split at found
  · obtain ⟨-, rfl⟩ := by simpa using found
    simp
  · obtain ⟨-, rfl⟩ := by simpa using found
    simp
  · obtain ⟨-, rfl⟩ := by simpa using found
    simp
  · obtain ⟨-, -, rfl⟩ := by simpa using found
    exact le_rfl

theorem length_takeToken_le {c : Char} {rest after : List Char} {t : Token}
    (found : takeToken c rest = some (t, after)) : after.length ≤ rest.length := by
  unfold takeToken at found
  split at found
  · obtain ⟨⟨cs, after'⟩, inner, same⟩ := Option.map_eq_some_iff.mp found
    obtain ⟨-, rfl⟩ := by simpa using same
    exact (length_takeQuoted_lt inner).le
  · split at found
    · obtain ⟨-, rfl⟩ := by simpa using found
      exact (List.dropWhile_sublist _).length_le
    · split at found
      · obtain ⟨⟨n, after'⟩, inner, same⟩ := Option.map_eq_some_iff.mp found
        obtain ⟨-, rfl⟩ := by simpa using same
        exact length_read?_le inner
      · exact length_takeMark_le found

def lex : List Char → Option (List Token)
  | [] => some []
  | c :: rest =>
    if c = ' ' then lex rest
    else
      match _found : takeToken c rest with
      | none => none
      | some (t, after) => (lex after).map (t :: ·)
termination_by cs => cs.length
decreasing_by
  · simp
  · exact Nat.lt_succ_of_le (length_takeToken_le _found)

theorem lex_blank (rest : List Char) : lex (' ' :: rest) = lex rest := by
  rw [lex, if_pos rfl]

theorem lex_cons {c : Char} {rest after : List Char} {t : Token} (visible : c ≠ ' ')
    (found : takeToken c rest = some (t, after)) : lex (c :: rest) = (lex after).map (t :: ·) := by
  rw [lex, if_neg visible]
  split
  · rename_i missing
    rw [found] at missing
    simp at missing
  · rename_i taken
    rw [found] at taken
    obtain ⟨rfl, rfl⟩ := by simpa using taken
    rfl

/-! ## What starts a text -/

/-- The characters that end a name and a numeral. -/
def breakers : List Char := " ()]\x7d,:".toList

/-- Whether a text starts with a character that ends a name and a numeral, if with any. -/
def Breaks (rest : List Char) : Prop :=
  ∀ c ∈ rest.head?, c ∈ breakers

theorem Breaks.cons {c : Char} (breaker : c ∈ breakers) (rest : List Char) : Breaks (c :: rest) := by
  intro first same
  obtain rfl : c = first := by simpa using same
  exact breaker

theorem Breaks.not_continues {rest : List Char} (breaks : Breaks rest) :
    ∀ c ∈ rest.head?, Text.continuesIdentifier c = false := by
  have ends : (breakers.all fun c => Text.continuesIdentifier c = false) = true := by decide
  intro c first
  exact of_decide_eq_true (List.all_eq_true.mp ends c (breaks c first))

theorem Breaks.stops {rest : List Char} (breaks : Breaks rest) : Numeral.Stops rest := by
  have ends : (breakers.all fun c => c.isDigit = false ∧ c ≠ '.' ∧ c ≠ 'e') = true := by decide
  intro c first
  exact of_decide_eq_true (List.all_eq_true.mp ends c (breaks c first))

private theorem takeWhile_append {p : Char → Bool} {cs rest : List Char} (all : cs.all p = true)
    (stops : ∀ c ∈ rest.head?, p c = false) :
    (cs ++ rest).takeWhile p = cs ∧ (cs ++ rest).dropWhile p = rest := by
  rw [List.all_eq_true] at all
  rw [List.takeWhile_append_of_pos all, List.dropWhile_append_of_pos all]
  cases rest with
  | nil => simp
  | cons c rest =>
    have stop := stops c rfl
    simp [stop]

/-- A word is split off whatever does not go on with it. -/
theorem lex_word {cs rest : List Char} (word : Text.isIdentifier cs = true)
    (stops : ∀ c ∈ rest.head?, Text.continuesIdentifier c = false) :
    lex (cs ++ rest) = (lex rest).map (ofWord (String.ofList cs) :: ·) := by
  cases cs with
  | nil => simp [Text.isIdentifier] at word
  | cons c cs =>
    simp only [Text.isIdentifier, Bool.and_eq_true] at word
    obtain ⟨starts, all⟩ := word
    obtain ⟨taken, left⟩ := takeWhile_append all stops
    have visible : c ≠ ' ' := by
      rintro rfl
      exact absurd starts (by decide)
    have unquoted : c ≠ '"' := by
      rintro rfl
      exact absurd starts (by decide)
    rw [List.cons_append]
    apply lex_cons visible
    rw [takeToken, if_neg unquoted, if_pos starts, taken, left]

def singleMarks : List Char := "=+-*/%()[]\x7b\x7d,:.$".toList

theorem lex_mark {c : Char} (single : c ∈ singleMarks) (rest : List Char) :
    lex (c :: rest) = (lex rest).map (.symbol (String.ofList [c]) :: ·) := by
  have classes : (singleMarks.all fun c => c ≠ ' ' ∧ c ≠ '"' ∧ Text.startsIdentifier c = false ∧
      c.isDigit = false ∧ c ≠ '<' ∧ c ≠ '>' ∧ marks.contains c = true) = true := by decide
  obtain ⟨visible, unquoted, noWord, noDigit, notLess, notGreater, mark⟩ :=
    of_decide_eq_true (List.all_eq_true.mp classes c single)
  apply lex_cons visible
  rw [takeToken, if_neg unquoted, if_neg (by simp [noWord]), if_neg (by simp [noDigit])]
  unfold takeMark
  split
  · exact absurd rfl notLess
  · exact absurd rfl notLess
  · exact absurd rfl notGreater
  · rw [if_pos mark]

/-! ## Pieces of a text -/

/-- Whether characters are split into the given tokens, whatever expression they end. -/
def Lexes (cs : List Char) (ts : List Token) : Prop :=
  ∀ rest, Breaks rest → lex (cs ++ rest) = (lex rest).map (ts ++ ·)

namespace Lexes

theorem nil : Lexes [] [] := by
  intro rest _
  simp

theorem word {cs : List Char} (identifier : Text.isIdentifier cs = true) :
    Lexes cs [ofWord (String.ofList cs)] := by
  intro rest breaks
  rw [lex_word identifier breaks.not_continues]
  rfl

theorem name {s : String} (plain : isPlainName s = true) : Lexes s.toList [.name s] := by
  simp only [isPlainName, Bool.and_eq_true, Bool.not_eq_true'] at plain
  have lexes := word plain.1
  rwa [String.ofList_toList, ofWord, plain.2, if_neg Bool.false_ne_true] at lexes

theorem keyword {s : String} (identifier : Text.isIdentifier s.toList = true)
    (known : keywords.contains s = true) : Lexes s.toList [.symbol s] := by
  have lexes := word identifier
  rwa [String.ofList_toList, ofWord, if_pos known] at lexes

theorem number {n : Numeral} (formed : n.WellFormed) : Lexes n.chars [.number n] := by
  intro rest breaks
  obtain ⟨c, cs, written, digit⟩ : ∃ c cs, n.chars = c :: cs ∧ c.isDigit = true := by
    obtain ⟨c, whole, same⟩ := List.exists_cons_of_ne_nil formed.whole_ne_nil
    rw [Numeral.chars, same]
    exact ⟨c, _, rfl, formed.whole c (by simp [same])⟩
  have taken := Numeral.read?_chars formed breaks.stops
  rw [written] at taken ⊢
  have classes : c ≠ ' ' ∧ c ≠ '"' ∧ Text.startsIdentifier c = false := by
    refine ⟨?_, ?_, ?_⟩
    · rintro rfl
      exact absurd digit (by decide)
    · rintro rfl
      exact absurd digit (by decide)
    · by_contra starts
      simp only [Text.startsIdentifier, Bool.not_eq_false, Bool.or_eq_true, beq_iff_eq] at starts
      rcases starts with letter | rfl
      · simp only [Char.isAlpha, Char.isUpper, Char.isLower, Char.isDigit, Bool.and_eq_true,
          Bool.or_eq_true, decide_eq_true_eq, ge_iff_le, UInt32.le_iff_toNat_le, Char.reduceVal,
          UInt32.reduceToNat]
          at letter digit
        omega
      · exact absurd digit (by decide)
  obtain ⟨visible, unquoted, noWord⟩ := classes
  rw [List.cons_append] at taken ⊢
  rw [lex_cons (t := .number n) visible (by
    rw [takeToken, if_neg unquoted, if_neg (by simp [noWord]), if_pos digit, taken]; rfl)]
  rfl

theorem quoted (s : String) : Lexes (Text.quotedChars false s.toList) [.text s] := by
  intro rest _
  have taken := Text.takeQuoted_quotedChars s.toList rest
  rw [Text.quotedChars, List.cons_append, List.cons_append, List.append_assoc, List.singleton_append]
  have found : takeToken '"' (s.toList.flatMap (Text.escapeQuoted false) ++ '"' :: rest) =
      some (.text s, rest) := by
    rw [takeToken, if_pos rfl, taken]
    simp
  rw [lex_cons (by decide) found]
  rfl

section Pieces

variable {cs others : List Char} {ts us : List Token}

theorem blank (lexes : Lexes cs ts) : Lexes (' ' :: cs) ts := by
  intro rest breaks
  rw [List.cons_append, lex_blank, lexes rest breaks]

theorem mark {c : Char} (single : c ∈ singleMarks) (lexes : Lexes cs ts) :
    Lexes (c :: cs) (.symbol (String.ofList [c]) :: ts) := by
  intro rest breaks
  rw [List.cons_append, lex_mark single, lexes rest breaks, Option.map_map]
  rfl

theorem append {c : Char} (breaker : c ∈ breakers)
    (first : Lexes cs ts) (second : Lexes (c :: others) us) : Lexes (cs ++ c :: others) (ts ++ us) := by
  intro rest breaks
  have behind := first (c :: others ++ rest) (Breaks.cons breaker _)
  rw [List.append_assoc, behind, second rest breaks, Option.map_map]
  simp [Function.comp_def]

end Pieces

end Lexes

end GraphQuery.Cypher
