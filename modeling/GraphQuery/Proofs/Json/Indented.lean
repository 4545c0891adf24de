import GraphQuery.Proofs.Assoc
import GraphQuery.Proofs.Text.Quoted

/-! # Indented documents read back

The reader gets back every document whose scalars are texts from its indented form, whatever stands
behind it. Line breaks are blanks of the grammar, and two units of fuel per character are enough.
-/

namespace GraphQuery.Json

/-! ## Texts -/

private theorem readText_digits {a b c d : Char} {unit : Nat} (digits : ofHex? [a, b, c, d] = some unit)
    (single : isHighSurrogate unit = false) (opening : Nat) (next : Char) (rest : List Char) :
    readText opening ('\\' :: 'u' :: a :: b :: c :: d :: next :: rest) =
      consChar (ofUnit unit) (readText opening (next :: rest)) := by
  by_cases another : ∃ e f g h after more, next = '\\' ∧ rest = 'u' :: e :: f :: g :: h :: after :: more
  · obtain ⟨e, f, g, h, after, more, rfl, rfl⟩ := another
    rw [readText, digits]
    simp only [single, Bool.false_eq_true, if_false]
  · rw [readText, digits]
    exact fun e f g h after more first others => another ⟨e, f, g, h, after, more, first, others⟩

private theorem readText_control {c : Char} (control : c.toNat < 32) (opening : Nat) (next : Char)
    (rest : List Char) : readText opening (Text.unicodeEscape c.toNat ++ next :: rest) =
      consChar c (readText opening (next :: rest)) := by
  have digits := Text.ofHex?_hexDigits control
  have single : isHighSurrogate c.toNat = false := by
    rw [isHighSurrogate, Bool.and_eq_false_iff]
    exact .inl (decide_eq_false (by omega))
  have same : ofUnit c.toNat = c := by
    rw [ofUnit, if_neg (by simp; omega), Char.ofNat_toNat]
  have read := readText_digits digits single opening next rest
  rwa [same] at read

private theorem readText_simple {letter c : Char} (escape : simpleEscape? letter = some c) (opening : Nat)
    (rest : List Char) :
    readText opening ('\\' :: letter :: rest) = consChar c (readText opening rest) := by
  have other : letter ≠ 'u' := by
    rintro rfl
    simp [simpleEscape?] at escape
  rw [readText]
  · rw [escape]
  · exact fun _ _ _ _ _ _ _ _ _ _ same => absurd same other
  · exact fun _ _ _ _ _ _ same => absurd same other
  · exact fun same => absurd same other

private theorem readText_plain {c : Char} (quote : c ≠ '"') (escape : c ≠ '\\') (printed : ¬ c.toNat < 32)
    (opening : Nat) (rest : List Char) :
    readText opening (c :: rest) = consChar c (readText opening rest) := by
  rw [readText]
  · rw [if_neg printed]
  · exact fun same => quote same
  all_goals intros; simp_all

private theorem readText_escapeQuoted (c : Char) (opening : Nat) (next : Char) (rest : List Char) :
    readText opening (Text.escapeQuoted false c ++ next :: rest) =
      consChar c (readText opening (next :: rest)) := by
  unfold Text.escapeQuoted
  split_ifs with quote backslash newline back tab delete feed control ascii
  · exact readText_simple (by rw [quote]; rfl) opening _
  · exact readText_simple (by rw [backslash]; rfl) opening _
  · exact readText_simple (by rw [newline]; rfl) opening _
  · exact readText_simple (by rw [back]; rfl) opening _
  · exact readText_simple (by rw [tab]; rfl) opening _
  · exact readText_simple (by rw [delete]; rfl) opening _
  · exact readText_simple (by rw [feed]; rfl) opening _
  · exact readText_control control opening next rest
  · simp at ascii
  · exact readText_plain quote backslash control opening _

/-- A quoted text is read back, whatever follows it. -/
theorem readText_quoted (opening : Nat) (cs rest : List Char) :
    readText opening (cs.flatMap (Text.escapeQuoted false) ++ '"' :: rest) = .ok (cs, rest) := by
  induction cs with
  | nil => rfl
  | cons c cs ih =>
    obtain ⟨next, more, shape⟩ : ∃ next more,
        cs.flatMap (Text.escapeQuoted false) ++ '"' :: rest = next :: more :=
      List.exists_cons_of_ne_nil (by simp)
    rw [List.flatMap_cons, List.append_assoc, shape, readText_escapeQuoted, ← shape, ih]
    rfl

/-! ## Documents of texts -/

/-- A document whose scalars are texts, with distinct names in every object. -/
inductive IsTextual : Json → Prop where
  | text (s : String) : IsTextual (.text s)
  | array {items : List Json} : (∀ item ∈ items, IsTextual item) → IsTextual (.array items)
  | object {fields : List (String × Json)} : (fields.map Prod.fst).Nodup →
    (∀ field ∈ fields, IsTextual field.2) → IsTextual (.object fields)

@[simp] private theorem skipBlanks_lineBreak (level : Nat) (rest : List Char) :
    skipBlanks (lineBreak level ++ rest) = skipBlanks rest := by
  have blanks (count : Nat) : skipBlanks (List.replicate count ' ' ++ rest) = skipBlanks rest := by
    induction count with
    | zero => rfl
    | succ count ih => rwa [List.replicate_succ, List.cons_append, skipBlanks, if_pos (by decide)]
  rw [lineBreak, List.cons_append, skipBlanks, if_pos (by decide), blanks]

private theorem skipBlanks_comma (rest : List Char) : skipBlanks (',' :: rest) = ',' :: rest := by
  simp [skipBlanks]

private theorem skipBlanks_colon (rest : List Char) : skipBlanks (':' :: rest) = ':' :: rest := by
  simp [skipBlanks]

private inductive Opens : List Char → Prop where
  | quote (rest : List Char) : Opens ('"' :: rest)
  | bracket (rest : List Char) : Opens ('[' :: rest)
  | brace (rest : List Char) : Opens ('\x7b' :: rest)

private theorem Opens.skipBlanks {cs : List Char} (opens : Opens cs) : skipBlanks cs = cs := by
  cases opens <;> rfl

private theorem Opens.append {cs : List Char} (opens : Opens cs) (rest : List Char) : Opens (cs ++ rest) := by
  cases opens
  · exact .quote _
  · exact .bracket _
  · exact .brace _

private theorem IsTextual.opens {document : Json} (textual : document.IsTextual) (level : Nat) :
    Opens (indentedChars level document) := by
  cases textual with
  | text s => exact .quote _
  | array all =>
    rename_i items
    cases items
    · exact .bracket _
    · exact .bracket _
  | object distinct all =>
    rename_i fields
    cases fields
    · exact .brace _
    · exact .brace _

private def ReadsBack (document : Json) : Prop :=
  ∀ (level fuel : Nat) (rest : List Char), 2 * (indentedChars level document).length ≤ fuel →
    readValue fuel (indentedChars level document ++ rest) = .ok (document, rest)

private theorem one_le_length_lineBreak (level : Nat) : 1 ≤ (lineBreak level).length :=
  Nat.succ_le_succ (Nat.zero_le _)

section Rows

variable {level fuel : Nat} {rest after : List Char}

private theorem indentedItems_cons_cons (level : Nat) (item other : Json) (more : List Json) :
    indentedItems level (item :: other :: more) =
      lineBreak level ++ indentedChars level item ++ ',' :: indentedItems level (other :: more) := by
  rw [indentedItems]
  simp

private theorem opens_indentedItems {item : Json} (textual : item.IsTextual) (level : Nat)
    (others : List Json) (rest : List Char) :
    Opens (skipBlanks (indentedItems level (item :: others) ++ rest)) := by
  obtain ⟨behind, same⟩ : ∃ behind, indentedItems level (item :: others) ++ rest =
      lineBreak level ++ (indentedChars level item ++ behind) := by
    cases others with
    | nil => exact ⟨rest, by rw [indentedItems, List.append_assoc]⟩
    | cons other more => exact ⟨_, by rw [indentedItems_cons_cons, List.append_assoc, List.append_assoc]⟩
  have opens := (textual.opens level).append behind
  rwa [same, skipBlanks_lineBreak, opens.skipBlanks]

private theorem readItems_indentedItems {items : List Json} (filled : items ≠ [])
    (textual : ∀ item ∈ items, item.IsTextual) (read : ∀ item ∈ items, ReadsBack item)
    (enough : 2 * (indentedItems level items).length ≤ fuel) (closed : skipBlanks rest = ']' :: after) :
    readItems fuel (skipBlanks (indentedItems level items ++ rest)) = .ok (items, after) := by
  induction items generalizing fuel with
  | nil => exact absurd rfl filled
  | cons item others ih =>
    obtain ⟨opening, textual⟩ := List.forall_mem_cons.mp textual
    obtain ⟨first, read⟩ := List.forall_mem_cons.mp read
    have broken := one_le_length_lineBreak level
    have start (cs : List Char) : skipBlanks (lineBreak level ++ indentedChars level item ++ cs) =
        indentedChars level item ++ cs := by
      rw [List.append_assoc, skipBlanks_lineBreak, ((opening.opens level).append cs).skipBlanks]
    cases others with
    | nil =>
      rw [indentedItems, List.length_append] at enough
      obtain ⟨fuel, rfl⟩ := Nat.exists_eq_add_of_le' (show 1 ≤ fuel by omega)
      rw [indentedItems, start, readItems, first level fuel rest (by omega)]
      simp only [bind, Except.bind, closed]
    | cons other more =>
      rw [indentedItems_cons_cons, List.length_append, List.length_append, List.length_cons] at enough
      obtain ⟨fuel, rfl⟩ := Nat.exists_eq_add_of_le' (show 1 ≤ fuel by omega)
      have later := @ih fuel (List.cons_ne_nil _ _) textual read (by omega)
      rw [indentedItems_cons_cons, List.append_assoc, start, List.cons_append, readItems,
        first level fuel _ (by omega)]
      simp only [bind, Except.bind, skipBlanks_comma, later]

private theorem indentedFields_cons_cons (level : Nat) (name : String) (item : Json)
    (other : String × Json) (more : List (String × Json)) :
    indentedFields level ((name, item) :: other :: more) =
      lineBreak level ++ Text.quotedChars false name.toList ++ [':', ' '] ++ indentedChars level item ++
        ',' :: indentedFields level (other :: more) := by
  rw [indentedFields]
  simp

private theorem opens_indentedFields (level : Nat) (field : String × Json)
    (others : List (String × Json)) (rest : List Char) :
    Opens (skipBlanks (indentedFields level (field :: others) ++ rest)) := by
  obtain ⟨name, item⟩ := field
  obtain ⟨behind, same⟩ : ∃ behind, indentedFields level ((name, item) :: others) ++ rest =
      lineBreak level ++ '"' :: behind := by
    cases others with
    | nil =>
      simp only [indentedFields, Text.quotedChars, List.append_assoc, List.cons_append]
      exact ⟨_, rfl⟩
    | cons other more =>
      simp only [indentedFields_cons_cons, Text.quotedChars, List.append_assoc, List.cons_append]
      exact ⟨_, rfl⟩
  rw [same, skipBlanks_lineBreak, (Opens.quote behind).skipBlanks]
  exact .quote behind

private theorem readFields_indentedFields {fields : List (String × Json)} (filled : fields ≠ [])
    (textual : ∀ field ∈ fields, field.2.IsTextual) (read : ∀ field ∈ fields, ReadsBack field.2)
    (enough : 2 * (indentedFields level fields).length ≤ fuel)
    (closed : skipBlanks rest = '\x7d' :: after) :
    readFields fuel (skipBlanks (indentedFields level fields ++ rest)) = .ok (fields, after) := by
  induction fields generalizing fuel with
  | nil => exact absurd rfl filled
  | cons field others ih =>
    obtain ⟨name, item⟩ := field
    obtain ⟨opening, textual⟩ := List.forall_mem_cons.mp textual
    obtain ⟨first, read⟩ := List.forall_mem_cons.mp read
    change item.IsTextual at opening
    change ReadsBack item at first
    have broken := one_le_length_lineBreak level
    have start (cs : List Char) :
        skipBlanks (lineBreak level ++ Text.quotedChars false name.toList ++ [':', ' '] ++
          indentedChars level item ++ cs) =
        '"' :: (name.toList.flatMap (Text.escapeQuoted false) ++ '"' :: ':' :: ' ' ::
          (indentedChars level item ++ cs)) := by
      simp [Text.quotedChars, skipBlanks]
    have value (cs : List Char) : skipBlanks (' ' :: (indentedChars level item ++ cs)) =
        indentedChars level item ++ cs := by
      rw [skipBlanks, if_pos (by decide), ((opening.opens level).append cs).skipBlanks]
    cases others with
    | nil =>
      simp only [indentedFields, List.length_append] at enough
      obtain ⟨fuel, rfl⟩ := Nat.exists_eq_add_of_le' (show 1 ≤ fuel by omega)
      rw [indentedFields, start, readFields]
      simp only [bind, Except.bind, readText_quoted, skipBlanks_colon, value,
        first level fuel rest (by omega), closed, String.ofList_toList]
    | cons other more =>
      simp only [indentedFields_cons_cons, List.length_append, List.length_cons] at enough
      obtain ⟨fuel, rfl⟩ := Nat.exists_eq_add_of_le' (show 1 ≤ fuel by omega)
      have later := @ih fuel (List.cons_ne_nil _ _) textual read (by omega)
      rw [indentedFields_cons_cons, List.append_assoc _ _ rest, start, List.cons_append, readFields]
      simp only [bind, Except.bind, readText_quoted, skipBlanks_colon, value,
        first level fuel _ (show _ ≤ fuel by omega), skipBlanks_comma, later, String.ofList_toList]

end Rows

/-! ## The document -/

private theorem IsTextual.readsBack {document : Json} (textual : document.IsTextual) :
    ReadsBack document := by
  induction textual with
  | text s =>
    intro level fuel rest enough
    obtain ⟨fuel, rfl⟩ := Nat.exists_eq_add_of_le' (show 1 ≤ fuel from
      Nat.le_trans (by simp [indentedChars, scalarChars, Text.quotedChars]; omega) enough)
    simp only [indentedChars, scalarChars, Text.quotedChars, List.cons_append, List.append_assoc,
      List.nil_append, readValue, bind, Except.bind, readText_quoted, String.ofList_toList]
  | @array items textual read =>
    intro level fuel rest enough
    cases items with
    | nil =>
      cases fuel with
      | zero => simp [indentedChars] at enough
      | succ fuel => rfl
    | cons item others =>
      simp only [indentedChars, List.length_append, List.length_cons] at enough
      obtain ⟨fuel, rfl⟩ := Nat.exists_eq_add_of_le' (show 1 ≤ fuel by omega)
      have inside : readItems fuel (skipBlanks (indentedItems (level + 1) (item :: others) ++
          (lineBreak level ++ ']' :: rest))) = .ok (item :: others, rest) :=
        readItems_indentedItems (List.cons_ne_nil item others) textual read (by omega) (by simp [skipBlanks])
      have opens := opens_indentedItems (textual item List.mem_cons_self) (level + 1) others
        (lineBreak level ++ ']' :: rest)
      simp only [indentedChars, List.cons_append, List.append_assoc, List.nil_append, readValue]
      split
      · rename_i same
        rw [same] at opens
        cases opens
      · rw [inside]
        rfl
  | @object fields distinct textual read =>
    intro level fuel rest enough
    cases fields with
    | nil =>
      cases fuel with
      | zero => simp [indentedChars] at enough
      | succ fuel => rfl
    | cons field others =>
      simp only [indentedChars, List.length_append, List.length_cons] at enough
      obtain ⟨fuel, rfl⟩ := Nat.exists_eq_add_of_le' (show 1 ≤ fuel by omega)
      have inside : readFields fuel (skipBlanks (indentedFields (level + 1) (field :: others) ++
          (lineBreak level ++ '\x7d' :: rest))) = .ok (field :: others, rest) :=
        readFields_indentedFields (List.cons_ne_nil field others) textual read (by omega)
          (by simp [skipBlanks])
      have opens := opens_indentedFields (level + 1) field others (lineBreak level ++ '\x7d' :: rest)
      simp only [indentedChars, List.cons_append, List.append_assoc, List.nil_append, readValue]
      split
      · rename_i same
        rw [same] at opens
        cases opens
      · rw [inside]
        simp only [bind, Except.bind, Assoc.ofPairs_eq_self distinct]

/-- The indented form of a document of texts reads back, also with a newline at its end. -/
theorem parse_writeIndented {document : Json} (textual : document.IsTextual) :
    parse (writeIndented document ++ "\n") = .ok document := by
  have opens := (textual.opens 0).append ['\n']
  have read := textual.readsBack 0 (2 * (indentedChars 0 document ++ ['\n']).length + 2) ['\n']
    (by simp; omega)
  rw [parse, writeIndented, String.toList_append, String.toList_ofList]
  change parseChars (indentedChars 0 document ++ ['\n']) = _
  unfold parseChars
  split
  · rename_i same
    rw [same] at opens
    cases opens
  · rw [opens.skipBlanks, read]
    rfl

/-! ## Carriage returns

Files are read with plain newlines, so a document must have no carriage return of its own.
-/

private theorem return_notMem_unicodeEscape {n : Nat} (small : n < 32) : '\r' ∉ Text.unicodeEscape n := by
  revert n
  decide

private theorem return_notMem_escapeQuoted (c : Char) : '\r' ∉ Text.escapeQuoted false c := by
  unfold Text.escapeQuoted
  split_ifs with quote backslash newline back tab delete feed control ascii
  · decide
  · decide
  · decide
  · decide
  · decide
  · decide
  · decide
  · exact return_notMem_unicodeEscape control
  · simp at ascii
  · rw [List.mem_singleton]
    exact fun same => back same.symm

private theorem return_notMem_quotedChars (cs : List Char) : '\r' ∉ Text.quotedChars false cs := by
  simp [Text.quotedChars, return_notMem_escapeQuoted]

private theorem return_notMem_lineBreak (level : Nat) : '\r' ∉ lineBreak level := by
  simp [lineBreak, List.mem_replicate]

private theorem return_notMem_indentedItems {items : List Json}
    (free : ∀ item ∈ items, ∀ level, '\r' ∉ indentedChars level item) (level : Nat) :
    '\r' ∉ indentedItems level items := by
  induction items with
  | nil => simp [indentedItems]
  | cons item others ih =>
    obtain ⟨first, free⟩ := List.forall_mem_cons.mp free
    cases others with
    | nil => simp [indentedItems, return_notMem_lineBreak, first]
    | cons other more => simp [indentedItems_cons_cons, return_notMem_lineBreak, first, ih free]

private theorem return_notMem_indentedFields {fields : List (String × Json)}
    (free : ∀ field ∈ fields, ∀ level, '\r' ∉ indentedChars level field.2) (level : Nat) :
    '\r' ∉ indentedFields level fields := by
  induction fields with
  | nil => simp [indentedFields]
  | cons field others ih =>
    obtain ⟨name, item⟩ := field
    obtain ⟨first, free⟩ := List.forall_mem_cons.mp free
    cases others with
    | nil => simp [indentedFields, return_notMem_lineBreak, return_notMem_quotedChars, first]
    | cons other more =>
      simp [indentedFields_cons_cons, return_notMem_lineBreak, return_notMem_quotedChars, first, ih free]

/-- The indented form of a document of texts has no carriage return: those of its texts are
escaped. -/
theorem return_notMem_indentedChars {document : Json} (textual : document.IsTextual) (level : Nat) :
    '\r' ∉ indentedChars level document := by
  induction textual generalizing level with
  | text s => exact return_notMem_quotedChars s.toList
  | @array items textual free =>
    cases items with
    | nil => simp [indentedChars]
    | cons item others =>
      simp [indentedChars, return_notMem_lineBreak, return_notMem_indentedItems free]
  | @object fields distinct textual free =>
    cases fields with
    | nil => simp [indentedChars]
    | cons field others =>
      simp [indentedChars, return_notMem_lineBreak, return_notMem_indentedFields free]

end GraphQuery.Json
