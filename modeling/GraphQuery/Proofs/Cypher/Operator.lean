import GraphQuery.Proofs.Cypher.Reader

/-! # Operators as tokens

Every operator that a query may hold is split into tokens that the reader takes for it, and for no
operator of another level. `Stops k` says that tokens do not go on with an operator of level `k` or
of a tighter one.
-/

namespace GraphQuery.Cypher

/-! ## Symbols -/

@[simp] theorem take?_symbol (s : String) (rest : List Token) : take? s (.symbol s :: rest) = some rest :=
  if_pos rfl

theorem take?_of_ne {s t : String} (other : t ≠ s) (rest : List Token) :
    take? s (.symbol t :: rest) = none :=
  if_neg other

theorem eq_of_take? {s : String} {ts rest : List Token} (taken : take? s ts = some rest) :
    ts = .symbol s :: rest := by
  unfold take? at taken
  split at taken
  · split at taken
    · rename_i same
      obtain rfl := by simpa using taken
      rw [same]
    · simp at taken
  · simp at taken

/-- Whether tokens do not go on with an operator of at least a level. -/
structure Stops (k : Nat) (ts : List Token) : Prop where
  operator : ∀ level, k ≤ level → takeOperator? level ts = none
  test : k ≤ 5 → takeTest? ts = none

theorem Stops.mono {k level : Nat} {ts : List Token} (stops : Stops k ts) (le : k ≤ level) :
    Stops level ts :=
  ⟨fun tighter above => stops.operator tighter (le.trans above), fun below => stops.test (le.trans below)⟩

theorem Stops.nil (k : Nat) : Stops k [] := by
  constructor
  · intro level _
    simp [takeOperator?, operators, takeAll?, take?]
  · intro _
    rfl

private theorem takeOperator?_eq_none {s : String} {level : Nat}
    (other : ∀ entry ∈ operators, entry.2.2.head? = some s → entry.2.1 ≠ level) (rest : List Token) :
    takeOperator? level (.symbol s :: rest) = none := by
  rw [takeOperator?, List.findSome?_eq_none_iff]
  rintro ⟨op, opLevel, words⟩ member
  have nonempty : ∀ entry ∈ operators, entry.2.2 ≠ [] := by decide
  obtain ⟨first, others, rfl⟩ := List.exists_cons_of_ne_nil (nonempty _ member)
  have headed := other _ member
  simp only [List.head?_cons, Option.some.injEq] at headed
  by_cases same : opLevel = level
  · have differs : s ≠ first := fun equal => headed equal.symm same
    simp [same, takeAll?, take?_of_ne differs]
  · simp [same]

private theorem Stops.of_symbol {s : String} {k : Nat}
    (weaker : ∀ entry ∈ operators, entry.2.2.head? = some s → entry.2.1 < k)
    (noTest : s ≠ "IS") (rest : List Token) : Stops k (.symbol s :: rest) := by
  constructor
  · intro level above
    apply takeOperator?_eq_none
    intro entry member headed same
    have below := weaker entry member headed
    omega
  · intro _
    simp [takeTest?, tests, takeAll?, take?_of_ne noTest]

/-- A comma and a closing bracket go on with no operator. -/
theorem Stops.closing {s : String} (closing : s ∈ [")", ",", "]", "\x7d"]) (k : Nat) (rest : List Token) :
    Stops k (.symbol s :: rest) := by
  have noOperator : ∀ s ∈ [")", ",", "]", "\x7d"],
      s ≠ "IS" ∧ ∀ entry ∈ operators, entry.2.2.head? ≠ some s := by decide
  obtain ⟨noTest, noHead⟩ := noOperator s closing
  exact .of_symbol (fun entry member headed => absurd headed (noHead entry member)) noTest rest

/-- The tokens of an operator between operands. -/
structure IsOperator (op : String) (k : Nat) (words : List Token) : Prop where
  lexes : Lexes op.toList words
  nonempty : words ≠ []
  taken : ∀ rest, takeOperator? k (words ++ rest) = some (op, rest)
  stops : ∀ rest, Stops (k + 1) (words ++ rest)

/-- The tokens of a test behind an operand. -/
structure IsTest (op : String) (words : List Token) : Prop where
  lexes : Lexes op.toList words
  nonempty : words ≠ []
  taken : ∀ rest, takeTest? (words ++ rest) = some (op, rest)
  noOperator : ∀ level rest, takeOperator? level (words ++ rest) = none

private theorem lexes_angle {c : Char} (angle : c = '<' ∨ c = '>') :
    Lexes [c] [.symbol (String.ofList [c])] := by
  intro rest breaks
  have found : takeMark c rest = some (.symbol (String.ofList [c]), rest) := by
    unfold takeMark
    split
    · exact absurd (breaks '>' rfl) (by decide)
    · exact absurd (breaks '=' rfl) (by decide)
    · exact absurd (breaks '=' rfl) (by decide)
    · rcases angle with rfl | rfl <;> rfl
  rcases angle with rfl | rfl
  · exact lex_cons (by decide) found
  · exact lex_cons (by decide) found

private theorem lexes_pair {c d : Char} {s : String} (visible : c ≠ ' ')
    (found : ∀ rest, takeToken c (d :: rest) = some (.symbol s, rest)) : Lexes [c, d] [.symbol s] :=
  fun rest _ => lex_cons visible (found rest)

private theorem IsOperator.of_symbol {op s : String} {k : Nat} {more : List Token}
    (lexes : Lexes op.toList (.symbol s :: more))
    (taken : ∀ rest, takeOperator? k (.symbol s :: more ++ rest) = some (op, rest))
    (weaker : ∀ entry ∈ operators, entry.2.2.head? = some s → entry.2.1 < k + 1)
    (noTest : s ≠ "IS") : IsOperator op k (.symbol s :: more) :=
  ⟨lexes, List.cons_ne_nil _ _, taken, fun _ => .of_symbol weaker noTest _⟩

private theorem isOperator_keyword {s : String} {k : Nat} (word : Text.isIdentifier s.toList = true)
    (keyword : keywords.contains s = true)
    (taken : ∀ rest, takeOperator? k (.symbol s :: rest) = some (s, rest))
    (weaker : ∀ entry ∈ operators, entry.2.2.head? = some s → entry.2.1 < k + 1)
    (noTest : s ≠ "IS") : ∃ words, IsOperator s k words :=
  ⟨_, .of_symbol (Lexes.keyword word keyword) taken weaker noTest⟩

private theorem isOperator_with {s : String} (word : Text.isIdentifier s.toList = true)
    (keyword : keywords.contains s = true)
    (taken : ∀ rest, takeOperator? 5 (.symbol s :: .symbol "WITH" :: rest) = some (s ++ " WITH", rest))
    (weaker : ∀ entry ∈ operators, entry.2.2.head? = some s → entry.2.1 < 6)
    (noTest : s ≠ "IS") : ∃ words, IsOperator (s ++ " WITH") 5 words := by
  refine ⟨.symbol s :: [.symbol "WITH"], .of_symbol ?_ taken weaker noTest⟩
  have behind : Lexes (' ' :: "WITH".toList) [.symbol "WITH"] :=
    (Lexes.keyword (by decide) (by decide)).blank
  rw [String.toList_append]
  exact (Lexes.keyword word keyword).append (by decide) behind

private theorem isOperator_mark {c : Char} {k : Nat} (lexes : Lexes [c] [.symbol (String.ofList [c])])
    (taken : ∀ rest, takeOperator? k (.symbol (String.ofList [c]) :: rest) = some (String.ofList [c], rest))
    (weaker : ∀ entry ∈ operators, entry.2.2.head? = some (String.ofList [c]) → entry.2.1 < k + 1)
    (noTest : String.ofList [c] ≠ "IS") : ∃ words, IsOperator (String.ofList [c]) k words :=
  ⟨[.symbol (String.ofList [c])], .of_symbol (by rwa [String.toList_ofList]) taken weaker noTest⟩

theorem mem_of_lookup {Item : Type} {entries : List (String × Item)} {key : String} {item : Item}
    (found : entries.lookup key = some item) : (key, item) ∈ entries := by
  obtain ⟨before, after, rfl, -⟩ := List.lookup_eq_some_iff.mp found
  exact List.mem_append_right _ List.mem_cons_self

/-- Every operator between operands is split into tokens that the reader takes for it. -/
theorem exists_isOperator {op : String} {k : Nat} (known : binaryLevel? op = some k) :
    ∃ words, IsOperator op k words := by
  have single : ∀ c ∈ singleMarks, Lexes [c] [.symbol (String.ofList [c])] :=
    fun c mark => Lexes.nil.mark mark
  have all : ∀ entry ∈ binaryLevels, ∃ words, IsOperator entry.1 entry.2 words := by
    simp only [binaryLevels, List.forall_mem_cons]
    refine ⟨?_, ?_, ?_, ?_, ?_, ?_, ?_, ?_, ?_, ?_, ?_, ?_, ?_, ?_, ?_, ?_, ?_, ?_, ?_⟩
    · exact isOperator_keyword (by decide) (by decide) (fun _ => rfl) (by decide) (by decide)
    · exact isOperator_keyword (by decide) (by decide) (fun _ => rfl) (by decide) (by decide)
    · exact isOperator_keyword (by decide) (by decide) (fun _ => rfl) (by decide) (by decide)
    · exact isOperator_mark (single '=' (by decide)) (fun _ => rfl) (by decide) (by decide)
    · exact ⟨_, .of_symbol (lexes_pair (by decide) fun _ => rfl) (fun _ => rfl) (by decide) (by decide)⟩
    · exact isOperator_mark (lexes_angle (.inl rfl)) (fun _ => rfl) (by decide) (by decide)
    · exact ⟨_, .of_symbol (lexes_pair (by decide) fun _ => rfl) (fun _ => rfl) (by decide) (by decide)⟩
    · exact isOperator_mark (lexes_angle (.inr rfl)) (fun _ => rfl) (by decide) (by decide)
    · exact ⟨_, .of_symbol (lexes_pair (by decide) fun _ => rfl) (fun _ => rfl) (by decide) (by decide)⟩
    · exact isOperator_keyword (by decide) (by decide) (fun _ => rfl) (by decide) (by decide)
    · exact isOperator_keyword (by decide) (by decide) (fun _ => rfl) (by decide) (by decide)
    · exact isOperator_with (s := "STARTS") (by decide) (by decide) (fun _ => rfl) (by decide) (by decide)
    · exact isOperator_with (s := "ENDS") (by decide) (by decide) (fun _ => rfl) (by decide) (by decide)
    · exact isOperator_mark (single '+' (by decide)) (fun _ => rfl) (by decide) (by decide)
    · exact isOperator_mark (single '-' (by decide)) (fun _ => rfl) (by decide) (by decide)
    · exact isOperator_mark (single '*' (by decide)) (fun _ => rfl) (by decide) (by decide)
    · exact isOperator_mark (single '/' (by decide)) (fun _ => rfl) (by decide) (by decide)
    · exact isOperator_mark (single '%' (by decide)) (fun _ => rfl) (by decide) (by decide)
    · simp
  exact all _ (mem_of_lookup known)

/-- Every test is split into tokens that the reader takes for it. -/
theorem exists_isTest {op : String} (test : op = "IS NULL" ∨ op = "IS NOT NULL") :
    ∃ words, IsTest op words := by
  have noOperator : ∀ level rest, takeOperator? level (.symbol "IS" :: rest) = none := by
    intro level rest
    have noHead : ∀ entry ∈ operators, entry.2.2.head? ≠ some "IS" := by decide
    exact takeOperator?_eq_none (fun entry member headed => absurd headed (noHead entry member)) rest
  have isWord : Lexes "IS".toList [.symbol "IS"] := Lexes.keyword (by decide) (by decide)
  have nullWord : Lexes (' ' :: "NULL".toList) [.symbol "NULL"] :=
    (Lexes.keyword (by decide) (by decide)).blank
  have notWord : Lexes (' ' :: "NOT".toList) [.symbol "NOT"] :=
    (Lexes.keyword (by decide) (by decide)).blank
  rcases test with rfl | rfl
  · exact ⟨_, isWord.append (by decide) nullWord, by simp, fun _ => rfl, fun level rest => noOperator level _⟩
  · exact ⟨_, isWord.append (by decide) (notWord.append (by decide) nullWord), by simp, fun _ => rfl,
      fun level rest => noOperator level _⟩

end GraphQuery.Cypher
