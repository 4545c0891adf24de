import GraphQuery.Proofs.Cypher.Reading
import GraphQuery.Proofs.Query.Text

/-! # Written expressions

The text of every well-formed expression with plain names is read as its `reading`. The proof keeps
two facts about the tokens of an expression: what the reader of its level makes of them, and, at a
level of operators that are grouped from the left, what the loop of the level makes of them in the
place of an operand.
-/

namespace GraphQuery

namespace Cypher

/-- The tokens of an operand, in parentheses or not. -/
def enclosed (parentheses : Bool) (ts : List Token) : List Token :=
  if parentheses then .symbol "(" :: (ts ++ [.symbol ")"]) else ts

theorem Lexes.enclosed {cs : List Char} {ts : List Token} (lexes : Lexes cs ts) (parentheses : Bool) :
    Lexes (Tree.enclose parentheses cs) (enclosed parentheses ts) := by
  cases parentheses with
  | false => exact lexes
  | true =>
    have last : Lexes [')'] [.symbol ")"] := Lexes.nil.mark (by decide)
    exact (lexes.append (by decide) last).mark (by decide)

/-- What the tokens of a written expression are, and what the reader of its level makes of them. -/
structure Writes (t : Tree) (cs : List Char) (ts : List Token) : Prop where
  written : t.expressionChars = .ok cs
  lexes : Lexes cs ts
  reads : isChainLevel t.level = false → Reads (min t.level 8) ts t.reading
  joins : isChainLevel t.level = true → Joins t.level ts fun make => t.reading.graft t.level make

namespace Writes

section Operands

variable {t : Tree} {k : Nat} {op : String} {cs : List Char} {ts : List Token} (writes : Writes t cs ts)
include writes

/-- A written expression is read at its own level and at all weaker ones. -/
theorem reads_of_le (positive : 0 < k) (le : k ≤ t.level) (below : k ≤ 8) : Reads k ts t.reading := by
  by_cases chain : isChainLevel t.level = true
  · have loose := (isChainLevel_iff.mp chain).2.1.le
    have reads := (writes.joins chain).reads chain
    rw [Tree.graft_id] at reads
    exact reads.mono positive le loose
  · have reads := writes.reads (Bool.eq_false_iff.mpr chain)
    exact reads.mono positive (by omega) (by omega)

/-- An operand is read at every level that it is written in parentheses for. -/
theorem reads_enclosed {parentheses : Bool} (formed : t.FormedExpression) (positive : 0 < k)
    (below : k ≤ 8) (bare : parentheses = false → k ≤ t.level) :
    Reads k (enclosed parentheses ts) t.reading := by
  cases parentheses with
  | false => exact writes.reads_of_le positive (bare rfl) below
  | true =>
    have inner := writes.reads_of_le (by decide) formed.level_pos (by decide)
    exact inner.enclosed.mono positive below le_rfl

/-- What the loop of a level makes of an operand on the left. -/
theorem joins_left (formed : t.FormedExpression) (known : binaryLevel? op = some k)
    (chain : isChainLevel k = true) :
    Joins k (enclosed (Tree.isEnclosed op k false t) ts) fun make => t.reading.graft k make := by
  have loose := (isChainLevel_iff.mp chain).2.1
  by_cases same : t.level = k
  · have bare : Tree.isEnclosed op k false t = false := by
      by_contra enclosed
      have lower := Tree.level_lt_of_enclosed formed known chain (Bool.not_eq_false _ ▸ enclosed)
      omega
    subst same
    rw [bare]
    exact writes.joins chain
  · have other : t.reading.level ≠ k := fun equal => same (Tree.level_of_level_reading formed loose equal)
    have reads : Reads (k + 1) (enclosed (Tree.isEnclosed op k false t) ts) t.reading := by
      apply writes.reads_enclosed formed (Nat.succ_pos k) loose
      intro bare
      have le := Tree.le_level_of_bare bare
      omega
    simp only [Tree.graft_of_level_ne other]
    exact reads.joins

/-- What the loop of a level makes of an operand on the right. -/
theorem joins_right (formed : t.FormedExpression) (known : binaryLevel? op = some k)
    (chain : isChainLevel k = true) :
    Joins k (enclosed (Tree.isEnclosed op k true t) ts) fun make =>
      if t.continues op then t.reading.graft k make else make t.reading := by
  by_cases goesOn : t.continues op = true
  · have same := Tree.level_of_continues known goesOn
    have bare : Tree.isEnclosed op k true t = false := by
      simp [Tree.isEnclosed, same, goesOn]
    subst same
    simp only [bare, goesOn, if_true]
    exact writes.joins chain
  · have loose := (isChainLevel_iff.mp chain).2.1
    have reads : Reads (k + 1) (enclosed (Tree.isEnclosed op k true t) ts) t.reading := by
      apply writes.reads_enclosed formed (Nat.succ_pos k) loose
      intro bare
      rcases Tree.lt_level_or_continues_of_bare bare with lower | goesOn'
      · exact lower
      · exact absurd goesOn' goesOn
    simp only [if_neg goesOn]
    exact reads.joins

end Operands

/-! ## One rule for every form of expression -/

private theorem of_atom {t : Tree} {cs : List Char} {ts : List Token} (atom : t.level = atomLevel)
    (written : t.expressionChars = .ok cs) (lexes : Lexes cs ts) (reads : Reads 8 ts t.reading) :
    Writes t cs ts := by
  refine ⟨written, lexes, fun _ => ?_, fun chain => ?_⟩
  · rwa [atom]
  · rw [atom] at chain
    exact absurd chain (by decide)

theorem literal {value : Value} {ts : List Token} (writes : WritesValue value ts) :
    Writes (.literal value) value.literalChars ts := by
  refine of_atom rfl rfl writes.lexes ?_
  cases magnitude : value.magnitude? with
  | none =>
    rw [Tree.reading, magnitude]
    exact Reads.literal (writes.unsigned magnitude) writes.reads
  | some absolute =>
    obtain ⟨us, rfl, starts, reads⟩ := writes.minus absolute magnitude
    rw [Tree.reading, magnitude]
    exact (Reads.literal starts reads).minus

theorem property {s key : String} (plain : isPlainName s = true) (plainKey : isPlainName key = true) :
    Writes (.property s key) (s.toList ++ '.' :: key.toList) [.name s, .symbol ".", .name key] := by
  refine of_atom rfl rfl ?_ (Reads.property s key)
  intro rest breaks
  have behind := (Lexes.name plainKey).mark (show '.' ∈ singleMarks by decide) rest breaks
  simp only [isPlainName, Bool.and_eq_true, Bool.not_eq_true'] at plain
  have point : ∀ c ∈ ('.' :: (key.toList ++ rest)).head?, Text.continuesIdentifier c = false := by
    simp only [List.head?_cons, Option.mem_some_iff]
    rintro c rfl
    decide
  rw [List.append_assoc, List.cons_append, lex_word plain.1 point]
  rw [List.cons_append] at behind
  rw [behind, Option.map_map, String.ofList_toList, ofWord, plain.2, if_neg Bool.false_ne_true]
  rfl

theorem parameter {s : String} (plain : isPlainName s = true) :
    Writes (.parameter s) ('$' :: s.toList) [.symbol "$", .name s] :=
  of_atom rfl rfl ((Lexes.name plain).mark (by decide)) (Reads.parameter s)

theorem call {s : String} {args : List Tree} {written : List (List Char)} {pieces : List (List Token)}
    (plain : isPlainName s = true) (all : args.mapM Tree.expressionChars = .ok written)
    (lexes : List.Forall₂ Lexes written pieces)
    (reads : List.Forall₂ (fun arg piece => Reads 1 piece arg) (args.map Tree.reading) pieces) :
    Writes (.call s args) (s.toList ++ '(' :: joinChars comma written ++ [')'])
      (.name s :: .symbol "(" :: (separated pieces ++ [.symbol ")"])) := by
  refine of_atom rfl ?_ ?_ ?_
  · rw [Tree.expressionChars, Tree.argumentChars_eq_mapM, all]
    rfl
  · have behind : Lexes ('(' :: (joinChars comma written ++ [')']))
        (.symbol "(" :: (separated pieces ++ [.symbol ")"])) :=
      (Lexes.row (by decide) (by decide) lexes).mark (by decide)
    rw [List.append_assoc]
    exact (Lexes.name plain).append (by decide) behind
  · rw [Tree.reading, Tree.readings_eq_map]
    exact Reads.call s reads

section Operations

variable {op : String} {k : Nat} {left right operand : Tree} {leftChars rightChars cs : List Char}
  {leftTokens rightTokens ts words : List Token}

private theorem written_binary (known : binaryLevel? op = some k) (operator : IsOperator op k words)
    (writesLeft : Writes left leftChars leftTokens) (writesRight : Writes right rightChars rightTokens) :
    ∃ cs, (Tree.binary op left right).expressionChars = .ok cs ∧
      Lexes cs (enclosed (Tree.isEnclosed op k false left) leftTokens ++
        (words ++ enclosed (Tree.isEnclosed op k true right) rightTokens)) := by
  refine ⟨Tree.enclose (Tree.isEnclosed op k false left) leftChars ++ ' ' :: (op.toList ++
    ' ' :: Tree.enclose (Tree.isEnclosed op k true right) rightChars), ?_, ?_⟩
  · rw [Tree.expressionChars, known]
    simp only [writesLeft.written, writesRight.written, bind, Except.bind, List.append_assoc,
      List.cons_append]
  · have behind := operator.lexes.append (by decide)
      (writesRight.lexes.enclosed (Tree.isEnclosed op k true right)).blank
    exact (writesLeft.lexes.enclosed _).append (by decide) behind.blank

theorem exists_binary (formedLeft : left.FormedExpression) (formedRight : right.FormedExpression)
    (known : binaryLevel? op = some k) (operator : IsOperator op k words)
    (writesLeft : Writes left leftChars leftTokens) (writesRight : Writes right rightChars rightTokens) :
    ∃ cs ts, Writes (.binary op left right) cs ts := by
  obtain ⟨cs, written, lexes⟩ := written_binary known operator writesLeft writesRight
  have own := Tree.level_binary known left right
  refine ⟨cs, _, written, lexes, ?_, ?_⟩
  · intro loose
    have table : ∀ entry ∈ binaryLevels, isChainLevel entry.2 = false →
        entry.2 = 5 ∧ isAssociative entry.1 = false := by decide
    obtain ⟨rfl, separate⟩ := table _ (mem_of_lookup known) (own ▸ loose)
    have first : Reads 6 (enclosed (Tree.isEnclosed op 5 false left) leftTokens) left.reading :=
      writesLeft.reads_enclosed formedLeft (by decide) (by decide) (Tree.lt_level_of_bare false separate rfl)
    have second : Reads 6 (enclosed (Tree.isEnclosed op 5 true right) rightTokens) right.reading :=
      writesRight.reads_enclosed formedRight (by decide) (by decide) (Tree.lt_level_of_bare true separate rfl)
    rw [own, Tree.reading, if_neg (by simp [Tree.not_continues_of_separate separate])]
    exact first.compare operator second
  · intro chain
    rw [own] at chain ⊢
    have joins := Joins.binary operator (writesLeft.joins_left formedLeft known chain)
      (writesRight.joins_right formedRight known chain)
    have same (make : Tree → Tree) : (Tree.binary op left right).reading.graft k make =
        if right.continues op then
          right.reading.graft k (.binary op (left.reading.graft k make))
        else .binary op (left.reading.graft k make) right.reading := by
      rw [Tree.reading]
      split
      · rename_i goesOn
        rw [Tree.level_of_continues known goesOn, Tree.graft_graft known]
      · exact Tree.graft_binary known make _ _
    simp only [same]
    exact joins

private theorem written_unary (known : unaryLevel? op = some k) (writes : Writes operand cs ts) :
    ∃ parentheses : Bool, (parentheses = false → k < operand.level) ∧
      (Tree.unary op operand).expressionChars = .ok
        (if op = "NOT" then "NOT ".toList ++ Tree.enclose parentheses cs
          else if op = "-" then '-' :: Tree.enclose parentheses cs
          else Tree.enclose parentheses cs ++ ' ' :: op.toList) := by
  refine ⟨operand.level ≤ k || (op = "-" && cs.head? = some '-'), ?_, ?_⟩
  · intro bare
    simp only [Bool.or_eq_false_iff, decide_eq_false_iff_not] at bare
    omega
  · rw [Tree.expressionChars, known]
    simp only [writes.written]
    rfl

theorem exists_unary (formed : operand.FormedExpression) (known : unaryLevel? op = some k)
    (writes : Writes operand cs ts) : ∃ cs ts, Writes (.unary op operand) cs ts := by
  obtain ⟨parentheses, bare, written⟩ := written_unary known writes
  have own := Tree.level_unary known operand
  have inner := writes.lexes.enclosed parentheses
  have table : ∀ entry ∈ unaryLevels, entry = ("NOT", 4) ∨ entry = ("-", 8) ∨
      (entry.1 = "IS NULL" ∨ entry.1 = "IS NOT NULL") ∧ entry.2 = 5 := by decide
  rcases table _ (mem_of_lookup known) with same | same | ⟨test, same⟩
  · obtain ⟨rfl, rfl⟩ := Prod.mk.injEq .. ▸ same
    have reads : Reads 4 (enclosed parentheses ts) operand.reading :=
      writes.reads_enclosed formed (by decide) (by decide) fun free => (bare free).le
    refine ⟨_, .symbol "NOT" :: enclosed parentheses ts, written, ?_, fun _ => reads.not, ?_⟩
    · exact (Lexes.keyword (s := "NOT") (by decide) (by decide)).append (by decide) inner.blank
    · rw [own]
      exact fun chain => absurd chain (by decide)
  · obtain ⟨rfl, rfl⟩ := Prod.mk.injEq .. ▸ same
    have reads : Reads 8 (enclosed parentheses ts) operand.reading :=
      writes.reads_enclosed formed (by decide) (by decide) fun free => (bare free).le
    refine ⟨_, .symbol "-" :: enclosed parentheses ts, written, ?_, fun _ => reads.minus, ?_⟩
    · exact inner.mark (by decide)
    · rw [own]
      exact fun chain => absurd chain (by decide)
  · obtain rfl : k = 5 := same
    obtain ⟨words, isTest⟩ := exists_isTest test
    have reads : Reads 6 (enclosed parentheses ts) operand.reading :=
      writes.reads_enclosed formed (by decide) (by decide) bare
    have others : op ≠ "NOT" ∧ op ≠ "-" := by
      rcases test with rfl | rfl <;> decide
    rw [if_neg others.1, if_neg others.2] at written
    refine ⟨_, enclosed parentheses ts ++ words, written, ?_, ?_, ?_⟩
    · exact inner.append (by decide) isTest.lexes.blank
    · rw [own]
      exact fun _ => reads.test isTest
    · rw [own]
      exact fun chain => absurd chain (by decide)

end Operations

private theorem exists_arguments {args : List Tree}
    (all : ∀ arg ∈ args, arg.FormedExpression ∧ ∃ cs ts, Writes arg cs ts) :
    ∃ written pieces, args.mapM Tree.expressionChars = .ok written ∧ List.Forall₂ Lexes written pieces ∧
      List.Forall₂ (fun arg piece => Reads 1 piece arg) (args.map Tree.reading) pieces := by
  induction args with
  | nil => exact ⟨[], [], rfl, .nil, .nil⟩
  | cons arg rest ih =>
    obtain ⟨⟨formed, cs, ts, writes⟩, others⟩ := List.forall_mem_cons.mp all
    obtain ⟨written, pieces, ok, lexes, reads⟩ := ih others
    refine ⟨cs :: written, ts :: pieces, ?_, .cons writes.lexes lexes, .cons ?_ reads⟩
    · rw [List.mapM_cons, writes.written, ok]
      rfl
    · exact writes.reads_of_le (by decide) formed.level_pos (by decide)

end Writes

/-- A well-formed expression with plain names is written, split and read. -/
theorem exists_writes {t : Tree} (formed : t.FormedExpression) (plain : t.hasPlainNames = true) :
    ∃ cs ts, Writes t cs ts := by
  induction formed with
  | literal json =>
    obtain ⟨ts, writes⟩ := WritesValue.exists_tokens _ json plain
    exact ⟨_, ts, .literal writes⟩
  | property s key =>
    simp only [Tree.hasPlainNames, Bool.and_eq_true] at plain
    exact ⟨_, _, .property plain.1 plain.2⟩
  | parameter s => exact ⟨_, _, .parameter plain⟩
  | binary known formedLeft formedRight ihLeft ihRight =>
    simp only [Tree.hasPlainNames, Bool.and_eq_true] at plain
    obtain ⟨_, _, writesLeft⟩ := ihLeft plain.1
    obtain ⟨_, _, writesRight⟩ := ihRight plain.2
    obtain ⟨_, operator⟩ := exists_isOperator known
    exact Writes.exists_binary formedLeft formedRight known operator writesLeft writesRight
  | unary known formed ih =>
    obtain ⟨_, _, writes⟩ := ih plain
    exact Writes.exists_unary formed known writes
  | @call s args formed ih =>
    simp only [Tree.hasPlainNames, Tree.havePlainNames_eq_all, Bool.and_eq_true, List.all_eq_true] at plain
    have all : ∀ arg ∈ args, arg.FormedExpression ∧ ∃ cs ts, Writes arg cs ts :=
      fun arg member => ⟨formed arg member, ih arg member (plain.2 arg member)⟩
    obtain ⟨written, pieces, ok, lexes, reads⟩ := Writes.exists_arguments all
    exact ⟨_, _, .call plain.1 ok lexes reads⟩

/-- The whole text of a well-formed expression with plain names is read. -/
theorem read_expressionText {t : Tree} (formed : t.FormedExpression) (plain : t.hasPlainNames = true) :
    ∃ text, t.expressionText = .ok text ∧ read text = some t.reading := by
  obtain ⟨cs, ts, writes⟩ := exists_writes formed plain
  refine ⟨String.ofList cs, ?_, ?_⟩
  · rw [Tree.expressionText, writes.written]
    rfl
  · have tokens : lex cs = some ts := by
      have lexed := writes.lexes [] (by simp [Breaks])
      rwa [List.append_nil, lex, Option.map_some, List.append_nil] at lexed
    have reads := writes.reads_of_le (by decide) formed.level_pos (by decide)
      (10 * ts.length + 10) [] (by omega) (.nil 1)
    rw [List.append_nil] at reads
    rw [read, String.toList_ofList, tokens]
    simp [reads]

end Cypher

end GraphQuery
