import GraphQuery.Proofs.Cypher.Row

/-! # Levels of the reader

`Reads k ts t` says that the reader of a level gets a tree from a row of tokens, whatever follows
that does not go on with an operator of the level or of a tighter one. There is one rule for every
form of expression. Operators that are grouped from the left need more than that: the operand on the
right of one of them may itself be a row of operations of the level, and then these are taken one by
one by the loop that is already running. `Joins` describes what the loop makes of them.
-/

namespace GraphQuery.Cypher

/-- The symbols that an operand may start with. -/
def starters : List String :=
  ["-", "$", "(", "[", "\x7b", "null", "true", "false", "NaN", "Infinity"]

theorem readValue_eq_none {s : String} (other : s ∉ starters) (fuel : Nat) (rest : List Token) :
    readValue fuel (.symbol s :: rest) = none := by
  simp only [starters, List.mem_cons, List.not_mem_nil, or_false, not_or] at other
  cases fuel with
  | zero => rfl
  | succ fuel =>
    have unknown : constants.lookup s = none := by
      rw [List.lookup_eq_none_iff]
      simp [constants, other]
    simp [readValue, other, unknown]

/-- No operand starts with any other symbol, and `NOT` starts nothing tighter than a negation. -/
theorem readLevel_eq_none {s : String} (other : s ∉ starters) {k : Nat} (tighter : s = "NOT" → 4 < k)
    (fuel : Nat) (rest : List Token) : readLevel fuel k (.symbol s :: rest) = none := by
  induction fuel generalizing k with
  | zero => rfl
  | succ fuel ih =>
    rw [readLevel]
    split
    · have noValue := readValue_eq_none other (rest.length + 1) rest
      simp only [starters, List.mem_cons, List.not_mem_nil, or_false, not_or] at other
      simp [readSigned, take?_of_ne other.1, readAtom, readLiteral, noValue, other]
    · split
      · rename_i four
        have differs : s ≠ "NOT" := by
          intro same
          have above := tighter same
          omega
        rw [readSigned, take?_of_ne differs]
        exact ih fun _ => by decide
      · rw [ih fun same => (tighter same).trans k.lt_succ_self]
        rfl

/-! ## Reading a row of tokens -/

/-- Whether the reader of a level gets a tree from a row of tokens. -/
def Reads (k : Nat) (ts : List Token) (t : Tree) : Prop :=
  ∀ fuel rest, 10 * ts.length + 10 ≤ fuel + k → Stops k rest →
    readLevel fuel k (ts ++ rest) = some (t, rest)

/-- Whether the loop of a level, when it has an operand, goes on to a tree. -/
def Chains (fuel k : Nat) (left : Tree) (ts : List Token) (t : Tree) (rest : List Token) : Prop :=
  ∀ count, ts.length ≤ count → readChain k (readLevel fuel (k + 1)) count left ts = some (t, rest)

/-- Whether the loop of a level, when it has read an operator, goes on to a tree. The function makes
an operation of the operand that comes next. -/
def Resumes (fuel k : Nat) (make : Tree → Tree) (ts : List Token) (t : Tree) (rest : List Token) : Prop :=
  ∀ count, ts.length ≤ count →
    ((readLevel fuel (k + 1) ts).bind fun (right, rest) =>
      readChain k (readLevel fuel (k + 1)) count (make right) rest) = some (t, rest)

/-- What the loop of a level makes of a row of tokens in the place of an operand: it takes the row
operation by operation, and applies what was pending to the first operand alone. -/
def Joins (k : Nat) (ts : List Token) (join : (Tree → Tree) → Tree) : Prop :=
  ∀ fuel rest make t behind, 10 * ts.length + 9 ≤ fuel + k → Stops (k + 1) rest →
    Chains fuel k (join make) rest t behind → Resumes fuel k make (ts ++ rest) t behind

/-- The levels of operators that are grouped from the left. -/
def isChainLevel (k : Nat) : Bool :=
  k = 1 || k = 2 || k = 3 || k = 6 || k = 7

theorem isChainLevel_iff {k : Nat} : isChainLevel k = true ↔ 0 < k ∧ k < 8 ∧ k ≠ 4 ∧ k ≠ 5 := by
  simp only [isChainLevel, Bool.or_eq_true, decide_eq_true_eq]
  omega

private theorem Reads.of_step {k : Nat} {ts : List Token} {t : Tree} (below : k ≤ 8)
    (step : ∀ fuel rest, 10 * ts.length + 10 ≤ fuel + 1 + k → Stops k rest →
      readLevel (fuel + 1) k (ts ++ rest) = some (t, rest)) : Reads k ts t := by
  intro fuel rest bound stops
  cases fuel with
  | zero => omega
  | succ fuel => exact step fuel rest bound stops

section Rules

variable {k : Nat} {op : String} {ts us words : List Token} {left right t : Tree}

theorem Chains.stop (fuel : Nat) (left : Tree) {rest : List Token} (stops : takeOperator? k rest = none) :
    Chains fuel k left rest left rest := by
  intro count _
  cases count with
  | zero => rfl
  | succ count => rw [readChain, stops]

/-- The loop takes an operator. -/
theorem Chains.step (operator : IsOperator op k words) {fuel : Nat} {rest behind : List Token}
    (resumes : Resumes fuel k (.binary op left) rest t behind) :
    Chains fuel k left (words ++ rest) t behind := by
  intro count enough
  have some := List.length_pos_of_ne_nil operator.nonempty
  rw [List.length_append] at enough
  cases count with
  | zero => omega
  | succ count =>
    rw [readChain, operator.taken]
    exact resumes count (by omega)

/-- A tighter operand is taken as it is. -/
theorem Reads.joins (reads : Reads (k + 1) ts t) : Joins k ts fun make => make t := by
  intro fuel rest make whole behind bound stops chains count enough
  rw [List.length_append] at enough
  rw [reads fuel rest (by omega) stops]
  exact chains count (by omega)

/-- Operations on the right are taken one by one. -/
theorem Joins.binary {first second : (Tree → Tree) → Tree} (operator : IsOperator op k words)
    (joinsLeft : Joins k ts first) (joinsRight : Joins k us second) :
    Joins k (ts ++ (words ++ us)) fun make => second (.binary op (first make)) := by
  intro fuel rest make whole behind bound stops chains
  simp only [List.length_append] at bound
  have resumes := joinsRight fuel rest _ whole behind (by omega) stops chains
  have goesOn := Chains.step operator resumes
  have started := joinsLeft fuel (words ++ (us ++ rest)) make whole behind (by omega)
    (operator.stops _) goesOn
  simpa only [List.append_assoc] using started

/-- A row that nothing was pending for is read at its own level. -/
theorem Joins.reads {join : (Tree → Tree) → Tree} (chain : isChainLevel k = true) (joins : Joins k ts join) :
    Reads k ts (join id) := by
  obtain ⟨_, below, noSign, noTest⟩ := isChainLevel_iff.mp chain
  apply Reads.of_step below.le
  intro fuel rest bound stops
  have resumes := joins fuel rest id _ _ (by omega) (stops.mono k.le_succ)
    (Chains.stop fuel _ (stops.operator k le_rfl))
  have read := resumes (ts ++ rest).length le_rfl
  rw [readLevel, if_neg below.ne, if_neg noSign]
  simp only [if_neg noTest]
  exact read

/-! ### Comparisons, tests and what stands in front -/

private theorem readLevel_five {fuel : Nat} {rest : List Token} {read : Option (Tree × List Token)}
    (tighter : readLevel fuel 6 (ts ++ rest) = some (left, us))
    (test : readTest (readLevel fuel 6) left us = read) : readLevel (fuel + 1) 5 (ts ++ rest) = read := by
  rw [readLevel, if_neg (by decide), if_neg (by decide), tighter]
  exact test

theorem Reads.compare (operator : IsOperator op 5 words) (readsLeft : Reads 6 ts left)
    (readsRight : Reads 6 us right) : Reads 5 (ts ++ (words ++ us)) (.binary op left right) := by
  apply Reads.of_step (by decide)
  intro fuel rest bound stops
  simp only [List.length_append] at bound
  have first := readsLeft fuel (words ++ (us ++ rest)) (by omega) (operator.stops _)
  have second := readsRight fuel rest (by omega) (stops.mono (by decide))
  rw [List.append_assoc, List.append_assoc]
  apply readLevel_five first
  simp only [readTest, operator.taken, second, Option.map_some]

theorem Reads.test (test : IsTest op words) (reads : Reads 6 ts t) :
    Reads 5 (ts ++ words) (.unary op t) := by
  apply Reads.of_step (by decide)
  intro fuel rest bound stops
  simp only [List.length_append] at bound
  have ended : Stops 6 (words ++ rest) :=
    ⟨fun level _ => test.noOperator level rest, fun tight => absurd tight (by decide)⟩
  have first := reads fuel (words ++ rest) (by omega) ended
  rw [List.append_assoc]
  apply readLevel_five first
  rw [readTest, test.noOperator, test.taken]

private theorem Reads.noTest (reads : Reads 6 ts t) : Reads 5 ts t := by
  apply Reads.of_step (by decide)
  intro fuel rest bound stops
  apply readLevel_five (reads fuel rest (by omega) (stops.mono (by decide)))
  rw [readTest, stops.operator 5 le_rfl, stops.test le_rfl]

theorem Reads.not (reads : Reads 4 ts t) : Reads 4 (.symbol "NOT" :: ts) (.unary "NOT" t) := by
  apply Reads.of_step (by decide)
  intro fuel rest bound stops
  simp only [List.length_cons] at bound
  rw [List.cons_append, readLevel, if_neg (by decide), if_pos rfl, readSigned, take?_symbol]
  simp only [reads fuel rest (by omega) stops, Option.map_some]

private theorem Reads.noNot (reads : Reads 5 ts t) : Reads 4 ts t := by
  apply Reads.of_step (by decide)
  intro fuel rest bound stops
  have read := reads fuel rest (by omega) (stops.mono (by decide))
  rw [readLevel, if_neg (by decide), if_pos rfl, readSigned]
  split
  · rename_i behind taken
    rw [eq_of_take? taken, readLevel_eq_none (by decide) fun _ => by decide] at read
    simp at read
  · exact read

theorem Reads.minus (reads : Reads 8 ts t) : Reads 8 (.symbol "-" :: ts) (.unary "-" t) := by
  apply Reads.of_step (by decide)
  intro fuel rest bound stops
  simp only [List.length_cons] at bound
  rw [List.cons_append, readLevel, if_pos rfl, readSigned, take?_symbol]
  simp only [reads fuel rest (by omega) stops, Option.map_some]

/-- What is read at a level is read at the weaker one before it. -/
theorem Reads.weaken (positive : 0 < k) (below : k < 8) (reads : Reads (k + 1) ts t) : Reads k ts t := by
  by_cases chain : isChainLevel k = true
  · exact Joins.reads chain reads.joins
  · have others : k = 4 ∨ k = 5 := by
      rw [isChainLevel_iff] at chain
      omega
    rcases others with rfl | rfl
    · exact reads.noNot
    · exact reads.noTest

/-- What is read at a level is read at all weaker ones. -/
theorem Reads.mono {level : Nat} (positive : 0 < k) (le : k ≤ level) (below : level ≤ 8)
    (reads : Reads level ts t) : Reads k ts t := by
  induction level, le using Nat.le_induction with
  | base => exact reads
  | succ level le ih => exact ih (by omega) (reads.weaken (by omega) (by omega))

/-! ### What is no operation -/

private theorem readLevel_eight {fuel : Nat} (unsigned : take? "-" ts = none) :
    readLevel (fuel + 1) 8 ts = readAtom (readLevel fuel 1) ts := by
  rw [readLevel, if_pos rfl, readSigned, unsigned]

theorem Reads.enclosed (reads : Reads 1 ts t) :
    Reads 8 (.symbol "(" :: (ts ++ [.symbol ")"])) t := by
  apply Reads.of_step (by decide)
  intro fuel rest bound stops
  simp only [List.length_cons, List.length_append, List.length_nil] at bound
  have inner := reads fuel (.symbol ")" :: rest) (by omega) (.closing (by decide) 1 rest)
  rw [List.cons_append, List.append_assoc, List.singleton_append,
    readLevel_eight (take?_of_ne (by decide) _), readAtom, if_neg (by decide), if_pos rfl, inner]
  simp

theorem Reads.property (s key : String) : Reads 8 [.name s, .symbol ".", .name key] (.property s key) := by
  apply Reads.of_step (by decide)
  intro fuel rest bound _
  simp only [List.length_cons, List.length_nil] at bound
  exact readLevel_eight rfl

theorem Reads.parameter (s : String) : Reads 8 [.symbol "$", .name s] (.parameter s) := by
  apply Reads.of_step (by decide)
  intro fuel rest bound _
  simp only [List.length_cons, List.length_nil] at bound
  exact readLevel_eight rfl

theorem Reads.call (s : String) {args : List Tree} {pieces : List (List Token)}
    (all : List.Forall₂ (fun arg piece => Reads 1 piece arg) args pieces) :
    Reads 8 (.name s :: .symbol "(" :: (separated pieces ++ [.symbol ")"])) (.call s args) := by
  apply Reads.of_step (by decide)
  intro fuel rest bound _
  simp only [List.length_cons, List.length_append, List.length_nil] at bound
  have refuses (rest : List Token) : readLevel fuel 1 (.symbol ")" :: rest) = none :=
    readLevel_eq_none (by decide) (by decide) fuel rest
  have closing : ∀ s ∈ [",", ")"], s ∈ [")", ",", "]", "\x7d"] := by decide
  have items : List.Forall₂ (ReadsItem ")" (readLevel fuel 1)) args pieces := by
    rw [List.forall₂_iff_zip] at all ⊢
    refine ⟨all.1, ?_⟩
    intro arg piece member t symbol rest
    have shorter := length_le_of_mem_separated (List.of_mem_zip member).2
    exact all.2 member fuel _ (by omega) (.closing (closing t symbol) 1 rest)
  have row := readRow_separated (by decide) refuses items rest
  simp only [List.cons_append, List.append_assoc, List.nil_append]
  rw [readLevel_eight rfl, readAtom, readNamed, take?_of_ne (by decide), take?_symbol, Option.bind_some, row]
  rfl

/-- Whether a row of tokens starts like a value without a sign. -/
def startsValue : List Token → Bool
  | .number _ :: _ | .text _ :: _ => true
  | .symbol s :: _ => s ≠ "-" && s ≠ "$" && s ≠ "("
  | _ => false

theorem Reads.literal {value : Value} (starts : startsValue ts = true)
    (reads : ∀ fuel rest, ts.length ≤ fuel → readValue fuel (ts ++ rest) = some (value, rest)) :
    Reads 8 ts (.literal value) := by
  apply Reads.of_step (by decide)
  intro fuel rest bound _
  have read := reads (ts ++ rest).length rest (by simp)
  have literal : readLiteral (ts ++ rest) = some (.literal value, rest) := by
    rw [readLiteral, read]
    rfl
  unfold startsValue at starts
  split at starts
  · rw [List.cons_append, readLevel_eight rfl]
    exact literal
  · rw [List.cons_append, readLevel_eight rfl]
    exact literal
  · simp only [Bool.and_eq_true, decide_eq_true_eq] at starts
    obtain ⟨⟨noSign, noParameter⟩, noBracket⟩ := starts
    rw [List.cons_append, readLevel_eight (take?_of_ne noSign _), readAtom, if_neg noParameter,
      if_neg noBracket]
    exact literal
  · exact absurd starts Bool.false_ne_true

end Rules

end GraphQuery.Cypher
