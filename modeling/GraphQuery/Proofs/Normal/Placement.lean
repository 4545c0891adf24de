import GraphQuery.Proofs.Normal.Fixpoint

/-! # The places of clauses

The clauses of a normal query are the normal forms of those of the query, in the order of their
classes; in one class they keep their order. Since all `MATCH` clauses come first and all `WHERE`
clauses next, a `WHERE` clause that directly follows a `MATCH` or a `WITH` clause rarely keeps its
place: it still follows that clause exactly if it is the first `WHERE` clause and the clause is the
last `MATCH` clause.
-/

namespace GraphQuery

namespace Tree

/-- Taking the normal form of a clause keeps its class. -/
theorem rank?_of_normalClause {t n : Tree} (returned : t.normalClause = .ok n) : n.rank? = t.rank? := by
  cases t with
  | deleteClause | skipClause | limitClause =>
    obtain rfl := Except.ok.inj returned
    rfl
  | matchClause | whereClause | createClause | setClause | withClause | returnClause | orderByClause =>
    obtain ⟨_, -, rfl⟩ := wrapped_eq_ok_iff.mp returned
    rfl
  | _ => cases returned

end Tree

namespace Query

variable {q n : Query} {place : Nat}

def rankAt (q : Query) (place : Nat) : Nat :=
  (q.clauses[place]?.bind Tree.rank?).getD 0

/-- The places of the clauses of a query, in the order in which its normal form has them. -/
def order (q : Query) : List Nat :=
  sortByKey q.rankAt (List.range q.clauses.length)

/-- Whether the clause at a place is a `MATCH` clause. -/
def HasMatch (q : Query) (place : Nat) : Prop :=
  ∃ pattern optional, q.clauses[place]? = some (.matchClause pattern optional)

/-- Whether the clause at a place is a `WITH` clause. -/
def HasWith (q : Query) (place : Nat) : Prop :=
  ∃ items, q.clauses[place]? = some (.withClause items)

/-- Whether the clause at a place is a `WHERE` clause. -/
def HasWhere (q : Query) (place : Nat) : Prop :=
  ∃ condition, q.clauses[place]? = some (.whereClause condition)

/-- Whether every `WHERE` clause directly follows a `MATCH` or a `WITH` clause. -/
def IsAttached (q : Query) : Prop :=
  ∀ place, q.HasWhere place → ∃ before, place = before + 1 ∧ (q.HasMatch before ∨ q.HasWith before)

theorem order_perm (q : Query) : q.order.Perm (List.range q.clauses.length) :=
  sortByKey_perm _ _

theorem mem_order : place ∈ q.order ↔ place < q.clauses.length := by
  rw [q.order_perm.mem_iff, List.mem_range]

private theorem rankAt_of_kind (q : Query) (place : Nat) :
    (q.HasMatch place ↔ q.rankAt place = 1) ∧ (q.HasWhere place ↔ q.rankAt place = 2) ∧
      (q.HasWith place ↔ q.rankAt place = 6) := by
  unfold HasMatch HasWhere HasWith rankAt
  cases q.clauses[place]? with
  | none => simp
  | some t => cases t <;> simp [Tree.rank?]

theorem hasMatch_iff : q.HasMatch place ↔ q.rankAt place = 1 :=
  (rankAt_of_kind q place).1

theorem hasWhere_iff : q.HasWhere place ↔ q.rankAt place = 2 :=
  (rankAt_of_kind q place).2.1

theorem hasWith_iff : q.HasWith place ↔ q.rankAt place = 6 :=
  (rankAt_of_kind q place).2.2

theorem lt_length_of_rankAt (ranked : q.rankAt place ≠ 0) : place < q.clauses.length := by
  by_contra beyond
  exact ranked (by rw [rankAt, List.getElem?_eq_none (not_lt.mp beyond)]; rfl)

/-- The clauses of the normal form, read off in the order of the query. -/
theorem clauses_of_normal (returned : q.normal = .ok n) :
    n.clauses.map (fun clause => some (.ok clause)) =
      q.order.map fun place => q.clauses[place]?.map Tree.normalClause := by
  obtain ⟨clauses, parameters, ran, -, rfl⟩ := normal_eq_ok.mp returned
  have all := mapM_eq_ok_iff_map.mp ran
  have at? : ∀ place, q.clauses[place]?.map Tree.normalClause = clauses[place]?.map .ok := fun place => by
    rw [← List.getElem?_map, all, List.getElem?_map]
  have length : q.clauses.length = clauses.length := by
    rw [← List.length_map, all, List.length_map]
  have ranks : ∀ place clause, clauses[place]? = some clause → q.rankAt place = clause.rank?.getD 0 := by
    intro place clause found
    have stepped := at? place
    rw [found, Option.map_some, Option.map_eq_some_iff] at stepped
    obtain ⟨original, here, stepped⟩ := stepped
    rw [rankAt, here, Option.bind_some, Tree.rank?_of_normalClause stepped]
  have sorted : (Tree.sortClauses clauses).map some = q.order.map fun place => clauses[place]? := by
    rw [order, length]
    exact map_some_sortByKey ranks
  calc (Tree.sortClauses clauses).map (fun clause => some (.ok clause))
      = ((Tree.sortClauses clauses).map some).map (Option.map .ok) := by rw [List.map_map]; rfl
    _ = q.order.map fun place => clauses[place]?.map .ok := by rw [sorted, List.map_map]; rfl
    _ = q.order.map fun place => q.clauses[place]?.map Tree.normalClause := by simp only [at?]

/-- One clause directly follows another in the order of the normal form exactly if no clause belongs
between them. -/
theorem pair_infix_order {first second : Nat} :
    [first, second] <:+: q.order ↔ first < q.clauses.length ∧ second < q.clauses.length ∧
      toLex (q.rankAt first, first) < toLex (q.rankAt second, second) ∧
      ∀ other < q.clauses.length, toLex (q.rankAt other, other) ≤ toLex (q.rankAt first, first) ∨
        toLex (q.rankAt second, second) ≤ toLex (q.rankAt other, other) := by
  have increasing : q.order.Pairwise fun a b => toLex (q.rankAt a, a) < toLex (q.rankAt b, b) := by
    refine (pairwise_sortByKey_of_pairwise q.rankAt List.pairwise_lt_range).imp fun ordered => ?_
    rwa [Prod.Lex.toLex_lt_toLex]
  simp only [pair_infix_iff increasing, mem_order]

/-- A clause does not follow one of a later class. -/
theorem not_pair_infix_order {first second : Nat} (later : q.rankAt second < q.rankAt first) :
    ¬[first, second] <:+: q.order := by
  rw [pair_infix_order, Prod.Lex.toLex_lt_toLex]
  omega

/-- A `WHERE` clause keeps its place behind a `MATCH` clause exactly if there is neither an earlier
`WHERE` clause nor a later `MATCH` clause. -/
theorem pair_infix_order_of_match (isMatch : q.rankAt place = 1) (isWhere : q.rankAt (place + 1) = 2) :
    [place, place + 1] <:+: q.order ↔
      (∀ other, q.rankAt other = 2 → place + 1 ≤ other) ∧ ∀ other, q.rankAt other = 1 → other ≤ place := by
  simp only [pair_infix_order, Prod.Lex.toLex_le_toLex, Prod.Lex.toLex_lt_toLex, isMatch, isWhere]
  constructor
  · rintro ⟨-, -, -, nothing⟩
    constructor
    · intro other rank
      have between := nothing other (lt_length_of_rankAt (by omega))
      omega
    · intro other rank
      have between := nothing other (lt_length_of_rankAt (by omega))
      omega
  · rintro ⟨first, last⟩
    refine ⟨lt_length_of_rankAt (by omega), lt_length_of_rankAt (by omega), by omega, fun other _ => ?_⟩
    have notBefore := first other
    have notBehind := last other
    omega

/-- What a query and its normal form have to do with each other. -/
structure Places (q n : Query) : Prop where
  /-- Every clause has one place in the normal form. -/
  perm : q.order.Perm (List.range q.clauses.length)
  /-- The normal form has the normal forms of the clauses in this order. -/
  clauses_eq : n.clauses.map (fun clause => some (.ok clause)) =
    q.order.map fun place => q.clauses[place]?.map Tree.normalClause
  /-- What is sent are the clauses of the normal form. -/
  build_eq : q.build = n.statement
  /-- A `WHERE` clause directly follows the same clause as before exactly if it is the first `WHERE`
  clause and that clause is the last `MATCH` clause. -/
  follows_iff : ∀ place, q.HasWhere (place + 1) →
    ([place, place + 1] <:+: q.order ↔ q.HasMatch place ∧
      (∀ other, q.HasWhere other → place + 1 ≤ other) ∧ ∀ other, q.HasMatch other → other ≤ place)

/-- What happens to the clauses of a query in which every `WHERE` clause directly follows a `MATCH` or a
`WITH` clause. -/
theorem places_normal (attached : q.IsAttached) (returned : q.normal = .ok n) : Places q n where
  perm := q.order_perm
  clauses_eq := clauses_of_normal returned
  build_eq := by rw [build, returned]; rfl
  follows_iff place isWhere := by
    obtain ⟨before, same, follows⟩ := attached (place + 1) isWhere
    obtain rfl := Nat.succ.inj same
    simp only [hasMatch_iff, hasWith_iff, hasWhere_iff] at follows isWhere ⊢
    rcases follows with isMatch | isWith
    · rw [pair_infix_order_of_match isMatch isWhere]
      exact (and_iff_right isMatch).symm
    · have apart : ¬[place, place + 1] <:+: q.order := not_pair_infix_order (by omega)
      have noMatch : q.rankAt place ≠ 1 := by omega
      simp only [apart, noMatch, false_and]

/-! ## A condition that moves -/

def required : Tree :=
  .matchClause (.node "a" [] none) (.bool false)

/-- The pattern that may be missing. -/
def optional : Tree :=
  .matchClause (.node "b" [] none) (.bool true)

def condition : Tree :=
  .whereClause (.binary ">" (.property "a" "x") (.literal (.int 1)))

/-- Every result satisfies the condition. -/
def filtering : Query :=
  ⟨[required, condition, optional], []⟩

/-- The condition only decides whether the second pattern is missing. -/
def selecting : Query :=
  ⟨[required, optional, condition], []⟩

private theorem isAttached_filtering : filtering.IsAttached := by
  rintro (_ | _ | _ | place) ⟨t, found⟩
  · cases found
  · exact ⟨0, rfl, .inl ⟨_, _, rfl⟩⟩
  · cases found
  · cases found

private theorem isAttached_selecting : selecting.IsAttached := by
  rintro (_ | _ | _ | place) ⟨t, found⟩
  · cases found
  · cases found
  · exact ⟨1, rfl, .inl ⟨_, _, rfl⟩⟩
  · cases found

/-- A condition behind the last pattern stays where it is. -/
theorem places_normal_selecting :
    selecting.IsAttached ∧ selecting.normal = .ok selecting ∧ [1, 2] <:+: selecting.order := by
  have normal : selecting.normal = .ok selecting := by rfl
  refine ⟨isAttached_selecting, normal, ?_⟩
  refine ((places_normal isAttached_selecting normal).follows_iff 1 ⟨_, rfl⟩).mpr ⟨⟨_, _, rfl⟩, ?_, ?_⟩
  · rintro (_ | _ | other) ⟨t, found⟩
    · cases found
    · cases found
    · exact Nat.le_add_left ..
  · rintro (_ | _ | _ | other) ⟨pattern, missing, found⟩
    · exact Nat.zero_le 1
    · exact le_rfl
    · cases found
    · cases found

/-- A condition behind the first of two patterns moves behind the second one. -/
theorem not_infix_filtering :
    filtering.IsAttached ∧ required.normalClause = .ok required ∧ condition.normalClause = .ok condition ∧
      filtering.normal = .ok selecting ∧ filtering.build = selecting.statement ∧
      [required, condition] <:+: filtering.clauses ∧ ¬[required, condition] <:+: selecting.clauses := by
  refine ⟨isAttached_filtering, rfl, rfl, by rfl, by rfl, ⟨[], [optional], rfl⟩, fun together => ?_⟩
  have texts := together.map Tree.canonicalText
  revert texts
  decide +kernel

end Query

end GraphQuery
