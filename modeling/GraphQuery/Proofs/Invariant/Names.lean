import GraphQuery.Invariant.Check
import Mathlib.Data.List.Basic

/-! # Names in statements

The statement of an invariant is a fixed text with names in it. `Invariant.Admits` says which names
an invariant can be created with and which characters they bring into what its checks send. Every
name is an identifier with at most one newline behind it; `admits_identifiers_iff` says for which
names this is the same as being an identifier.
-/

namespace GraphQuery

namespace Text

/-- An identifier with at most one newline behind it. -/
def IsLineOfIdentifier (cs : List Char) : Prop :=
  ∃ word, isIdentifier word = true ∧ (cs = word ∨ cs = word ++ ['\n'])

theorem continuesIdentifier_of_starts {c : Char} (starts : startsIdentifier c = true) :
    continuesIdentifier c = true := by
  simp only [startsIdentifier, continuesIdentifier, Char.isAlphanum, Bool.or_eq_true] at starts ⊢
  exact starts.imp .inl id

theorem continuesIdentifier_of_mem {word : List Char} (identifier : isIdentifier word = true) :
    ∀ c ∈ word, continuesIdentifier c = true := by
  cases word with
  | nil => simp
  | cons c rest =>
    simp only [isIdentifier, Bool.and_eq_true, List.all_eq_true] at identifier
    exact List.forall_mem_cons.mpr ⟨continuesIdentifier_of_starts identifier.1, identifier.2⟩

theorem newline_notMem {word : List Char} (identifier : isIdentifier word = true) : '\n' ∉ word := by
  intro member
  have continues := continuesIdentifier_of_mem identifier '\n' member
  exact absurd continues (by decide)

/-! ## Lines -/

theorem withoutFinalNewline_append (word : List Char) : withoutFinalNewline (word ++ ['\n']) = word := by
  induction word with
  | nil => rfl
  | cons c rest ih =>
    rw [List.cons_append, withoutFinalNewline, ih]
    simp

theorem withoutFinalNewline_eq_self {word : List Char} (free : '\n' ∉ word) :
    withoutFinalNewline word = word := by
  fun_induction withoutFinalNewline word with
  | case1 => rfl
  | case2 => simp at free
  | case3 c rest _ ih => rw [ih fun member => free (List.mem_cons_of_mem c member)]

theorem eq_withoutFinalNewline (cs : List Char) :
    cs = withoutFinalNewline cs ∨ cs = withoutFinalNewline cs ++ ['\n'] := by
  fun_induction withoutFinalNewline cs with
  | case1 => exact .inl rfl
  | case2 => exact .inr rfl
  | case3 c rest _ ih => exact ih.imp (congrArg (c :: ·)) (congrArg (c :: ·))

/-- The lines that are taken are those of identifiers. -/
theorem isIdentifierLine_iff {cs : List Char} : isIdentifierLine cs = true ↔ IsLineOfIdentifier cs := by
  constructor
  · intro taken
    exact ⟨withoutFinalNewline cs, taken, eq_withoutFinalNewline cs⟩
  · rintro ⟨word, identifier, rfl | rfl⟩
    · rwa [isIdentifierLine, withoutFinalNewline_eq_self (newline_notMem identifier)]
    · rwa [isIdentifierLine, withoutFinalNewline_append]

/-- The line of an identifier is the identifier unless it ends with a newline. -/
theorem IsLineOfIdentifier.isIdentifier_iff {cs : List Char} (line : IsLineOfIdentifier cs) :
    isIdentifier cs = true ↔ cs.getLast? ≠ some '\n' := by
  obtain ⟨word, identifier, rfl | rfl⟩ := line
  · simp only [identifier, true_iff]
    exact fun last => newline_notMem identifier (List.mem_of_getLast? last)
  · simp only [List.getLast?_append, List.getLast?_singleton, Option.some_or, ne_eq, not_true_eq_false,
      iff_false]
    exact fun both => newline_notMem both (by simp)

/-- Besides the newline, only characters of identifiers stand on the line of an identifier. -/
theorem IsLineOfIdentifier.permits {cs : List Char} (line : IsLineOfIdentifier cs) :
    ∀ c ∈ cs, continuesIdentifier c = true ∨ c = '\n' := by
  intro c member
  obtain ⟨word, identifier, rfl | rfl⟩ := line
  · exact .inl (continuesIdentifier_of_mem identifier c member)
  · rw [List.mem_append, List.mem_singleton] at member
    exact member.imp (continuesIdentifier_of_mem identifier c) id

end Text

/-! ## Statements as fixed texts with names -/

/-- A piece of a statement: a fixed text, or the place of a name. -/
inductive Piece where
  | fixed (s : String)
  | name (place : Nat)
  deriving DecidableEq, Repr

/-- The text of a piece with the names in their places. -/
def Piece.filled (names : List String) : Piece → String
  | .fixed s => s
  | .name place => names.getD place ""

/-- The statement that checks a demand, with places for the names: the label is the first one. -/
def Demand.pieces : Demand → List Piece
  | .singleIncoming _ _ =>
    [.fixed "MATCH (n:", .name 0, .fixed ") OPTIONAL MATCH (n)<-[r:", .name 1, .fixed "]-(t:", .name 2,
      .fixed (") WITH n, count(r) AS relCount WHERE relCount <> 1 " ++
        "RETURN count(n) AS violationCount, collect(n.id)[..5] AS sampleIds")]
  | .hasProperty _ =>
    [.fixed "MATCH (n:", .name 0, .fixed ") WHERE n.", .name 1,
      .fixed " IS NULL RETURN count(n) AS missingCount, collect(n.id)[..5] AS sampleIds"]
  | .distinctProperty _ =>
    [.fixed "MATCH (n:", .name 0, .fixed ") WHERE n.", .name 1, .fixed " IS NOT NULL WITH n.", .name 1,
      .fixed (" AS value, count(*) AS cnt WHERE cnt > 1 " ++
        "RETURN count(*) AS duplicateCount, collect(value)[..5] AS sampleValues")]

namespace Invariant

/-- The names that become part of the statement of an invariant. -/
def names (invariant : Invariant) : List String :=
  invariant.label :: invariant.demand.names

/-- The text of a statement is the fixed text with the names in their places. -/
theorem text_eq_filled (invariant : Invariant) : invariant.text =
    String.join (invariant.demand.pieces.map (Piece.filled invariant.names)) := by
  obtain ⟨name, label, demand⟩ := invariant
  have samples : Nat.toDigits 10 5 = ['5'] := rfl
  apply String.toList_inj.mp
  cases demand <;>
    simp [text, Demand.pieces, Piece.filled, names, Demand.names, sampleSize, String.join, toString,
      samples]

theorem filled_mem_names {invariant : Invariant} {place : Nat}
    (member : .name place ∈ invariant.demand.pieces) :
    (Piece.name place).filled invariant.names ∈ invariant.names := by
  have within : place < invariant.names.length := by
    obtain ⟨name, label, demand⟩ := invariant
    cases demand <;> simp [Demand.pieces, names, Demand.names] at member ⊢ <;> omega
  rw [Piece.filled, List.getD_eq_getElem?_getD, List.getElem?_eq_getElem within]
  exact List.getElem_mem within

/-! ## Creating invariants -/

/-- Whether the checks of an invariant send its statement, into which its names bring permitted
characters only. -/
structure Sends (permitted : Char → Prop) (invariant : Invariant) : Prop where
  sent : ∀ session : Session, (invariant.check session).2.sent = session.sent ++
    [⟨String.join (invariant.demand.pieces.map (Piece.filled invariant.names)), []⟩]
  permits : ∀ place, .name place ∈ invariant.demand.pieces →
    ∀ c ∈ ((Piece.name place).filled invariant.names).toList, permitted c

/-- Whether an invariant is created exactly if each of its names is accepted and refused with the fault
of values about a name that is not, and whether its names bring permitted characters only into what is
sent. -/
structure Admits (accepted : List Char → Prop) (permitted : Char → Prop) (name label : String)
    (demand : Demand) : Prop where
  created_iff : (∃ invariant, create name label demand = .ok invariant) ↔
    ∀ s ∈ label :: demand.names, accepted s.toList
  refused : (∃ s ∈ label :: demand.names, ¬accepted s.toList) →
    ∃ bad ∈ label :: demand.names, ¬accepted bad.toList ∧ create name label demand = .error (badName bad)
  sends : ∀ invariant, create name label demand = .ok invariant → invariant.Sends permitted

theorem accept_cases (names : List String) :
    (∀ s ∈ names, Text.IsLineOfIdentifier s.toList) ∧ accept names = .ok () ∨
      ∃ bad ∈ names, ¬Text.IsLineOfIdentifier bad.toList ∧ accept names = .error (badName bad) := by
  induction names with
  | nil => exact .inl ⟨List.forall_mem_nil _, rfl⟩
  | cons s rest ih =>
    by_cases taken : Text.isIdentifierLine s.toList = true
    · rw [accept, if_pos taken, List.forall_mem_cons]
      rcases ih with ⟨lines, accepted⟩ | ⟨bad, member, refused⟩
      · exact .inl ⟨⟨Text.isIdentifierLine_iff.mp taken, lines⟩, accepted⟩
      · exact .inr ⟨bad, List.mem_cons_of_mem s member, refused⟩
    · rw [accept, if_neg taken]
      exact .inr ⟨s, List.mem_cons_self .., mt Text.isIdentifierLine_iff.mpr taken, rfl⟩

/-- Invariants are created from lines of identifiers, and refused because of a name that is none. -/
theorem create_cases (name label : String) (demand : Demand) :
    (∀ s ∈ label :: demand.names, Text.IsLineOfIdentifier s.toList) ∧
        create name label demand = .ok ⟨name, label, demand⟩ ∨
      ∃ bad ∈ label :: demand.names, ¬Text.IsLineOfIdentifier bad.toList ∧
        create name label demand = .error (badName bad) := by
  rcases accept_cases (label :: demand.names) with ⟨lines, accepted⟩ | ⟨bad, member, other, refused⟩
  · exact .inl ⟨lines, by rw [create, accepted]; rfl⟩
  · exact .inr ⟨bad, member, other, by rw [create, refused]; rfl⟩

theorem sends_of_names {permitted : Char → Prop} {invariant : Invariant}
    (permits : ∀ s ∈ invariant.names, ∀ c ∈ s.toList, permitted c) : invariant.Sends permitted where
  sent session := by rw [sent_check, text_eq_filled]
  permits _ member := permits _ (filled_mem_names member)

/-- What is accepted and what is permitted may be said in any way that accepts the same names as
creation does. -/
theorem admits_of_iff {accepted : List Char → Prop} {permitted : Char → Prop} {name label : String}
    {demand : Demand}
    (line : ∀ cs, accepted cs → Text.IsLineOfIdentifier cs)
    (accepts : (∀ s ∈ label :: demand.names, Text.IsLineOfIdentifier s.toList) →
      ∀ s ∈ label :: demand.names, accepted s.toList)
    (permits : ∀ cs, accepted cs → ∀ c ∈ cs, permitted c) : Admits accepted permitted name label demand := by
  rcases create_cases name label demand with ⟨lines, created⟩ | ⟨bad, member, other, refused⟩
  · refine ⟨⟨fun _ => accepts lines, fun _ => ⟨_, created⟩⟩, ?_, ?_⟩
    · rintro ⟨s, among, none⟩
      exact absurd (accepts lines s among) none
    · intro invariant same
      cases created.symm.trans same
      exact sends_of_names fun s among => permits s.toList (accepts lines s among)
  · refine ⟨⟨?_, fun all => absurd (line _ (all bad member)) other⟩, ?_, ?_⟩
    · rintro ⟨invariant, created⟩
      cases created.symm.trans refused
    · exact fun _ => ⟨bad, member, mt (line bad.toList) other, refused⟩
    · intro invariant created
      cases created.symm.trans refused

/-- An invariant admits identifiers and nothing else exactly if one of its names is not even the line
of an identifier, or none of them ends with a newline. Whatever its names are, it admits the lines of
identifiers. -/
theorem admits_identifiers_iff (name label : String) (demand : Demand) :
    Admits Text.IsLineOfIdentifier (fun c => Text.continuesIdentifier c = true ∨ c = '\n') name label
        demand ∧
      (Admits (fun cs => Text.isIdentifier cs = true) (fun c => Text.continuesIdentifier c = true) name
          label demand ↔
        (∃ s ∈ label :: demand.names, ¬Text.IsLineOfIdentifier s.toList) ∨
          ∀ s ∈ label :: demand.names, s.toList.getLast? ≠ some '\n') := by
  refine ⟨admits_of_iff (fun _ => id) id fun _ => Text.IsLineOfIdentifier.permits, ?_, fun excluded => ?_⟩
  · intro identifiers
    rcases create_cases name label demand with ⟨lines, created⟩ | ⟨bad, member, other, -⟩
    · have all := identifiers.created_iff.mp ⟨_, created⟩
      exact .inr fun s member => (lines s member).isIdentifier_iff.mp (all s member)
    · exact .inl ⟨bad, member, other⟩
  · refine admits_of_iff (fun cs identifier => ⟨cs, identifier, .inl rfl⟩) (fun lines => ?_)
      fun _ => Text.continuesIdentifier_of_mem
    rcases excluded with ⟨bad, member, other⟩ | free
    · exact absurd (lines bad member) other
    · exact fun s member => (lines s member).isIdentifier_iff.mpr (free s member)

/-- A label with a newline behind it is accepted, so that the newline becomes part of the statement. -/
theorem not_admits_newline :
    ¬Admits (fun cs => Text.isIdentifier cs = true) (fun c => Text.continuesIdentifier c = true) "named"
      "Person\n" (.hasProperty "name") := by
  intro identifiers
  have created : create "named" "Person\n" (.hasProperty "name") =
      .ok ⟨"named", "Person\n", .hasProperty "name"⟩ := by rfl
  have identifier := identifiers.created_iff.mp ⟨_, created⟩ "Person\n" (List.mem_cons_self ..)
  exact absurd identifier (by decide +kernel)

end Invariant

end GraphQuery
