import GraphQuery.CommandLine.Run
import GraphQuery.Proofs.Json.Reader
import GraphQuery.Proofs.Query.Written
import GraphQuery.Proofs.Syntax.Readable
import GraphQuery.Proofs.Value.Document

/-! # Compiling documents from outside

Whatever a document holds, it is rejected with a fault of values, or it is a node that passes every
check. A query that passes every check has a normal form, texts and a digest, which can be copied and
written since no document has an integer that is too long. So the command that compiles a document ends
with a status, and never with a fault that nobody expects.
-/

namespace GraphQuery

namespace Query

theorem toTree_of_ofTree? {t : Tree} {q : Query} (isQuery : ofTree? t = some q) : q.toTree = t := by
  cases t <;> cases isQuery
  rfl

/-- The parameters of the normal form of a query can be stored if those of the query can. -/
theorem isJson_parameters_normalForm {q : Query} (storable : q.toTree.storable) :
    (Value.map q.normalForm.parameters).isJson := by
  have json : (Value.map q.parameters).isJson := Tree.isJson_of_storable storable _ (.head _)
  have texts : ∀ entry ∈ q.parameters, entry.1.text?.isSome = true :=
    fun entry member => (((Value.isJson_map _).mp json).2 entry member).1
  have perm := sortByKey_perm (fun entry : Value × Value => entry.1.asText) q.parameters
  rw [normalForm, Value.sortEntries?_of_texts texts, Option.getD_some,
    (Value.Reordered.entries perm).isJson_eq]
  exact json

/-- A query that can be stored has a report, whichever form is reported. -/
theorem exists_report {q : Query} (storable : q.toTree.storable) (normalized : Bool) :
    ∃ document, q.report normalized = .ok document := by
  have formed := Tree.wellFormed_of_storable storable
  have json : (Value.map q.parameters).isJson := Tree.isJson_of_storable storable _ (.head _)
  have statement : ∃ text parameters, (Value.map parameters).isJson ∧
      (if normalized then q.build else q.statement) = .ok ⟨text, parameters⟩ := by
    cases normalized with
    | false =>
      obtain ⟨text, written⟩ := exists_statement formed
      exact ⟨text, q.parameters, json, written⟩
    | true =>
      obtain ⟨text, written⟩ :=
        exists_statement (q := q.normalForm) (Tree.wellFormed_normalForm q.toTree formed).1
      refine ⟨text, q.normalForm.parameters, isJson_parameters_normalForm storable, ?_⟩
      rw [if_pos rfl, build, normal_eq formed]
      exact written
  obtain ⟨text, parameters, parametersJson, written⟩ := statement
  obtain ⟨_, digest, -, -, hashed⟩ := exists_build_hash formed
  obtain ⟨document, documented⟩ := Value.exists_document? false _ parametersJson
  have reported : parameterDocument parameters = .ok document := by rw [parameterDocument, documented]
  rw [report, written, hashed]
  exact ⟨_, bind_eq_ok_iff.mpr ⟨_, rfl, bind_eq_ok_iff.mpr ⟨_, rfl,
    bind_eq_ok_iff.mpr ⟨_, reported, rfl⟩⟩⟩⟩

end Query

namespace CommandLine

/-! ## The command -/

/-- A fault of values is reported with the status of expected faults. -/
theorem Outcome.status_reported_of_value {fault : Fault} (value : fault.isA .value) (files : Files) :
    (Outcome.failed fault files).reported.status = .ok 2 := by
  rw [Outcome.reported, Outcome.failed]
  simp only [Outcome.isExpected, value, Bool.true_or, if_true]

/-- An output that objects to a line leaves an expected fault. -/
theorem Outcome.status_written (objection? : String → Option String) (outcome : Outcome) :
    (outcome.written objection?).status = outcome.status ∨ (outcome.written objection?).status = .ok 2 := by
  unfold Outcome.written
  split
  · exact .inl rfl
  · exact .inr rfl

/-- What is read can be expressed by a document, and its integers can be written. -/
theorem isJson_and_isWritable_of_readDocument {depth : Nat} {s : String} {data : Value}
    (read : readDocument depth s = .ok data) : data.isJson = true ∧ data.isWritable = true := by
  unfold readDocument at read
  split at read
  · cases read
  · cases parsed : Json.parse s with
    | ok document =>
      rw [parsed] at read
      obtain rfl := Except.ok.inj read
      exact ⟨(Json.isProper_of_parse parsed).json, (Json.isProper_of_parse parsed).writable⟩
    | error fault =>
      rw [parsed] at read
      cases read

/-- A text from outside that is not nested too deeply is a document or it is rejected with a fault of
values. -/
theorem readDocument_cases {depth : Nat} {s : String} (shallow : Json.isTooDeep depth s = false) :
    (∃ data, readDocument depth s = .ok data ∧ data.isJson) ∨
      ∃ fault, readDocument depth s = .error fault ∧ fault.isA .value := by
  cases read : readDocument depth s with
  | ok data => exact .inl ⟨data, rfl, (isJson_and_isWritable_of_readDocument read).1⟩
  | error fault =>
    refine .inr ⟨fault, rfl, ?_⟩
    rw [readDocument, shallow, if_neg Bool.false_ne_true] at read
    cases parsed : Json.parse s with
    | ok document =>
      rw [parsed] at read
      cases read
    | error problem =>
      rw [parsed] at read
      obtain rfl := Except.error.inj read
      unfold Fault.ofDocument
      split <;> rfl

/-- Data from outside is a query that can be stored or it is rejected with a fault of values. -/
theorem ofData_cases {data : Value} (json : data.isJson) :
    (∃ q, Query.ofData data = .ok q ∧ q.toTree.storable) ∨
      ∃ fault, Query.ofData data = .error fault ∧ fault.isA .value := by
  unfold Query.ofData
  cases read : Tree.ofData data with
  | error fault => exact .inr ⟨.ofDecoding fault, rfl, rfl⟩
  | ok t =>
    have storable := Tree.storable_of_ofData json read
    cases isQuery : Query.ofTree? t with
    | none => exact .inr ⟨Query.notAQuery t, by simp only [isQuery], rfl⟩
    | some q => exact .inl ⟨q, by simp only [isQuery], Query.toTree_of_ofTree? isQuery ▸ storable⟩

section Readable

variable {source s : String} {surroundings : Surroundings}
  (readable : (if source = "-" then surroundings.input
    else surroundings.files.readText (.ofText source)) = .ok s)
include readable

theorem documentAt_eq : documentAt source surroundings = readDocument surroundings.depth s := by
  unfold documentAt
  split at readable
  · rename_i isInput
    rw [if_pos isInput, readable]
    rfl
  · rename_i isFile
    rw [if_neg isFile, readable]
    rfl

/-- Compiling reports what was read or a fault of values. -/
theorem run_compile_of_readable (shallow : Json.isTooDeep surroundings.depth s = false) (normalized : Bool) :
    ((Command.compile source normalized).run surroundings).status = .ok 0 ∨
      ((Command.compile source normalized).run surroundings).status = .ok 2 := by
  rw [Command.run]
  unfold CommandLine.compile
  rw [documentAt_eq readable]
  rcases readDocument_cases shallow with ⟨data, read, json⟩ | ⟨fault, read, value⟩
  · rcases ofData_cases json with ⟨q, decoded, storable⟩ | ⟨fault, decoded, value⟩
    · obtain ⟨document, reported⟩ := Query.exists_report storable normalized
      left
      simp only [bind, Except.bind, read, decoded, reported]
      rfl
    · right
      simp only [bind, Except.bind, read, decoded]
      exact Outcome.status_reported_of_value value surroundings.files
  · right
    simp only [bind, Except.bind, read]
    exact Outcome.status_reported_of_value value surroundings.files

end Readable

/-- Documents from outside are handled: data is rejected with a fault of values or is a node that
passes every check, everything can be made of a node that is a query if its integers can be written, as
those of every document can, and the command that compiles a document reports what was made or a fault. -/
theorem documents_are_handled :
    (∀ data : Value, data.isJson →
      (∃ fault, Tree.ofData data = .error fault ∧ (Fault.ofDecoding fault).cls = .value) ∨
      ∃ t, Tree.ofData data = .ok t ∧ t.storable ∧
        (data.isWritable → ∀ q, Query.ofTree? t = some q →
          ∀ (copying : Copying) (levels : Nat), data.nestsWithin levels →
            (∀ v : Value, v.isJson → v.nestsWithin levels → copying.refusal? v = none) →
            ∃ normal statement normalStatement text digest,
              q.normalCopy copying = .ok normal ∧ q.written = .ok statement ∧
              normal.written = .ok normalStatement ∧ t.writtenText = .ok text ∧
              q.writtenHash copying = .ok digest)) ∧
    (∀ (depth : Nat) (s : String) (data : Value), readDocument depth s = .ok data →
      data.isJson ∧ data.isWritable) ∧
    ∀ (source s : String) (normalized : Bool) (surroundings : Surroundings)
      (objection? : String → Option String),
      (if source = "-" then surroundings.input
        else surroundings.files.readText (.ofText source)) = .ok s →
      Json.isTooDeep surroundings.depth s = false →
      let outcome := ((Command.compile source normalized).run surroundings).written objection?
      outcome.status = .ok 0 ∨ outcome.status = .ok 2 := by
  refine ⟨fun data json => ?_, fun depth s data read => isJson_and_isWritable_of_readDocument read, ?_⟩
  · cases read : Tree.ofData data with
    | error fault => exact .inl ⟨fault, rfl, rfl⟩
    | ok t =>
      have storable := Tree.storable_of_ofData json read
      refine .inr ⟨t, rfl, storable, fun writable q isQuery copying levels within copies => ?_⟩
      obtain rfl := Query.toTree_of_ofTree? isQuery
      exact Query.exists_results storable (Tree.isReadable_values_of_ofData json writable read) copies
        (Tree.nestsWithin_of_ofData within read)
  · intro source s normalized surroundings objection? readable shallow
    dsimp only
    rcases Outcome.status_written objection? ((Command.compile source normalized).run surroundings) with
      same | failed
    · rw [same]
      exact run_compile_of_readable readable shallow normalized
    · exact .inr failed

/-- The data of a query with one clause and one parameter. -/
def limitData : Value :=
  .object [("kind", .text "Query"),
    ("clauses", .list [.object [("kind", .text "Limit"), ("count", .int 3)]]),
    ("parameters", .object [("kind", .text "Query")])]

/-- A folder without files, an input and a server that answers nothing. -/
def limitSurroundings (s : String) : Surroundings :=
  ⟨⟨[], []⟩, .ok s, [], "", ⟨fun _ => .ok (), fun _ => .ok (), fun _ _ => .ok []⟩, 900⟩

theorem documents_are_handled_limit :
    let q : Query := ⟨[.limitClause (.int 3)], [(.text "kind", .text "Query")]⟩
    let s := "\x7b\"kind\": \"Query\", \"clauses\": [null]\x7d"
    limitData.isJson ∧ limitData.isWritable ∧ Tree.ofData limitData = .ok q.toTree ∧ q.toTree.storable ∧
      limitData.nestsWithin 4 ∧
      (∀ v : Value, v.isJson → v.nestsWithin 4 → (Copying.standard 4).refusal? v = none) ∧
      (∃ normal statement normalStatement text digest,
        q.normalCopy (.standard 4) = .ok normal ∧ q.written = .ok statement ∧
        normal.written = .ok normalStatement ∧ q.toTree.writtenText = .ok text ∧
        q.writtenHash (.standard 4) = .ok digest) ∧
      (limitSurroundings s).input = .ok s ∧ Json.isTooDeep (limitSurroundings s).depth s = false ∧
      (let outcome := ((Command.compile "-" true).run (limitSurroundings s)).written fun _ => none
       outcome.status = .ok 0 ∨ outcome.status = .ok 2) := by
  intro q s
  have json : limitData.isJson := by decide +kernel
  have writable : limitData.isWritable := by decide +kernel
  have within : limitData.nestsWithin 4 := by decide +kernel
  have copies : ∀ v : Value, v.isJson → v.nestsWithin 4 → (Copying.standard 4).refusal? v = none :=
    fun v _ shallow => if_pos shallow
  have read : Tree.ofData limitData = .ok q.toTree := by rfl
  have shallow : Json.isTooDeep (limitSurroundings s).depth s = false := by decide +kernel
  obtain ⟨data, documents, commands⟩ := documents_are_handled
  rcases data limitData json with ⟨_, rejected, _⟩ | ⟨t, accepted, storable, results⟩
  · cases read.symm.trans rejected
  · obtain rfl := Except.ok.inj (read.symm.trans accepted)
    exact ⟨json, writable, read, storable, within, copies, results writable q rfl _ 4 within copies, rfl, shallow,
      commands "-" s true (limitSurroundings s) (fun _ => none) rfl shallow⟩

end CommandLine

end GraphQuery
