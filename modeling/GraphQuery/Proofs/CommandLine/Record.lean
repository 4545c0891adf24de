import GraphQuery.Proofs.CommandLine.Compile
import GraphQuery.Proofs.Plan.Kept

/-! # Recording plans from outside

Whatever the file of plans and the file of records hold, recording either puts one record for every
plan behind the old records, or leaves every file as it was. Nothing is written before every entry has
been read, and the entries that were read can all be recorded. Where plans can be recorded at all, what
is in the way of it is reported as a fault of values. Two things are not up to the plans: brackets that
are nested too deeply to be followed, and a version that the output cannot express, which is noticed
only when the records are written.
-/

namespace GraphQuery

namespace Plan

/-- The name and the text under which the plans of a query are recorded. -/
inductive IsKeyOf : Value → String → String → Prop where
  | text (s : String) : IsKeyOf (.text s) s!"text-{GraphQuery.digest s}" s
  | data {data : Value} {q : Query} {hash : String} {statement : Statement} :
    (∀ s, data ≠ .text s) → Query.ofData data = .ok q → q.hash = .ok hash →
    q.build = .ok statement → IsKeyOf data hash statement.text

/-- A record of an item of a document of plans. -/
structure IsRecordOf (version timestamp : String) (item : Value) (record : PlanRecord) : Prop where
  content : ∃ fields query plan, item = .map fields ∧ Value.lookup "query" fields = some query ∧
    Value.lookup "plan" fields = some plan ∧ IsKeyOf query record.hash record.text ∧
    digest plan = .ok record.planDigest
  timestamp : record.timestamp = timestamp
  version : record.version = version

/-! ## Entries -/

/-- What a plan belongs to has a name and a text, or it is rejected with a fault of values. -/
theorem subjectOf_cases {data : Value} (json : data.isJson) :
    (∃ subject hash text, subjectOf data = .ok subject ∧ subject.key = .ok (hash, text) ∧
      IsKeyOf data hash text) ∨
    ∃ fault, subjectOf data = .error fault ∧ fault.isA .value := by
  by_cases isText : ∃ s, data = .text s
  · obtain ⟨s, rfl⟩ := isText
    exact .inl ⟨.text s, _, s, rfl, rfl, .text s⟩
  · have noText : ∀ s, data ≠ .text s := fun s same => isText ⟨s, same⟩
    have shape : subjectOf data = (Query.ofData data).map fun query => .tree query.toTree := by
      rw [subjectOf]
      exact fun s same => noText s same
    rw [shape]
    rcases CommandLine.ofData_cases json with ⟨q, decoded, storable⟩ | ⟨fault, decoded, value⟩
    · obtain ⟨statement, hash, -, built, hashed⟩ :=
        Query.exists_build_hash (Tree.wellFormed_of_storable storable)
      have key : Subject.key (.tree q.toTree) = .ok (hash, statement.text) := by
        simp only [Subject.key, Query.ofTree?_toTree, hashed, built, ofTree, bind, Except.bind]
      exact .inl ⟨.tree q.toTree, hash, statement.text, by rw [decoded]; rfl, key,
        .data noText decoded hashed built⟩
    · exact .inr ⟨fault, by rw [decoded]; rfl, value⟩

theorem exists_digest {plan : Value} (json : plan.isJson) : ∃ written, digest plan = .ok written := by
  obtain ⟨document, written⟩ := Value.exists_document? true plan json
  exact ⟨_, by rw [digest, written]⟩

section Entries

variable (version timestamp : String)

/-- An item can be recorded once it is read, or it is rejected with a fault of values. -/
theorem entryOf_cases (number : Nat) {item : Value} (json : item.isJson) :
    (∃ entry record, entryOf number item = .ok entry ∧
      PlanRecord.create version timestamp entry.1 entry.2 = .ok record ∧
      IsRecordOf version timestamp item record) ∨
    ∃ fault, entryOf number item = .error fault ∧ fault.isA .value := by
  unfold entryOf
  split
  · rename_i fields
    split
    · rename_i query plan foundQuery foundPlan
      have members := ((Value.isJson_map fields).mp json).2
      have queryJson : query.isJson := (members _ (Value.exists_mem_of_lookup foundQuery)).2
      have planJson : plan.isJson := (members _ (Value.exists_mem_of_lookup foundPlan)).2
      rcases subjectOf_cases queryJson with
        ⟨subject, hash, text, read, key, named⟩ | ⟨fault, read, value⟩
      · obtain ⟨written, digested⟩ := exists_digest planJson
        refine .inl ⟨(subject, plan), ⟨hash, text, written, timestamp, version⟩, by rw [read]; rfl, ?_,
          ⟨⟨fields, query, plan, rfl, foundQuery, foundPlan, named, digested⟩, rfl, rfl⟩⟩
        simp only [PlanRecord.create, key, digested, bind, Except.bind]
      · exact .inr ⟨fault, by rw [read]; rfl, value⟩
    · exact .inr ⟨badEntry number, rfl, rfl⟩
  · exact .inr ⟨badEntry number, rfl, rfl⟩

/-- The items of a document can all be recorded once they are read, or one of them is rejected. -/
theorem entriesFrom_cases (number : Nat) {items : List Value} (json : ∀ item ∈ items, item.isJson) :
    (∃ entries records, entriesFrom number items = .ok entries ∧
      recordAll version timestamp entries = .ok records ∧
      List.Forall₂ (IsRecordOf version timestamp) items records) ∨
    ∃ fault, entriesFrom number items = .error fault ∧ fault.isA .value := by
  induction items generalizing number with
  | nil => exact .inl ⟨[], [], rfl, rfl, .nil⟩
  | cons item rest ih =>
    obtain ⟨first, others⟩ := List.forall_mem_cons.mp json
    rw [entriesFrom]
    rcases entryOf_cases version timestamp number first with
      ⟨entry, record, read, created, made⟩ | ⟨fault, read, value⟩
    · rcases ih (number + 1) others with
        ⟨entries, records, readRest, recorded, madeRest⟩ | ⟨fault, readRest, value⟩
      · refine .inl ⟨entry :: entries, record :: records, ?_, ?_, .cons made madeRest⟩
        · rw [read, readRest]
          rfl
        · exact mapM_eq_ok_iff.mpr (.cons created (mapM_eq_ok_iff.mp recorded))
      · exact .inr ⟨fault, by rw [read, readRest]; rfl, value⟩
    · exact .inr ⟨fault, by rw [read]; rfl, value⟩

/-- A document of plans can be recorded, or it is rejected with a fault of values. -/
theorem entriesOf_cases {document : Value} (json : document.isJson) :
    (∃ items entries records, document = .list items ∧ entriesOf document = .ok entries ∧
      recordAll version timestamp entries = .ok records ∧
      List.Forall₂ (IsRecordOf version timestamp) items records) ∨
    ∃ fault, entriesOf document = .error fault ∧ fault.isA .value := by
  unfold entriesOf
  split
  · rename_i items
    rcases entriesFrom_cases version timestamp 0 ((Value.isJson_list items).mp json) with
      ⟨entries, records, read, recorded, made⟩ | rejected
    · exact .inl ⟨items, entries, records, rfl, read, recorded, made⟩
    · exact .inr rejected
  · exact .inr ⟨notAList, rfl, rfl⟩

end Entries

/-! ## The file of records -/

/-- The text of a file that can be read is text or it is rejected with a fault of values. -/
theorem readText_cases {files : Files} {location : Location} {bytes : List UInt8}
    (read : files.read location = .ok bytes) :
    (∃ source, files.readText location = .ok source) ∨
      ∃ fault, files.readText location = .error fault ∧ fault.isA .value := by
  simp only [Files.readText, read, Files.decoded, bind, Except.bind]
  cases Text.decode bytes with
  | ok cs => exact .inl ⟨_, rfl⟩
  | error fault => exact .inr ⟨_, rfl, rfl⟩

/-- A text holds records or it is rejected with a fault of values. -/
theorem parse_cases (source : String) :
    (∃ old, parse source = .ok old) ∨ ∃ fault, parse source = .error fault ∧ fault.isA .value := by
  unfold parse
  split
  · rename_i document _
    cases check (Value.ofJson document) with
    | ok old => exact .inl ⟨old, rfl⟩
    | error issues => exact .inr ⟨.invalid schemaName issues, rfl, rfl⟩
  · exact .inr ⟨_, rfl, rfl⟩

/-- A file of records that can be written is absent, or holds records, or is rejected with a fault of
values. -/
theorem load_cases {files : Files} {location : Location}
    (writable : ∃ after, files.write location [] = .ok after) :
    (∃ old, load location files = .ok old) ∨
      ∃ fault, load location files = .error fault ∧ fault.isA .value := by
  obtain ⟨after, writable⟩ := writable
  unfold load
  split
  · rename_i there
    obtain ⟨bytes, read⟩ := Files.exists_read_of_write writable there
    rcases readText_cases read with ⟨source, readable⟩ | ⟨fault, readable, value⟩
    · rw [readable]
      exact parse_cases source
    · exact .inr ⟨fault, by rw [readable]; rfl, value⟩
  · exact .inl ⟨[], rfl⟩

end Plan

namespace CommandLine

/-! ## The command -/

/-- Whether plans can be recorded: they are in a file that is not nested too deeply, and the records can
be written. -/
structure CanRecord (plans database : Location) (surroundings : Surroundings) : Prop where
  given : ∃ bytes, surroundings.files.read plans = .ok bytes
  shallow : ∀ source, surroundings.files.readText plans = .ok source →
    Json.isTooDeep surroundings.depth source = false
  writable : ∃ after, surroundings.files.write database [] = .ok after

/-- The records of the plans stand behind the records that were there, and nothing else does. -/
structure Appends (version : String) (plans database : Location) (surroundings : Surroundings)
    (outcome : Outcome) : Prop where
  status : outcome.status = .ok 0
  records : ∃ source items old new, surroundings.files.readText plans = .ok source ∧
    readDocument surroundings.depth source = .ok (.list items) ∧
    Plan.load database surroundings.files = .ok old ∧
    List.Forall₂ (Plan.IsRecordOf version surroundings.now) items new ∧
    Plan.load database outcome.files = .ok (old ++ new)

section Command

variable (version : String) (plans database : Location) (surroundings : Surroundings)

private def recorded : Except Fault (List PlanRecord × Files) := do
  let source ← surroundings.files.readText plans
  let document ← readDocument surroundings.depth source
  let entries ← Plan.entriesOf document
  Plan.record version surroundings.now entries database surroundings.files

variable {version plans database surroundings}

private theorem recorded_ok {records : List PlanRecord} {after : Files}
    (done : recorded version plans database surroundings = .ok (records, after)) :
    ∃ source items old, surroundings.files.readText plans = .ok source ∧
      readDocument surroundings.depth source = .ok (.list items) ∧
      Plan.load database surroundings.files = .ok old ∧
      List.Forall₂ (Plan.IsRecordOf version surroundings.now) items records ∧
      Plan.load database after = .ok (old ++ records) := by
  obtain ⟨source, readable, done⟩ := bind_eq_ok_iff.mp done
  obtain ⟨document, read, done⟩ := bind_eq_ok_iff.mp done
  obtain ⟨entries, listed, done⟩ := bind_eq_ok_iff.mp done
  obtain ⟨old, loaded, created, -, stored⟩ := Plan.record_eq_ok done
  have json := (isJson_and_isWritable_of_readDocument read).1
  rcases Plan.entriesOf_cases version surroundings.now json with
    ⟨items, others, made, rfl, accepted, createdAll, all⟩ | ⟨fault, rejected, -⟩
  · cases listed.symm.trans accepted
    cases created.symm.trans createdAll
    exact ⟨source, items, old, readable, read, loaded, all, stored⟩
  · cases listed.symm.trans rejected

private theorem recorded_of_read {source : String} {document : Value} {entries : List (Plan.Subject × Value)}
    {records old : List PlanRecord} (readable : surroundings.files.readText plans = .ok source)
    (read : readDocument surroundings.depth source = .ok document)
    (listed : Plan.entriesOf document = .ok entries)
    (created : Plan.recordAll version surroundings.now entries = .ok records)
    (loaded : Plan.load database surroundings.files = .ok old)
    (writable : ∃ after, surroundings.files.write database [] = .ok after) :
    ∃ after, recorded version plans database surroundings = .ok (records, after) := by
  obtain ⟨probe, writable⟩ := writable
  obtain ⟨after, saved⟩ := Files.exists_write writable (Plan.write (old ++ records)).toUTF8.toList
  refine ⟨after, ?_⟩
  simp only [recorded, readable, read, listed, Plan.record, loaded, created, Plan.save, Files.writeText, saved,
    bind, Except.bind]

private theorem recorded_error {fault : Fault} (can : CanRecord plans database surroundings)
    (failed : recorded version plans database surroundings = .error fault) : fault.isA .value := by
  obtain ⟨bytes, given⟩ := can.given
  rcases Plan.readText_cases given with ⟨source, readable⟩ | ⟨other, rejected, value⟩
  · rcases readDocument_cases (can.shallow source readable) with
      ⟨document, read, json⟩ | ⟨other, rejected, value⟩
    · rcases Plan.entriesOf_cases version surroundings.now json with
        ⟨items, entries, records, -, listed, created, -⟩ | ⟨other, rejected, value⟩
      · rcases Plan.load_cases can.writable with ⟨old, loaded⟩ | ⟨other, rejected, value⟩
        · obtain ⟨after, done⟩ := recorded_of_read readable read listed created loaded can.writable
          cases failed.symm.trans done
        · simp only [recorded, readable, read, listed, Plan.record, rejected, bind, Except.bind] at failed
          cases failed
          exact value
      · simp only [recorded, readable, read, rejected, bind, Except.bind] at failed
        cases failed
        exact value
    · simp only [recorded, readable, rejected, bind, Except.bind] at failed
      cases failed
      exact value
  · simp only [recorded, rejected, bind, Except.bind] at failed
    cases failed
    exact value

private theorem run_of_recorded {records : List PlanRecord} {after : Files}
    (done : recorded version plans database surroundings = .ok (records, after)) :
    (Command.record version plans database).run surroundings =
      { Outcome.printed 0 (Plan.recordedMessage records.length version) after with
        log := [Plan.recordedLine records.length version] } := by
  unfold recorded at done
  simp only [Command.run, CommandLine.record, done]
  rfl

private theorem written_of_recorded (objection? : String → Option String) {records : List PlanRecord}
    {after : Files}
    (done : recorded version plans database surroundings = .ok (records, after))
    (expressible : objection? (Plan.recordedMessage records.length version) = none) :
    ((Command.record version plans database).run surroundings).written objection? =
      { Outcome.printed 0 (Plan.recordedMessage records.length version) after with
        log := [Plan.recordedLine records.length version] } := by
  rw [run_of_recorded done, Outcome.written]
  simp only [Outcome.printed, List.findSome?_cons, expressible, List.findSome?_nil]

private theorem run_of_refused {fault : Fault}
    (failed : recorded version plans database surroundings = .error fault) :
    (Command.record version plans database).run surroundings =
      (Outcome.failed fault surroundings.files).reported := by
  unfold recorded at failed
  simp only [Command.run, CommandLine.record, failed]

/-- An output has nothing to object to an outcome that prints nothing. -/
theorem Outcome.written_failed (objection? : String → Option String) (fault : Fault) (files : Files) :
    (Outcome.failed fault files).reported.written objection? = (Outcome.failed fault files).reported := by
  have silent : (Outcome.failed fault files).reported.output = [] := by
    unfold Outcome.reported Outcome.failed
    dsimp only
    split <;> rfl
  rw [Outcome.written, silent]
  rfl

/-- Recording appends one record for every plan, in their order, or it leaves every file as it was and
ends with the status of an expected fault, if the output can express what is said about the version. -/
theorem record_appends_or_keeps (version : String) (plans database : Location)
    (surroundings : Surroundings) (objection? : String → Option String)
    (expressible : ∀ count, objection? (Plan.recordedMessage count version) = none) :
    let outcome := ((Command.record version plans database).run surroundings).written objection?
    Appends version plans database surroundings outcome ∨
      outcome.files = surroundings.files ∧ outcome.status ≠ .ok 0 ∧
        (CanRecord plans database surroundings → outcome.status = .ok 2) := by
  intro outcome
  cases done : recorded version plans database surroundings with
  | ok result =>
    obtain ⟨records, after⟩ := result
    obtain ⟨source, items, old, readable, read, loaded, all, stored⟩ := recorded_ok done
    have ends : outcome = _ := written_of_recorded objection? done (expressible _)
    rw [ends]
    exact .inl ⟨rfl, source, items, old, records, readable, read, loaded, all, stored⟩
  | error fault =>
    have ends : outcome = (Outcome.failed fault surroundings.files).reported := by
      simp only [outcome, run_of_refused done, Outcome.written_failed]
    rw [ends]
    refine .inr ⟨Outcome.files_reported _, ?_, fun can => ?_⟩
    · rw [Outcome.reported, Outcome.failed]
      dsimp only
      split <;> simp
    · exact Outcome.status_reported_of_value (recorded_error can done) surroundings.files

end Command

/-! ## A folder -/

def keptRecord : PlanRecord :=
  ⟨"text-1505", "", "0002b606", "2023-12-31T00:00:00+00:00", "v0"⟩

/-- A folder with a file of plans and a file of one record. -/
def planSurroundings (plans : String) : Surroundings :=
  ⟨⟨[], [(["plans.json"], .file plans.toUTF8.toList),
      (["db.json"], .file (Plan.write [keptRecord]).toUTF8.toList)]⟩,
    .ok "", [], "2024-01-01T00:00:00+00:00", ⟨fun _ => .ok (), fun _ => .ok (), fun _ _ => .ok []⟩, 900⟩

def planFile : Location := ⟨"", ["plans.json"]⟩

def recordFile : Location := ⟨"", ["db.json"]⟩

def onePlan : String :=
  "[\x7b\"query\": \"RETURN 1\", \"plan\": 1\x7d]"

/-- Plans whose last entry is none. -/
def brokenPlans : String :=
  "[\x7b\"query\": \"RETURN 1\", \"plan\": 1\x7d, null]"

private theorem read_planFile (s : String) :
    (planSurroundings s).files.read planFile = .ok s.toUTF8.toList := by
  have plain : planFile.hasNull = false := by simp [planFile, Location.hasNull]
  rw [Files.read, plain]
  rfl

private theorem status_recordFile (s : String) :
    (planSurroundings s).files.status recordFile = .found (.file (Plan.write [keptRecord]).toUTF8.toList) := by
  rfl

private theorem writable_recordFile (s : String) :
    ∃ after, (planSurroundings s).files.write recordFile [] = .ok after := by
  have plain : recordFile.hasNull = false := by simp [recordFile, Location.hasNull]
  refine ⟨_, Files.write_eq_ok_iff.mpr ⟨plain, (planSurroundings s).files, rfl, ?_, ?_, rfl⟩⟩
  · simp [status_recordFile]
  · simp [status_recordFile]

private theorem load_recordFile (s : String) :
    Plan.load recordFile (planSurroundings s).files = .ok [keptRecord] := by
  have plain : recordFile.hasNull = false := by simp [recordFile, Location.hasNull]
  have stored : (planSurroundings s).files.read recordFile =
      .ok (Plan.write [keptRecord]).toUTF8.toList := by
    rw [Files.read, plain, status_recordFile]
    rfl
  have there : (planSurroundings s).files.contains recordFile = true := by
    rw [Files.contains, plain, status_recordFile]
    rfl
  rw [Plan.load, if_pos there, Files.readText_of_read (Plan.return_notMem_write _) stored]
  simpa only [Except.bind] using Plan.parse_write [keptRecord]

private theorem recorded_onePlan (version : String) :
    ∃ record after, recorded version planFile recordFile (planSurroundings onePlan) = .ok ([record], after) := by
  have readable := Files.readText_of_read (by decide +kernel) (read_planFile onePlan)
  have single : ((readDocument 900 onePlan).bind Plan.entriesOf).toOption.map List.length = some 1 := by
    decide +kernel
  cases read : readDocument 900 onePlan with
  | error fault => simp [read, Except.bind, Except.toOption] at single
  | ok document =>
    have json := (isJson_and_isWritable_of_readDocument read).1
    rcases Plan.entriesOf_cases version (planSurroundings onePlan).now json with
      ⟨items, entries, records, -, listed, created, -⟩ | ⟨fault, rejected, -⟩
    · obtain ⟨after, done⟩ := recorded_of_read readable read listed created (load_recordFile onePlan)
        (writable_recordFile onePlan)
      have count : records.length = 1 := by
        rw [← (mapM_eq_ok_iff.mp created).length_eq]
        simpa [read, Except.bind, listed, Except.toOption] using single
      obtain ⟨record, rfl⟩ := List.length_eq_one_iff.mp count
      exact ⟨record, after, done⟩
    · simp [read, Except.bind, rejected, Except.toOption] at single

private def listsMaps : Except Fault Value → Bool
  | .ok (.list items) => items.all fun item => match item with
    | .map _ => true
    | _ => false
  | _ => false

private theorem listsMaps_of_records {version timestamp : String} {items : List Value}
    {records : List PlanRecord} (all : List.Forall₂ (Plan.IsRecordOf version timestamp) items records) :
    listsMaps (.ok (.list items)) = true := by
  induction all with
  | nil => rfl
  | cons made _ ih =>
    obtain ⟨fields, -, -, rfl, -⟩ := made.content
    exact ih

theorem record_appends_or_keeps_folder :
    (let surroundings := planSurroundings onePlan
     let outcome := ((Command.record "v1" planFile recordFile).run surroundings).written fun _ => none
     Appends "v1" planFile recordFile surroundings outcome ∧
      ∃ record, Plan.load recordFile outcome.files = .ok [keptRecord, record]) ∧
    let surroundings := planSurroundings brokenPlans
    let outcome := ((Command.record "v1" planFile recordFile).run surroundings).written fun _ => none
    CanRecord planFile recordFile surroundings ∧ outcome.files = surroundings.files ∧
      outcome.status = .ok 2 := by
  constructor
  · intro surroundings outcome
    obtain ⟨record, after, done⟩ := recorded_onePlan "v1"
    have ends : outcome = _ := written_of_recorded (fun _ => none) done rfl
    obtain ⟨source, items, old, -, -, loaded, -, stored⟩ := recorded_ok done
    cases loaded.symm.trans (load_recordFile onePlan)
    rcases record_appends_or_keeps "v1" planFile recordFile surroundings (fun _ => none) fun _ => rfl with
      appends | ⟨-, refused, -⟩
    · exact ⟨appends, record, by rw [ends]; exact stored⟩
    · have succeeded : outcome.status = .ok 0 := by rw [ends]; rfl
      exact absurd succeeded refused
  · intro surroundings outcome
    have given := read_planFile brokenPlans
    have readable := Files.readText_of_read (by decide +kernel) given
    have can : CanRecord planFile recordFile surroundings := by
      refine ⟨⟨_, given⟩, fun source same => ?_, writable_recordFile brokenPlans⟩
      cases same.symm.trans readable
      decide +kernel
    rcases record_appends_or_keeps "v1" planFile recordFile surroundings (fun _ => none) fun _ => rfl with
      ⟨-, source, items, old, new, same, read, -, all, -⟩ | ⟨same, -, status⟩
    · -- Every entry that is recorded is a map, but the last one is none.
      cases same.symm.trans readable
      have broken : listsMaps (readDocument 900 brokenPlans) = false := by decide +kernel
      rw [show readDocument 900 brokenPlans = _ from read, listsMaps_of_records all] at broken
      cases broken
    · exact ⟨can, same, status can⟩

/-- Lists in lists, written without anything else. -/
def brackets (levels : Nat) : List Char :=
  List.replicate levels '[' ++ List.replicate levels ']'

def nestedPlans : String :=
  String.ofList (brackets 901)

/-- What an output without accents objects to. -/
def plainObjection? (line : String) : Option String :=
  if line.toList.all fun c => c.toNat < 128 then none else some "ordinal not in range(128)"

private theorem toList_nestedPlans : nestedPlans.toList = brackets 901 :=
  String.toList_ofList

set_option maxRecDepth 10000 in
private theorem exists_parse_nestedPlans : ∃ document, Json.parse nestedPlans = .ok document := by
  have closed : (Json.parseChars (brackets 901)).toBool = true := by decide +kernel
  cases parsed : Json.parse nestedPlans with
  | error fault =>
    rw [Json.parse, toList_nestedPlans] at parsed
    rw [parsed] at closed
    cases closed
  | ok document => exact ⟨document, rfl⟩

set_option maxRecDepth 10000 in
private theorem isTooDeep_nestedPlans : Json.isTooDeep 900 nestedPlans = true := by
  have levels : Json.deepest 0 false (brackets 901) = 901 := by decide +kernel
  obtain ⟨document, parsed⟩ := exists_parse_nestedPlans
  have taken : Json.taken nestedPlans = brackets 901 := by
    rw [Json.taken, parsed]
    exact toList_nestedPlans
  rw [Json.isTooDeep, taken, levels]
  exact decide_eq_true (by omega)

private theorem readText_nestedPlans :
    (planSurroundings nestedPlans).files.readText planFile = .ok nestedPlans := by
  refine Files.readText_of_read ?_ (read_planFile nestedPlans)
  rw [toList_nestedPlans, brackets, List.mem_append, List.mem_replicate, List.mem_replicate]
  decide

private theorem readDocument_nestedPlans : readDocument 900 nestedPlans = .error .tooDeep := by
  rw [readDocument, isTooDeep_nestedPlans, if_pos rfl]

/-- Plans that are nested too deeply are no expected fault, and a version that the output cannot express
is reported after its records were written. -/
theorem not_appends_or_keeps :
    (let surroundings := planSurroundings nestedPlans
     let outcome := ((Command.record "v1" planFile recordFile).run surroundings).written fun _ => none
     (∃ document, Json.parse nestedPlans = .ok document) ∧
      surroundings.files.readText planFile = .ok nestedPlans ∧
      (∃ after, surroundings.files.write recordFile [] = .ok after) ∧
      outcome.status ≠ .ok 0 ∧ outcome.status ≠ .ok 2) ∧
    let surroundings := planSurroundings onePlan
    let outcome := ((Command.record "\u00e9" planFile recordFile).run surroundings).written plainObjection?
    outcome.status = .ok 2 ∧ outcome.files ≠ surroundings.files := by
  constructor
  · intro surroundings outcome
    have refused : recorded "v1" planFile recordFile surroundings = .error .tooDeep :=
      bind_eq_error_iff.mpr (.inr ⟨_, readText_nestedPlans,
        bind_eq_error_iff.mpr (.inl readDocument_nestedPlans)⟩)
    have ends : outcome = (Outcome.failed .tooDeep surroundings.files).reported := by
      rw [← Outcome.written_failed fun _ => none, ← run_of_refused refused]
    have status : outcome.status = .error .tooDeep := by
      rw [ends]
      rfl
    exact ⟨exists_parse_nestedPlans, readText_nestedPlans, writable_recordFile nestedPlans,
      by simp [status], by simp [status]⟩
  · intro surroundings outcome
    obtain ⟨record, after, done⟩ := recorded_onePlan "\u00e9"
    obtain ⟨source, items, old, -, -, loaded, -, stored⟩ := recorded_ok done
    have objected : plainObjection? (Plan.recordedMessage 1 "\u00e9") = some "ordinal not in range(128)" := by
      decide +kernel
    have ends : outcome.status = .ok 2 ∧ outcome.files = after := by
      simp only [outcome, surroundings, run_of_recorded done, Outcome.written, Outcome.printed,
        List.findSome?_cons, List.length_singleton, objected]
      exact ⟨rfl, Outcome.files_reported _⟩
    refine ⟨ends.1, fun same => ?_⟩
    rw [← ends.2, same, loaded] at stored
    simpa using Except.ok.inj stored

end CommandLine

end GraphQuery
