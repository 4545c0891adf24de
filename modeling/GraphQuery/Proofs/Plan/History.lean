import GraphQuery.Proofs.Plan.Comparison
import GraphQuery.Proofs.Plan.Kept

/-! # Histories of recorded plans

Plans are recorded by calls that are made one after another, starting without a file of records. A
report on two versions is a function of the plans that were given for each of them, in their order:
it depends neither on the plans given for other versions, nor on how the plans were divided into
calls, nor on the order in which the calls for the two versions were made. Only the note of a report
that compares nothing also tells whether there is a file at all.
-/

namespace GraphQuery.Plan

/-- A call that records plans for a version. -/
structure Recording where
  version : String
  timestamp : String
  plans : List (Subject × Value)

/-- Makes calls one after another: those that succeeded, and the files afterwards. A call that fails
leaves the files as they were. -/
def recordings (location : Location) (files : Files) : List Recording → List Recording × Files
  | [] => ([], files)
  | call :: rest =>
    match record call.version call.timestamp call.plans location files with
    | .ok (_, after) =>
      let (done, last) := recordings location after rest
      (call :: done, last)
    | .error _ => recordings location files rest

/-- The plans that calls give for a version, in their order. -/
def givenFor (version : String) (calls : List Recording) : List (Subject × Value) :=
  (calls.filter fun call => call.version = version).flatMap Recording.plans

def observe (plan : Subject × Value) : Except Fault Observation := do
  let (hash, text) ← plan.1.key
  let planDigest ← digest plan.2
  .ok ⟨hash, text, planDigest⟩

/-- Whether everything that a call gives can be observed. -/
def Recording.isObservable (call : Recording) : Bool :=
  (call.plans.mapM observe).isOk

theorem givenFor_append (version : String) (calls others : List Recording) :
    givenFor version (calls ++ others) = givenFor version calls ++ givenFor version others := by
  rw [givenFor, List.filter_append, List.flatMap_append]
  rfl

theorem givenFor_singleton (version : String) (call : Recording) :
    givenFor version [call] = if call.version = version then call.plans else [] := by
  by_cases own : call.version = version <;> simp [givenFor, own]

theorem observed_append (version : String) (records others : List PlanRecord) :
    observed version (records ++ others) = observed version records ++ observed version others := by
  rw [observed, List.filter_append, List.map_append]
  rfl

/-! ## One call -/

/-- A record says what is observed of its plan. -/
theorem observe_of_create {version timestamp : String} {plan : Subject × Value} {made : PlanRecord}
    (done : PlanRecord.create version timestamp plan.1 plan.2 = .ok made) :
    observe plan = .ok (observation made) ∧ made.version = version := by
  obtain ⟨⟨hash, text⟩, key, done⟩ := bind_eq_ok_iff.mp done
  obtain ⟨planDigest, digested, done⟩ := bind_eq_ok_iff.mp done
  cases done
  refine ⟨?_, rfl⟩
  simp only [observe, key, digested, bind, Except.bind]
  rfl

/-- The records of a call say what is observed of its plans, for the version of the call. -/
theorem observe_of_recordAll {version timestamp : String} {plans : List (Subject × Value)}
    {made : List PlanRecord} (done : recordAll version timestamp plans = .ok made) :
    plans.mapM observe = .ok (made.map observation) ∧ ∀ record ∈ made, record.version = version := by
  have all := mapM_eq_ok_iff.mp done
  clear done
  induction all with
  | nil => exact ⟨rfl, by simp⟩
  | cons created _ ih =>
    obtain ⟨seen, same⟩ := observe_of_create created
    refine ⟨?_, List.forall_mem_cons.mpr ⟨same, ih.2⟩⟩
    rw [List.mapM_cons, seen, ih.1]
    rfl

/-- Plans that can be observed can be recorded. -/
theorem exists_recordAll_of_observe (version timestamp : String) {plans : List (Subject × Value)}
    {seen : List Observation} (done : plans.mapM observe = .ok seen) :
    ∃ made, recordAll version timestamp plans = .ok made := by
  have all := mapM_eq_ok_iff.mp done
  clear done
  induction all with
  | nil => exact ⟨[], rfl⟩
  | cons observed _ ih =>
    obtain ⟨others, made⟩ := ih
    obtain ⟨⟨hash, text⟩, key, observed⟩ := bind_eq_ok_iff.mp observed
    obtain ⟨planDigest, digested, -⟩ := bind_eq_ok_iff.mp observed
    refine ⟨⟨hash, text, planDigest, timestamp, version⟩ :: others,
      mapM_eq_ok_iff.mpr (.cons ?_ (mapM_eq_ok_iff.mp made))⟩
    simp only [PlanRecord.create, key, digested, bind, Except.bind]

/-- The plans of a call are observed for its version and for no other one. -/
theorem observe_givenFor {call : Recording} {made : List PlanRecord}
    (done : recordAll call.version call.timestamp call.plans = .ok made) (version : String) :
    (givenFor version [call]).mapM observe = .ok (observed version made) := by
  obtain ⟨seen, same⟩ := observe_of_recordAll done
  by_cases own : call.version = version
  · have all : made.filter (fun record => record.version = version) = made :=
      List.filter_eq_self.mpr fun record member => decide_eq_true ((same record member).trans own)
    rw [observed, all, givenFor_singleton, if_pos own, seen]
  · have nothing : made.filter (fun record => record.version = version) = [] :=
      List.filter_eq_nil_iff.mpr fun record member => by rwa [same record member, decide_eq_true_eq]
    rw [observed, nothing, givenFor_singleton, if_neg own]
    rfl

/-! ## Whole histories -/

/-- What the file of records holds after calls have succeeded: for every version, what was observed of
the plans that were given for it. Without calls there is no file. -/
structure Keeps (location : Location) (done : List Recording) (files : Files) : Prop where
  contains : files.contains location = true ↔ done ≠ []
  loaded : ∃ records, load location files = .ok records ∧
    ∀ version, (givenFor version done).mapM observe = .ok (observed version records)

theorem keeps_nil {location : Location} {files : Files} (absent : files.contains location = false) :
    Keeps location [] files :=
  ⟨by simp [absent], [], load_of_not_contains absent, fun _ => rfl⟩

/-- A call that succeeds adds its observations. -/
theorem Keeps.append {location : Location} {done : List Recording} {files after : Files}
    (keeps : Keeps location done files) {call : Recording} {made : List PlanRecord}
    (ran : record call.version call.timestamp call.plans location files = .ok (made, after)) :
    Keeps location (done ++ [call]) after := by
  obtain ⟨old, loaded, seen⟩ := keeps.loaded
  obtain ⟨records, read, created, there, stored⟩ := record_eq_ok ran
  cases loaded.symm.trans read
  refine ⟨by simp [there], old ++ made, stored, fun version => ?_⟩
  rw [givenFor_append, observed_append, List.mapM_append, seen version, observe_givenFor created version]
  rfl

/-- The file holds what was observed of the plans of all calls that succeeded. -/
theorem Keeps.recordings {location : Location} {before : List Recording} {files : Files}
    (keeps : Keeps location before files) (calls : List Recording) :
    Keeps location (before ++ (recordings location files calls).1) (recordings location files calls).2 := by
  induction calls generalizing before files with
  | nil => rwa [Plan.recordings, List.append_nil]
  | cons call rest ih =>
    rw [Plan.recordings]
    split
    · rename_i made after ran
      have kept := ih (keeps.append ran)
      rwa [List.append_assoc] at kept
    · exact ih keeps

/-- Where the file can be written, a call succeeds if everything that it gives can be observed. -/
theorem Keeps.recordings_eq_filter {location : Location} {before : List Recording} {files : Files}
    (keeps : Keeps location before files) (writable : ∃ probe, files.write location [] = .ok probe)
    (calls : List Recording) :
    (Plan.recordings location files calls).1 = calls.filter Recording.isObservable := by
  induction calls generalizing before files with
  | nil => rfl
  | cons call rest ih =>
    obtain ⟨old, loaded, -⟩ := keeps.loaded
    obtain ⟨probe, writable⟩ := writable
    rw [Plan.recordings]
    cases observed : call.plans.mapM observe with
    | ok seen =>
      obtain ⟨made, created⟩ := exists_recordAll_of_observe call.version call.timestamp observed
      obtain ⟨after, saved⟩ := Files.exists_write writable (write (old ++ made)).toUTF8.toList
      have ran : record call.version call.timestamp call.plans location files = .ok (made, after) := by
        simp only [record, loaded, created, save, Files.writeText, saved, bind, Except.bind]
      have observable : call.isObservable = true := by rw [Recording.isObservable, observed]; rfl
      rw [ran, List.filter_cons_of_pos observable,
        ← ih (keeps.append ran) (Files.exists_write_again saved [])]
    | error fault =>
      have unobservable : ¬ call.isObservable = true := by
        simp [Recording.isObservable, observed, Except.isOk, Except.toBool]
      rw [List.filter_cons_of_neg unobservable, ← ih keeps ⟨probe, writable⟩]
      cases ran : record call.version call.timestamp call.plans location files with
      | error other => rfl
      | ok result =>
        obtain ⟨made, after⟩ := result
        obtain ⟨-, -, created, -⟩ := record_eq_ok ran
        cases observed.symm.trans (observe_of_recordAll created).1

/-- The report on two versions is made of what was observed for them, if there is a file. -/
theorem Keeps.detect_eq {location : Location} {done : List Recording} {files : Files}
    (keeps : Keeps location done files) (current previous : String) (threshold : Number) :
    ∃ now before, (givenFor current done).mapM observe = .ok now ∧
      (givenFor previous done).mapM observe = .ok before ∧
      detect current previous threshold location files =
        .ok (if done = [] then DriftReport.missing current previous threshold location.text
          else reportOn current previous threshold now before) := by
  obtain ⟨records, loaded, seen⟩ := keeps.loaded
  refine ⟨_, _, seen current, seen previous, ?_⟩
  rw [detect]
  by_cases none : done = []
  · rw [if_neg fun there => keeps.contains.mp there none, if_pos none]
  · rw [if_pos (keeps.contains.mpr none), if_neg none, loaded, ← DriftReport.compare_eq_reportOn]
    rfl

private theorem reports_detected {done : List Recording} {current : String} {now : List Observation}
    (seen : (givenFor current done).mapM observe = .ok now) (previous : String) (threshold : Number)
    (location : Location) (before : List Observation) :
    Reports now before (if done = [] then DriftReport.missing current previous threshold location.text
      else reportOn current previous threshold now before) := by
  split
  · rename_i none
    obtain rfl : now = [] := by
      rw [none] at seen
      exact (Except.ok.inj seen).symm
    exact ⟨fun some => absurd rfl some, fun _ => ⟨rfl, rfl, rfl⟩⟩
  · exact reports_reportOn current previous threshold now before

/-- Starting without a file of records, the report on two versions after any calls is a report on what
was observed of the plans that were given for them. A call that gives something that cannot be
observed fails and counts for nothing. Calls with the same plans for both versions lead to the same
changes and the same total, and to the same report if there is a file after both or after neither; as
long as there is none, the report says so. -/
theorem detect_recordings {location : Location} {files : Files}
    (absent : files.contains location = false) (calls : List Recording) (current previous : String)
    (threshold : Number) :
    let done := (recordings location files calls).1
    ((∃ probe, files.write location [] = .ok probe) → done = calls.filter Recording.isObservable) ∧
    ∃ now before report, (givenFor current done).mapM observe = .ok now ∧
      (givenFor previous done).mapM observe = .ok before ∧
      detect current previous threshold location (recordings location files calls).2 = .ok report ∧
      Reports now before report ∧
      (done = [] → report = DriftReport.missing current previous threshold location.text) ∧
      ∀ others : List Recording,
        givenFor current (recordings location files others).1 = givenFor current done →
        givenFor previous (recordings location files others).1 = givenFor previous done →
        ∃ other, detect current previous threshold location (recordings location files others).2 =
            .ok other ∧ other.total = report.total ∧ other.changes = report.changes ∧
          (((recordings location files others).1 = [] ↔ done = []) → other = report) := by
  intro done
  have keeps (calls : List Recording) : Keeps location (recordings location files calls).1
      (recordings location files calls).2 := (keeps_nil absent).recordings calls
  refine ⟨fun writable => (keeps_nil absent).recordings_eq_filter writable calls, ?_⟩
  obtain ⟨now, before, seenNow, seenBefore, detected⟩ :=
    (keeps calls).detect_eq current previous threshold
  have reports := reports_detected seenNow previous threshold location before
  refine ⟨now, before, _, seenNow, seenBefore, detected, reports, fun none => if_pos none, ?_⟩
  intro others sameNow sameBefore
  obtain ⟨now', before', seenNow', seenBefore', detected'⟩ :=
    (keeps others).detect_eq current previous threshold
  obtain rfl : now = now' := Except.ok.inj (seenNow.symm.trans ((congrArg _ sameNow.symm).trans seenNow'))
  obtain rfl : before = before' :=
    Except.ok.inj (seenBefore.symm.trans ((congrArg _ sameBefore.symm).trans seenBefore'))
  obtain ⟨total, changes⟩ := reports.agree (reports_detected seenNow' previous threshold location before)
  refine ⟨_, detected', total, changes, fun both => ?_⟩
  simp only [both]
  rfl

def emptyFolder : Files := ⟨[], []⟩

def recordsFile : Location := ⟨"", ["plans.json"]⟩

private theorem emptyFolder_ready :
    emptyFolder.contains recordsFile = false ∧ ∃ probe, emptyFolder.write recordsFile [] = .ok probe := by
  have plain : recordsFile.hasNull = false := by simp [Location.hasNull, recordsFile]
  refine ⟨?_, _, Files.write_eq_ok_iff.mpr
    ⟨plain, _, rfl, Status.noConfusion, Status.noConfusion, rfl⟩⟩
  rw [Files.contains, plain]
  rfl

/-- A call that gives one plan of one query. -/
def callFor (version : String) (plan : Int) : Recording :=
  ⟨version, "2024-05-01T00:00:00+00:00", [(.text "RETURN 1", .int plan)]⟩

/-- Of two records of a query for a version the last one counts. -/
theorem detect_recordings_last :
    let calls := [callFor "v1" 1, callFor "v2" 1, callFor "v3" 3, callFor "v2" 2]
    emptyFolder.contains recordsFile = false ∧
    ∃ report, detect "v2" "v1" DriftReport.standardThreshold recordsFile
        (recordings recordsFile emptyFolder calls).2 = .ok report ∧
      report.total = 1 ∧ report.note = none ∧
      report.changes = [⟨"RETURN 1", GraphQuery.digest "1", GraphQuery.digest "2"⟩] := by
  intro calls
  obtain ⟨absent, writable⟩ := emptyFolder_ready
  obtain ⟨all, now, before, report, seenNow, seenBefore, detected, reports, -, -⟩ :=
    detect_recordings absent calls "v2" "v1" DriftReport.standardThreshold
  have done : (recordings recordsFile emptyFolder calls).1 = calls := all writable
  rw [done] at seenNow seenBefore
  cases seenNow
  cases seenBefore
  obtain ⟨total, changes, note⟩ := reports.compared (List.cons_ne_nil _ _) (List.cons_ne_nil _ _)
  exact ⟨absent, report, detected, total, note, changes⟩

/-- Plans for another version change a report that compares nothing: its note tells that there is a
file now. -/
theorem detect_ne_of_other_version :
    let other := callFor "v3" 3
    let before := emptyFolder
    let after := (recordings recordsFile before [other]).2
    before.contains recordsFile = false ∧ (recordings recordsFile before [other]).1 = [other] ∧
    givenFor "v1" [other] = givenFor "v1" [] ∧ givenFor "v2" [other] = givenFor "v2" [] ∧
    ∃ first second, detect "v1" "v2" DriftReport.standardThreshold recordsFile before = .ok first ∧
      detect "v1" "v2" DriftReport.standardThreshold recordsFile after = .ok second ∧
      first.note = some "No plan database found at plans.json" ∧
      second.note = some "No plans found for current version v1" ∧ first ≠ second := by
  intro other before after
  obtain ⟨absent, writable⟩ := emptyFolder_ready
  have keeps := keeps_nil absent
  have done : (recordings recordsFile before [other]).1 = [other] :=
    keeps.recordings_eq_filter writable [other]
  have kept := keeps.recordings [other]
  rw [done] at kept
  obtain ⟨_, _, _, _, first⟩ := keeps.detect_eq "v1" "v2" DriftReport.standardThreshold
  obtain ⟨now, _, seen, _, second⟩ := kept.detect_eq "v1" "v2" DriftReport.standardThreshold
  cases seen
  refine ⟨absent, done, rfl, rfl, _, _, first, second, rfl, rfl, fun same => ?_⟩
  have notes : some "No plan database found at plans.json" =
      some "No plans found for current version v1" := congrArg DriftReport.note same
  exact absurd notes (by decide)

end GraphQuery.Plan
