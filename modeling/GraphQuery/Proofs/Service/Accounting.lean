import GraphQuery.Proofs.Outcome
import GraphQuery.Query.Templates
import GraphQuery.Service.Run

/-! # What is recorded about queries

A query that is run leaves traces: in the session that it is sent to, with the tracker of latencies and
in the log. `Session.accounted_runQuery` says that each run leaves them once. A run that returns was
sent once, is one sample and one entry; a run that fails is no sample, and one entry if its fault
belongs to the domain. No other fault is logged, so a decoder that cannot decode leaves no trace. All of
this is said of loggers that take every entry: a logger that fails would end the run with its own fault.
-/

namespace GraphQuery

namespace Query

/-- A query that can be written has a digest. -/
theorem exists_hash {query : Query} {statement : Statement} (built : query.build = .ok statement) :
    ∃ hash, query.hash = .ok hash := by
  obtain ⟨normal, normalized, -⟩ := bind_eq_ok_iff.mp built
  exact ⟨_, by rw [hash, normalized]; rfl⟩

end Query

namespace Observers

/-- The milliseconds between the next two readings of the clock. -/
def elapsed? (observers : Observers) : Option Number :=
  (observers.read.2.read.1.sub? observers.read.1).bind fun seconds => seconds.mul? (.int 1000)

/-- A clock that shows floats gives a float, also one that is not a number or infinite. -/
theorem elapsed?_of_floats {observers : Observers} {started ended : Float} {later : List Number}
    (shows : observers.clock = .float started :: .float ended :: later) :
    observers.elapsed? = some (.float ((ended - started) * 1000)) := by
  have nearest : Decimal.toFloat ⟨1000, 0⟩ = 1000 := by decide +kernel
  have finite : (1000 : Float).isInf = false := by decide +kernel
  simp [elapsed?, read, shows, Number.sub?, Number.mul?, Number.toFloat?, nearest, finite]

@[simp] theorem tracker_read (observers : Observers) : observers.read.2.tracker = observers.tracker := by
  unfold read
  split <;> rfl

@[simp] theorem log_read (observers : Observers) : observers.read.2.log = observers.log := by
  unfold read
  split <;> rfl

theorem milliseconds_eq (observers : Observers) :
    milliseconds observers.read.1 observers.read.2.read.1 =
      match observers.elapsed? with
      | some duration => .ok duration
      | none => .error .tooLargeForFloat := rfl

end Observers

namespace Session

variable {query : Query} {statement : Statement} {decoder : Decoder} {hash timestamp : String}
  {observers : Observers} {session : Session} {results : List Value} {fault : Fault}

/-- The traces of a run, given its outcome, the observers and the session afterwards. `logged` says
which faults have to be logged. -/
structure Accounted (logged : Fault → Prop) (statement : Statement) (hash timestamp : String)
    (observers : Observers) (session : Session)
    (run : Except Fault (List Value) × Observers × Session) : Prop where
  returned : ∀ results, run.1 = .ok results →
    run.2.2.sent = session.sent ++ [statement] ∧
    ∃ duration, observers.elapsed? = some duration ∧
      run.2.1.tracker = observers.tracker.map (LatencyTracker.record duration) ∧
      run.2.1.log = observers.log.map
        (· ++ [.completed ⟨hash, statement.text, duration, 0, timestamp, .null⟩])
  raised : ∀ fault, run.1 = .error fault →
    run.2.1.tracker = observers.tracker ∧
    (logged fault → run.2.1.log = observers.log.map (· ++ [.failed hash statement.text fault]))

/-- A run that returns was sent. -/
theorem sent_run_of_ok (returned : (session.run statement decoder).1 = .ok results) :
    (session.run statement decoder).2.sent = session.sent ++ [statement] := by
  obtain decode | given := decoder
  · rw [← sent_send]
    unfold run
    dsimp only [Decoder.function]
    split <;> simp_all
  · cases returned

section Running

variable {after : Session} (built : query.build = .ok statement) (hashed : query.hash = .ok hash)
include built hashed

theorem runQuery_of_error (ran : session.run statement decoder = (.error fault, after)) :
    session.runQuery query decoder timestamp observers =
      (.error fault,
        if fault.isDomain then observers.read.2.logFailure hash statement.text fault
        else observers.read.2, after) := by
  simp only [runQuery, built, hashed, ofTree, ran]
  cases domain : fault.isDomain <;> simp

theorem runQuery_of_ok (ran : session.run statement decoder = (.ok results, after)) :
    session.runQuery query decoder timestamp observers =
      match observers.elapsed? with
      | some duration => (.ok results,
          observers.read.2.read.2.logSuccess ⟨hash, statement.text, duration, 0, timestamp, .null⟩, after)
      | none => (.error .tooLargeForFloat, observers.read.2.read.2, after) := by
  simp only [runQuery, built, hashed, ofTree, ran, Observers.milliseconds_eq]
  cases observers.elapsed? <;> rfl

/-- With a log, a fault outside the domain is missing there. -/
theorem not_accounted_of_not_isDomain (ran : session.run statement decoder = (.error fault, after))
    (outside : fault.isDomain = false) {entries : List QueryRecord} (hasLog : observers.log = some entries) :
    ¬Accounted (fun _ => True) statement hash timestamp observers session
      (session.runQuery query decoder timestamp observers) := by
  rw [runQuery_of_error built hashed ran, outside]
  intro accounted
  have logged := (accounted.raised fault rfl).2 trivial
  simp [hasLog] at logged

/-- A run leaves its traces once. -/
theorem accounted_of_hash : Accounted (fun fault => fault.isDomain = true) statement hash timestamp observers
    session (session.runQuery query decoder timestamp observers) := by
  cases ran : session.run statement decoder with
  | mk outcome after =>
    cases outcome with
    | error fault =>
      rw [runQuery_of_error built hashed ran]
      refine ⟨fun _ returned => (by cases returned), fun other raised => ?_⟩
      cases raised
      cases domain : fault.isDomain <;> simp [Observers.logFailure]
    | ok results =>
      have sent : after.sent = session.sent ++ [statement] := by
        have whole : (session.run statement decoder).2.sent = session.sent ++ [statement] :=
          sent_run_of_ok (congrArg Prod.fst ran)
        rwa [ran] at whole
      rw [runQuery_of_ok built hashed ran]
      cases passed : observers.elapsed? with
      | none =>
        refine ⟨fun _ returned => (by cases returned), fun other raised => ?_⟩
        cases raised
        exact ⟨by simp, fun domain => by cases domain⟩
      | some duration =>
        refine ⟨fun _ _ => ⟨sent, duration, passed, ?_, ?_⟩, fun other raised => (by cases raised)⟩
        · simp [Observers.logSuccess]
        · simp [Observers.logSuccess]

end Running

/-- Every run of a query that can be written is accounted for once. It ends as the run of its statement
does if the time that has passed can be computed; with a decoder that cannot decode, nothing is sent
and nothing is logged. The logger is one that never fails. -/
theorem accounted_runQuery (built : query.build = .ok statement) (decoder : Decoder) (timestamp : String)
    (observers : Observers) (session : Session) :
    let run := session.runQuery query decoder timestamp observers
    ∃ hash, query.hash = .ok hash ∧
      Accounted (fun fault => fault.isDomain = true) statement hash timestamp observers session run ∧
      (observers.elapsed?.isSome → run.1 = (session.run statement decoder).1) ∧
      ∀ given, decoder = .unsupported given →
        run.1 = .error (.plain .type s!"Unsupported decoder: {given.display}") ∧
          run.2.1.log = observers.log ∧ run.2.2 = session := by
  intro run
  obtain ⟨hash, hashed⟩ := Query.exists_hash built
  refine ⟨hash, hashed, accounted_of_hash built hashed, ?_, ?_⟩
  · intro passed
    obtain ⟨duration, passed⟩ := Option.isSome_iff_exists.mp passed
    cases ran : session.run statement decoder with
    | mk outcome after =>
      cases outcome with
      | error fault => simp only [run, runQuery_of_error built hashed ran]
      | ok results => simp only [run, runQuery_of_ok built hashed ran, passed]
  · rintro given rfl
    have ran : session.run statement (.unsupported given) =
        (.error (.plain .type s!"Unsupported decoder: {given.display}"), session) := rfl
    have whole : run = (.error (.plain .type s!"Unsupported decoder: {given.display}"),
        observers.read.2, session) := runQuery_of_error built hashed ran
    rw [whole]
    exact ⟨rfl, observers.log_read, rfl⟩

/-- A query whose clauses are not in order. -/
def disordered : Query :=
  ⟨[.returnClause [.variableItem "p" .null], .matchClause (.node "p" [] none) (.bool false)],
    [(.text "least", .int 18)]⟩

def ordered : Statement :=
  ⟨"MATCH (p) RETURN p", [(.text "least", .int 18)]⟩

/-- A tracker and a log that are not empty, and a clock. -/
def watching : Observers :=
  ⟨some ⟨2, [.int 7]⟩, some [.failed "" "" Decoder.emptyColumn], [.float 1.0, .float 1.25]⟩

/-- A database that answers with one record of one column. -/
def oneColumn : Session :=
  start fun _ _ => .ok [.list [.int 1]]

/-- A database that answers with one record without columns. -/
def noColumn : Session :=
  start fun _ _ => .ok [.list []]

/-- The clauses of a query are sent in order, and a quarter of a second is a sample of 250
milliseconds. -/
theorem accounted_runQuery_disordered :
    disordered.build = .ok ordered ∧
      let run := oneColumn.runQuery disordered .identity "" watching
      run.1 = .ok [.int 1] ∧ run.2.2.sent = [ordered] ∧
        run.2.1.tracker = some ⟨2, [.int 7, .float 250]⟩ ∧
          ∃ hash, disordered.hash = .ok hash ∧ run.2.1.log = some [.failed "" "" Decoder.emptyColumn,
            .completed ⟨hash, "MATCH (p) RETURN p", .float 250, 0, "", .null⟩] := by
  have built : disordered.build = .ok ordered := by rfl
  obtain ⟨hash, hashed, accounted, ended, -⟩ := accounted_runQuery built .identity "" watching oneColumn
  have quarter : watching.elapsed? = some (.float 250) := by
    have milliseconds : ((1.25 : Float) - 1.0) * 1000 = 250 := by decide +kernel
    rw [Observers.elapsed?_of_floats rfl, milliseconds]
  have returned : (oneColumn.runQuery disordered .identity "" watching).1 = .ok [.int 1] := by
    rw [ended (by rw [quarter]; rfl)]
    rfl
  obtain ⟨sent, duration, passed, sampled, logged⟩ := accounted.returned _ returned
  obtain rfl : .float 250 = duration := Option.some.inj (quarter.symm.trans passed)
  exact ⟨built, returned, sent, sampled, hash, hashed, logged⟩

/-- Neither the fault of a decoder that cannot decode nor that of a record without columns is logged. -/
theorem not_accounted_unlogged :
    disordered.build = .ok ordered ∧ ∃ hash, disordered.hash = .ok hash ∧
      ¬Accounted (fun _ => True) ordered hash "" watching oneColumn
        (oneColumn.runQuery disordered (.unsupported (.int 42)) "" watching) ∧
      ¬Accounted (fun _ => True) ordered hash "" watching noColumn
        (noColumn.runQuery disordered .identity "" watching) := by
  have built : disordered.build = .ok ordered := by rfl
  obtain ⟨hash, hashed⟩ := Query.exists_hash built
  refine ⟨built, hash, hashed, ?_, ?_⟩
  · exact not_accounted_of_not_isDomain built hashed rfl rfl (rfl : watching.log = some _)
  · exact not_accounted_of_not_isDomain built hashed rfl rfl (rfl : watching.log = some _)

end Session

end GraphQuery
