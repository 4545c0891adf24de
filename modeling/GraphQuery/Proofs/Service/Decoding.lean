import GraphQuery.Proofs.Outcome
import GraphQuery.Service.Run

/-! # How runs of statements end

A run decodes the first column of every record, or it fails because of the database or because of a
record. `Session.Classified` says how these ends should look to a caller who handles faults of the
domain only, and `Session.classified_run_iff` says for which sessions and decoders they do: what the
access to a column raises is not handled, and neither is a fault of the decoder that is not taken for
a rejection of the value.
-/

namespace GraphQuery

/-! ## Single records -/

namespace Decoder

/-- Whether a record has a first column, which is not null and which is decoded to a result. -/
def DecodesTo (decode : Value → Except Fault Value) (record result : Value) : Prop :=
  ∃ raw, firstColumn record = .ok raw ∧ raw ≠ .null ∧ decode (data raw) = .ok result

/-- Why a record has no result, and the fault of the domain that should say so. -/
inductive RefusedWith (decode : Value → Except Fault Value) (record : Value) : Fault → Prop where
  | missing {inner : Fault} (message : String) (cause : Option Fault) (schema rawData : Value) :
      firstColumn record = .error inner →
      RefusedWith decode record (.validation message cause schema rawData)
  | null : firstColumn record = .ok .null → RefusedWith decode record emptyColumn
  | rejected {raw : Value} {inner : Fault} : firstColumn record = .ok raw → raw ≠ .null →
      decode (data raw) = .error inner → inner.isDomain = false →
      RefusedWith decode record (misfit raw inner)
  | passed {raw : Value} {fault : Fault} : firstColumn record = .ok raw → raw ≠ .null →
      decode (data raw) = .error fault → fault.isDomain = true → RefusedWith decode record fault

/-- Whether a record ends a run with a fault outside the domain: it has no first column, or the decoder
fails on it with a fault that is not taken for a rejection. -/
inductive Escapes (decode : Value → Except Fault Value) (record : Value) : Fault → Prop where
  | missing {fault : Fault} : firstColumn record = .error fault → Escapes decode record fault
  | unexpected {raw : Value} {fault : Fault} : firstColumn record = .ok raw → raw ≠ .null →
      decode (data raw) = .error fault → fault.isDomain = false → isRejection fault = false →
      Escapes decode record fault

section Records

variable {decode : Value → Except Fault Value} {record raw result : Value} {fault : Fault}

/-- What the access to a column raises is no fault of the domain. -/
theorem isDomain_of_firstColumn (missing : firstColumn record = .error fault) : fault.isDomain = false := by
  cases record with
  | list items | tuple items =>
    cases items with
    | nil => cases missing; rfl
    | cons => cases missing
  | text s =>
    simp only [firstColumn] at missing
    split at missing
    · cases missing
    · cases missing; rfl
  | map entries =>
    simp only [firstColumn] at missing
    split at missing
    · cases missing
    · cases missing; rfl
  | _ => cases missing; rfl

theorem isRejection_of_isDomain (domain : fault.isDomain = true) : isRejection fault = false := by
  cases fault with
  | domain kind => cases kind <;> rfl
  | _ => cases domain

theorem decodeColumn_of_ne_null (notNull : raw ≠ .null) :
    decodeColumn decode raw = match decode (data raw) with
      | .ok result => .ok result
      | .error fault => .error (if isRejection fault then misfit raw fault else fault) := by
  cases raw with
  | null => exact absurd rfl notNull
  | _ => rfl

theorem decodeRecord_of_firstColumn (present : firstColumn record = .ok raw) :
    decodeRecord decode record = decodeColumn decode raw := by
  rw [decodeRecord, present]
  rfl

theorem decodeRecord_of_missing (missing : firstColumn record = .error fault) :
    decodeRecord decode record = .error fault := by
  rw [decodeRecord, missing]
  rfl

theorem decodeRecord_eq_ok_iff : decodeRecord decode record = .ok result ↔ DecodesTo decode record result := by
  constructor
  · intro decoded
    cases column : firstColumn record with
    | error fault =>
      rw [decodeRecord_of_missing column] at decoded
      cases decoded
    | ok raw =>
      rw [decodeRecord_of_firstColumn column] at decoded
      have notNull : raw ≠ .null := by
        rintro rfl
        cases decoded
      rw [decodeColumn_of_ne_null notNull] at decoded
      refine ⟨raw, column, notNull, ?_⟩
      cases made : decode (data raw) with
      | ok other => simpa [made] using decoded
      | error fault => simp [made] at decoded
  · rintro ⟨raw, column, notNull, made⟩
    rw [decodeRecord_of_firstColumn column, decodeColumn_of_ne_null notNull, made]

theorem decodeRecord_of_escapes (escapes : Escapes decode record fault) :
    decodeRecord decode record = .error fault := by
  cases escapes with
  | missing column => exact decodeRecord_of_missing column
  | unexpected column notNull made _ noRejection =>
    rw [decodeRecord_of_firstColumn column, decodeColumn_of_ne_null notNull, made]
    simp [noRejection]

/-- A record without a result is refused as it should be, or what it raises escapes. -/
theorem refusedWith_or_escapes (failed : decodeRecord decode record = .error fault) :
    RefusedWith decode record fault ∨ Escapes decode record fault := by
  cases column : firstColumn record with
  | error inner =>
    rw [decodeRecord_of_missing column] at failed
    cases failed
    exact .inr (.missing column)
  | ok raw =>
    rw [decodeRecord_of_firstColumn column] at failed
    by_cases notNull : raw = .null
    · subst notNull
      cases failed
      exact .inl (.null column)
    rw [decodeColumn_of_ne_null notNull] at failed
    cases made : decode (data raw) with
    | ok result => simp [made] at failed
    | error inner =>
      simp only [made, Except.error.injEq] at failed
      cases domain : inner.isDomain with
      | true =>
        rw [isRejection_of_isDomain domain] at failed
        exact .inl (failed ▸ .passed column notNull made domain)
      | false =>
        cases rejection : isRejection inner with
        | true => exact .inl (by simpa [← failed, rejection] using .rejected column notNull made domain)
        | false => exact .inr (by simpa [← failed, rejection] using .unexpected column notNull made domain rejection)

theorem isDomain_of_refusedWith (refused : RefusedWith decode record fault) : fault.isDomain = true := by
  cases refused with
  | missing => rfl
  | null => rfl
  | rejected => rfl
  | passed _ _ _ domain => exact domain

theorem isDomain_of_escapes (escapes : Escapes decode record fault) : fault.isDomain = false := by
  cases escapes with
  | missing column => exact isDomain_of_firstColumn column
  | unexpected _ _ _ domain => exact domain

end Records

end Decoder

/-! ## Whole runs -/

namespace Session

/-- What the database answers to the next statement. -/
def answer (statement : Statement) (session : Session) : Except Fault (List Value) :=
  session.respond session.sent.length statement

/-- Whether a run comes to a record: the database answers with it, and the records before it have
results. -/
def ComesTo (session : Session) (statement : Statement) (decode : Value → Except Fault Value)
    (record : Value) : Prop :=
  ∃ before after, session.answer statement = .ok (before ++ record :: after) ∧
    ∀ earlier ∈ before, ∃ result, Decoder.DecodesTo decode earlier result

/-- How a run should end: with the results of all records, in their order; with the database's own
fault of the domain; with the fault of a query that wraps any other fault of the database; or as the
first record without a result is refused. -/
inductive Classified (session : Session) (statement : Statement) (decode : Value → Except Fault Value) :
    Except Fault (List Value) → Prop where
  | decoded {records results : List Value} : session.answer statement = .ok records →
      List.Forall₂ (Decoder.DecodesTo decode) records results →
      Classified session statement decode (.ok results)
  | own {fault : Fault} : session.answer statement = .error fault → fault.isDomain = true →
      Classified session statement decode (.error fault)
  | wrapped {inner : Fault} : session.answer statement = .error inner → inner.isDomain = false →
      Classified session statement decode (.error (.query "Cypher query execution failed" (some inner)
        (.text statement.text) statement.parameters))
  | refused {record : Value} {fault : Fault} : session.ComesTo statement decode record →
      Decoder.RefusedWith decode record fault → Classified session statement decode (.error fault)

section Runs

variable {session : Session} {statement : Statement} {decode : Value → Except Fault Value}
  {record : Value} {fault : Fault}

theorem comesTo_iff : session.ComesTo statement decode record ↔
    ∃ records, session.answer statement = .ok records ∧
      Reaches (Decoder.decodeRecord decode) records record := by
  simp only [ComesTo, Reaches, Decoder.decodeRecord_eq_ok_iff]
  constructor
  · rintro ⟨before, after, answered, ran⟩
    exact ⟨_, answered, before, after, rfl, ran⟩
  · rintro ⟨_, answered, before, after, rfl, ran⟩
    exact ⟨before, after, answered, ran⟩

theorem run_of_records {records : List Value} (answered : session.answer statement = .ok records) :
    (session.run statement (.using decode)).1 = records.mapM (Decoder.decodeRecord decode) := by
  unfold answer at answered
  simp only [run, Decoder.function, send, answered]

theorem run_of_fault (answered : session.answer statement = .error fault) :
    (session.run statement (.using decode)).1 =
      .error (if fault.isDomain then fault else failure statement fault) := by
  unfold answer at answered
  cases domain : fault.isDomain <;> simp [run, Decoder.function, send, answered, domain]

theorem run_of_escapes (comes : session.ComesTo statement decode record)
    (escapes : Decoder.Escapes decode record fault) :
    (session.run statement (.using decode)).1 = .error fault := by
  obtain ⟨records, answered, reached⟩ := comesTo_iff.mp comes
  rw [run_of_records answered]
  exact mapM_eq_error_iff.mpr ⟨record, reached, Decoder.decodeRecord_of_escapes escapes⟩

/-- A run that ends as it should fails with nothing but faults of the domain. -/
theorem Classified.isDomain (classified : session.Classified statement decode (.error fault)) :
    fault.isDomain = true := by
  cases classified with
  | own _ domain => exact domain
  | wrapped => rfl
  | refused _ refused => exact Decoder.isDomain_of_refusedWith refused

/-- A run ends as it should exactly if it does not come to a record with a fault that escapes. -/
theorem classified_run_iff (session : Session) (statement : Statement)
    (decode : Value → Except Fault Value) :
    session.Classified statement decode (session.run statement (.using decode)).1 ↔
      ∀ record fault, session.ComesTo statement decode record →
        ¬Decoder.Escapes decode record fault := by
  constructor
  · intro classified record fault comes escapes
    rw [run_of_escapes comes escapes] at classified
    have inside := classified.isDomain
    rw [Decoder.isDomain_of_escapes escapes] at inside
    cases inside
  · intro handled
    cases answered : session.answer statement with
    | error fault =>
      rw [run_of_fault answered]
      cases domain : fault.isDomain with
      | true => exact .own answered domain
      | false => exact .wrapped answered domain
    | ok records =>
      rw [run_of_records answered]
      cases ran : records.mapM (Decoder.decodeRecord decode) with
      | ok results =>
        have all := mapM_eq_ok_iff.mp ran
        exact .decoded answered (all.imp fun _ _ => Decoder.decodeRecord_eq_ok_iff.mp)
      | error fault =>
        obtain ⟨record, reached, failed⟩ := mapM_eq_error_iff.mp ran
        have comes : session.ComesTo statement decode record := comesTo_iff.mpr ⟨records, answered, reached⟩
        refine .refused comes ((Decoder.refusedWith_or_escapes failed).resolve_right ?_)
        exact handled record fault comes

/-- A database that answers with one record without columns. -/
def columnless : Session :=
  start fun _ _ => .ok [.list []]

/-- A database that answers with one record, and a decoder that fails on whatever it gets. -/
def answering : Session :=
  start fun _ _ => .ok [.list [.int 1]]

def crash : Value → Except Fault Value :=
  fun _ => .error (.plain .runtime "boom")

/-- A record without columns and a decoder that fails end runs with faults outside the domain. -/
theorem not_classified_run :
    ¬columnless.Classified ⟨"RETURN 1", []⟩ .ok (columnless.run ⟨"RETURN 1", []⟩ .identity).1 ∧
      ¬answering.Classified ⟨"RETURN 1", []⟩ crash (answering.run ⟨"RETURN 1", []⟩ (.using crash)).1 := by
  constructor
  · intro classified
    exact absurd classified.isDomain (by decide)
  · intro classified
    exact absurd classified.isDomain (by decide)

end Runs

end Session

end GraphQuery
