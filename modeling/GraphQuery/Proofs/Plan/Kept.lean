import GraphQuery.Plan.Store
import GraphQuery.Proofs.Files.Written
import GraphQuery.Proofs.Json.Indented
import GraphQuery.Proofs.Value.Identity

/-! # Plan records that are kept

Records that are saved are loaded again as they were, whatever their texts are. So recording puts
the new records behind those that were there.
-/

namespace GraphQuery

namespace PlanRecord

/-- A record is read back from the document that keeps it. -/
theorem check_toJson (record : PlanRecord) : check (Value.ofJson record.toJson) = .ok record := by
  simp [check, toJson, Value.ofJson, Value.ofJsonFields, Schema.entries, ofEntries, fieldUnder, Schema.field,
    Value.lookup, Value.isText, Schema.under, Schema.text]

theorem isTextual_toJson (record : PlanRecord) : record.toJson.IsTextual := by
  refine .object (by simp) ?_
  simp [Json.IsTextual.text]

end PlanRecord

namespace Plan

/-! ## Documents of records -/

private theorem isTextual_records (records : List PlanRecord) :
    (Json.object [("records", .array (records.map PlanRecord.toJson))]).IsTextual := by
  refine .object (by simp) ?_
  rw [List.forall_mem_singleton]
  exact .array (List.forall_mem_map.mpr fun record _ => record.isTextual_toJson)

private theorem itemsFrom_toJson (index : Nat) (records : List PlanRecord) :
    Schema.itemsFrom PlanRecord.check index (records.map fun record => Value.ofJson record.toJson) =
      .ok records := by
  induction records generalizing index with
  | nil => rfl
  | cons record rest ih =>
    rw [List.map_cons, Schema.itemsFrom, PlanRecord.check_toJson, ih]
    rfl

/-- Records are read back from the document that keeps them. -/
theorem parse_write (records : List PlanRecord) : parse (write records) = .ok records := by
  have checked : check (Value.ofJson (.object [("records", .array (records.map PlanRecord.toJson))])) =
      .ok records := by
    rw [Value.ofJson, Value.ofJsonFields, Value.ofJsonFields, Value.ofJson, Value.ofJsonItems_eq_map,
      List.map_map]
    have read := itemsFrom_toJson 0 records
    simp [check, Schema.entries, Schema.fieldOr, Value.lookup, Value.isText, Schema.list,
      Function.comp_def, read, Schema.under]
  rw [parse, write, Json.parse_writeIndented (isTextual_records records)]
  simp only [checked]
  rfl

theorem return_notMem_write (records : List PlanRecord) : '\r' ∉ (write records).toList := by
  have free := Json.return_notMem_indentedChars (isTextual_records records) 0
  simpa [write, Json.writeIndented] using free

/-! ## Recording -/

/-- Records that are saved are loaded again. -/
theorem load_of_save {records : List PlanRecord} {location : Location} {files after : Files}
    (saved : save records location files = .ok after) :
    after.contains location = true ∧ load location after = .ok records := by
  obtain ⟨there, stored⟩ := Files.read_of_write saved
  have read := Files.readText_of_read (return_notMem_write records) stored
  refine ⟨there, ?_⟩
  rw [load, if_pos there, read]
  exact parse_write records

/-- Recording puts the new records behind the old ones. -/
theorem record_eq_ok {version timestamp : String} {plans : List (Subject × Value)} {location : Location}
    {files after : Files} {new : List PlanRecord}
    (done : record version timestamp plans location files = .ok (new, after)) :
    ∃ old, load location files = .ok old ∧ recordAll version timestamp plans = .ok new ∧
      after.contains location = true ∧ load location after = .ok (old ++ new) := by
  obtain ⟨old, loaded, done⟩ := bind_eq_ok_iff.mp done
  obtain ⟨new, made, done⟩ := bind_eq_ok_iff.mp done
  obtain ⟨after, saved, done⟩ := bind_eq_ok_iff.mp done
  cases done
  exact ⟨old, loaded, made, load_of_save saved⟩

end Plan

end GraphQuery
