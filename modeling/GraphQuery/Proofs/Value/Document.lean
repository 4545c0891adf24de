import GraphQuery.Proofs.Value.Order
import GraphQuery.Proofs.Value.Reordering
import GraphQuery.Value.Document

/-! # Documents of values

A value that a document can express has a document, with its keys sorted or as they come.
-/

namespace GraphQuery.Value

private theorem exists_namedFields? {pairs : List (Value × Json)}
    (texts : ∀ pair ∈ pairs, pair.1.text?.isSome = true) : ∃ fields, namedFields? pairs = some fields := by
  induction pairs with
  | nil => exact ⟨[], rfl⟩
  | cons pair rest ih =>
    obtain ⟨key, item⟩ := pair
    obtain ⟨isText, others⟩ := List.forall_mem_cons.mp texts
    obtain ⟨fields, named⟩ := ih others
    cases key with
    | text s => exact ⟨(s, item) :: fields, by rw [namedFields?, keyName?, named]⟩
    | _ => cases isText

private theorem exists_object {pairs : List (Value × Json)}
    (texts : ∀ pair ∈ pairs, pair.1.text?.isSome = true) (sortKeys : Bool) :
    ∃ document, ((if sortKeys then sortEntries? pairs else some pairs).bind fun pairs =>
      (namedFields? pairs).map Json.object) = some document := by
  cases sortKeys with
  | false =>
    obtain ⟨fields, named⟩ := exists_namedFields? texts
    exact ⟨.object fields, by rw [if_neg Bool.false_ne_true, Option.bind_some, named, Option.map_some]⟩
  | true =>
    have perm := sortByKey_perm (fun pair : Value × Json => pair.1.asText) pairs
    obtain ⟨fields, named⟩ := exists_namedFields? fun pair member => texts pair (perm.mem_iff.mp member)
    exact ⟨.object fields, by
      rw [if_pos rfl, sortEntries?_of_texts texts, Option.bind_some, named, Option.map_some]⟩

mutual

theorem exists_document? (sortKeys : Bool) : (v : Value) → v.isJson = true →
    ∃ document, v.document? sortKeys = some document
  | .null, _ | .bool _, _ | .int _, _ | .float _, _ | .text _, _ => ⟨_, rfl⟩
  | .list items, json => by
    obtain ⟨documents, written⟩ := exists_documents? sortKeys items ((isJson_list items).mp json)
    exact ⟨.array documents, by rw [document?, written]; rfl⟩
  | .map entries, json => by
    obtain ⟨pairs, written, texts⟩ :=
      exists_entryDocuments? sortKeys entries ((isJson_map entries).mp json).2
    obtain ⟨document, named⟩ := exists_object texts sortKeys
    exact ⟨document, by rw [document?, written, Option.bind_some, named]⟩
  | .tuple _, json | .set _ _, json | .external _ _, json | .entity _, json | .record _, json => by
    simp [isJson] at json

private theorem exists_documents? (sortKeys : Bool) : (items : List Value) →
    (∀ item ∈ items, item.isJson = true) → ∃ documents, documents? sortKeys items = some documents
  | [], _ => ⟨[], rfl⟩
  | item :: rest, json => by
    obtain ⟨first, others⟩ := List.forall_mem_cons.mp json
    obtain ⟨document, written⟩ := exists_document? sortKeys item first
    obtain ⟨documents, writtenRest⟩ := exists_documents? sortKeys rest others
    exact ⟨document :: documents, by rw [documents?, written, writtenRest]⟩

private theorem exists_entryDocuments? (sortKeys : Bool) : (entries : List (Value × Value)) →
    (∀ entry ∈ entries, entry.1.text?.isSome = true ∧ entry.2.isJson = true) →
    ∃ pairs, entryDocuments? sortKeys entries = some pairs ∧
      ∀ pair ∈ pairs, pair.1.text?.isSome = true
  | [], _ => ⟨[], rfl, by simp⟩
  | (key, item) :: rest, json => by
    obtain ⟨⟨isText, first⟩, others⟩ := List.forall_mem_cons.mp json
    obtain ⟨document, written⟩ := exists_document? sortKeys item first
    obtain ⟨pairs, writtenRest, texts⟩ := exists_entryDocuments? sortKeys rest others
    exact ⟨(key, document) :: pairs, by rw [entryDocuments?, written, writtenRest],
      List.forall_mem_cons.mpr ⟨isText, texts⟩⟩

end

end GraphQuery.Value
