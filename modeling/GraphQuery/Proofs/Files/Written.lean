import GraphQuery.Files.Basic
import GraphQuery.Proofs.Outcome
import GraphQuery.Proofs.Text.Encoded
import Mathlib.Data.List.Basic

/-! # Files that are written

A write that succeeds makes the folders on the way, so that what was written is found afterwards.
Putting an entry somewhere keeps every other folder, and no folder on the way stands at the place
that is written.
-/

namespace GraphQuery.Files

variable {files : Files} {place names : List String} {entry : Entry}

/-! ## Following names -/

/-- The status of what stands at a place. -/
def statusOf : Option Entry → Status
  | some entry => .found entry
  | none => .missing

theorem follow_nil : files.follow place [] = (statusOf (files.entryAt? place), place) := by
  rw [follow]
  cases files.entryAt? place <;> rfl

theorem follow_cons (folder : files.entryAt? place = some .folder) (name : String) (names : List String) :
    files.follow place (name :: names) = files.follow (placeOf place [name]) names := by
  rw [follow, folder]
  rfl

/-- Names that lead on start at a folder. -/
theorem folder_of_follow_cons {name : String}
    (found : (files.follow place (name :: names)).1 = .found entry) :
    files.entryAt? place = some .folder := by
  rw [follow] at found
  split at found
  · assumption
  · cases found
  · cases found

theorem folder_of_follow_nil (found : (files.follow place []).1 = .found entry) :
    files.entryAt? place = some entry := by
  rw [follow_nil] at found
  revert found
  cases files.entryAt? place with
  | none => exact fun wrong => by cases wrong
  | some there => exact fun same => by cases same; rfl

/-- A name behind a folder leads to what stands there. -/
theorem follow_append_singleton (name : String)
    (folder : (files.follow place names).1 = .found .folder) :
    (files.follow place (names ++ [name])).1 =
      statusOf (files.entryAt? (placeOf place (names ++ [name]))) := by
  induction names generalizing place with
  | nil =>
    rw [List.nil_append, follow_cons (folder_of_follow_nil folder), follow_nil]
  | cons first rest ih =>
    have start := folder_of_follow_cons folder
    rw [follow_cons start] at folder
    rw [List.cons_append, follow_cons start, ih folder]
    rfl

/-- What is found behind a name stands in a folder. -/
theorem folder_of_follow_append_singleton {name : String}
    (found : (files.follow place (names ++ [name])).1 = .found entry) :
    (files.follow place names).1 = .found .folder := by
  induction names generalizing place with
  | nil => rw [follow_nil, folder_of_follow_cons found]; rfl
  | cons first rest ih =>
    have start := folder_of_follow_cons found
    rw [List.cons_append, follow_cons start] at found
    rw [follow_cons start, ih found]

/-! ## Putting an entry -/

private theorem lookup_filter {other : List String} (different : other ≠ place)
    (entries : List (List String × Entry)) :
    (entries.filter fun entry => entry.1 ≠ place).lookup other = entries.lookup other := by
  induction entries with
  | nil => rfl
  | cons first rest ih =>
    obtain ⟨there, entry⟩ := first
    rw [List.filter_cons]
    split
    · rw [List.lookup_cons, List.lookup_cons, ih]
    · rename_i dropped
      obtain rfl : there = place := by simpa using dropped
      rw [ih, List.lookup_cons, beq_false_of_ne different]

/-- An entry that is put somewhere leaves every folder elsewhere. -/
theorem entryAt?_put_of_folder {other : List String} (folder : files.entryAt? other = some .folder)
    (different : other ≠ place) : (files.put place entry).entryAt? other = some .folder := by
  have looked : (files.put place entry).entries.lookup other = files.entries.lookup other := by
    rw [put, List.lookup_cons, beq_false_of_ne different]
    exact lookup_filter different files.entries
  unfold entryAt? at folder ⊢
  rw [looked]
  cases there : files.entries.lookup other with
  | some found => rwa [there] at folder
  | none =>
    simp only [there, ite_eq_left_iff, reduceCtorEq, imp_false, not_not, Bool.or_eq_true] at folder ⊢
    refine folder.imp id fun below => ?_
    obtain ⟨⟨target, kept⟩, member, leads⟩ := List.any_eq_true.mp below
    by_cases same : target = place
    · exact List.any_eq_true.mpr ⟨(place, entry), List.mem_cons_self, same ▸ leads⟩
    · exact List.any_eq_true.mpr ⟨(target, kept),
        List.mem_cons_of_mem _ (List.mem_filter.mpr ⟨member, by simpa using same⟩), leads⟩

/-- Names that lead to a folder still do if an entry is put where no folder is. -/
theorem follow_put {target : List String} (free : files.entryAt? target ≠ some .folder)
    (folder : (files.follow place names).1 = .found .folder) :
    ((files.put target entry).follow place names).1 = .found .folder := by
  have kept {other : List String} (there : files.entryAt? other = some .folder) :
      (files.put target entry).entryAt? other = some .folder :=
    entryAt?_put_of_folder there fun same => free (same ▸ there)
  induction names generalizing place with
  | nil =>
    have start := folder_of_follow_nil folder
    rw [follow_nil, kept start]
    rfl
  | cons first rest ih =>
    have start := folder_of_follow_cons folder
    rw [follow_cons start] at folder
    rw [follow_cons (kept start), ih folder]

/-- What is put at a location in a folder is found there. -/
theorem status_put {location : Location} {name : String} (last : location.names = names ++ [name])
    (folder : files.status { location with names := names } = .found .folder)
    (free : files.status location ≠ .found .folder) :
    (files.put (placeOf (files.start location) location.names) entry).status location = .found entry := by
  have free : files.entryAt? (placeOf (files.start location) location.names) ≠ some .folder := by
    intro there
    have found := follow_append_singleton name
      (show (files.follow (files.start location) names).1 = _ from folder)
    rw [← last, there] at found
    exact free found
  have kept : ((files.put (placeOf (files.start location) location.names) entry).follow
      (files.start location) names).1 = .found .folder := follow_put free folder
  have found := follow_append_singleton name kept
  rw [← last, entryAt?_put_self] at found
  exact found

/-! ## Making folders -/

/-- There is something at the place where a location starts. -/
theorem entryAt?_start_ne_none (files : Files) (location : Location) :
    files.entryAt? (files.start location) ≠ none := by
  unfold entryAt? start
  split
  · simp
  · split <;> simp

/-- A location where nothing is starts at a folder. -/
theorem entryAt?_start_of_missing {location : Location} (missing : files.status location = .missing) :
    files.entryAt? (files.start location) = some .folder := by
  have there := entryAt?_start_ne_none files location
  rw [status] at missing
  cases names : location.names with
  | nil =>
    rw [names, follow_nil] at missing
    cases entry : files.entryAt? (files.start location) with
    | none => exact absurd entry there
    | some found => rw [entry] at missing; cases missing
  | cons name rest =>
    rw [names, follow] at missing
    split at missing
    · assumption
    · cases missing
    · exact absurd ‹_› there

/-- A folder that is made is found, and so is one that was there. -/
theorem status_of_makeFolder {location : Location} {name : String} {made : Files}
    (last : location.names = names ++ [name])
    (folder : files.status { location with names := names } = .found .folder)
    (done : makeFolder location files = .ok made) : made.status location = .found .folder := by
  unfold makeFolder at done
  split at done
  · rename_i found
    cases done
    exact found
  · cases done
  · cases done
  · rename_i missing
    cases done
    exact status_put last folder (by rw [missing]; exact Status.noConfusion)

private def upTo (location : Location) (count : Nat) : Location :=
  { location with names := location.names.take count }

private theorem status_of_range {location : Location} {count : Nat} {made : Files}
    (start : files.entryAt? (files.start location) = some .folder) (inside : count ≤ location.names.length)
    (done : ((List.range count).map fun count => upTo location (count + 1)).foldlM
      (fun files way => makeFolder way files) files = .ok made) :
    made.status (upTo location count) = .found .folder := by
  induction count generalizing made with
  | zero =>
    cases done
    show (files.follow (files.start location) []).1 = _
    rw [follow_nil, start]
    rfl
  | succ count ih =>
    rw [List.range_succ, List.map_append, List.foldlM_append] at done
    obtain ⟨before, ran, done⟩ := bind_eq_ok_iff.mp done
    have folder := ih (Nat.le_of_succ_le inside) ran
    rw [List.map_singleton, List.foldlM_cons] at done
    obtain ⟨after, ran, done⟩ := bind_eq_ok_iff.mp done
    cases done
    have last : (upTo location (count + 1)).names = location.names.take count ++ [location.names[count]] :=
      (List.take_append_getElem inside).symm
    exact status_of_makeFolder last folder ran

/-- Making the folders on the way makes the folder. -/
theorem status_of_makeFolders {location : Location} {made : Files}
    (done : makeFolders location files = .ok made) : made.status location = .found .folder := by
  unfold makeFolders at done
  split at done
  · rename_i missing
    have all := status_of_range (entryAt?_start_of_missing missing) (Nat.le_refl _) done
    rwa [upTo, List.take_length] at all
  · rename_i there
    unfold makeFolder at done
    split at done
    · rename_i found
      cases done
      exact found
    · cases done
    · cases done
    · exact absurd ‹_› there

/-! ## Writing -/

/-- A write makes the folders on the way and puts a file where no folder is. -/
theorem write_eq_ok_iff {location : Location} {bytes : List UInt8} {after : Files} :
    files.write location bytes = .ok after ↔ location.hasNull = false ∧
      ∃ made, makeFolders location.parent files = .ok made ∧ made.status location ≠ .found .folder ∧
        made.status location ≠ .blocked ∧
        made.put (placeOf (made.start location) location.names) (.file bytes) = after := by
  unfold write
  cases plain : location.hasNull with
  | true => simp
  | false =>
    simp only [Bool.false_eq_true, if_false, true_and]
    rw [bind_eq_ok_iff]
    refine exists_congr fun made => and_congr_right fun _ => ?_
    split
    · simp_all
    · simp_all
    · rename_i noFolder noFile
      rw [Except.ok.injEq]
      exact ⟨fun same => ⟨noFolder, noFile, same⟩, fun ⟨_, _, same⟩ => same⟩

/-- A location that can be written has a name in a folder. -/
theorem names_of_free {location : Location} (folder : files.status location.parent = .found .folder)
    (free : files.status location ≠ .found .folder) :
    ∃ names name, location.names = names ++ [name] ∧
      files.status { location with names := names } = .found .folder := by
  rcases List.eq_nil_or_concat location.names with empty | ⟨names, name, last⟩
  · rw [show location.parent = location by rw [Location.parent, empty]; cases location; simp_all] at folder
    exact absurd folder free
  · rw [List.concat_eq_append] at last
    rw [Location.parent, last, List.dropLast_concat] at folder
    exact ⟨names, name, last, folder⟩

/-- What is written is found afterwards. -/
theorem status_of_write {location : Location} {bytes : List UInt8} {after : Files}
    (done : files.write location bytes = .ok after) :
    after.status location = .found (.file bytes) := by
  obtain ⟨-, made, ran, free, -, rfl⟩ := write_eq_ok_iff.mp done
  obtain ⟨names, name, last, within⟩ := names_of_free (status_of_makeFolders ran) free
  exact status_put last within free

theorem read_of_write {location : Location} {bytes : List UInt8} {after : Files}
    (done : files.write location bytes = .ok after) :
    after.contains location = true ∧ after.read location = .ok bytes := by
  have plain := (write_eq_ok_iff.mp done).1
  rw [contains, read, plain, status_of_write done]
  exact ⟨rfl, rfl⟩

/-- A file with the bytes of a text without carriage returns is read as that text. -/
theorem readText_of_read {location : Location} {s : String} (plain : '\r' ∉ s.toList)
    (stored : files.read location = .ok s.toUTF8.toList) : files.readText location = .ok s := by
  have characters : decoded s.toUTF8.toList = .ok s.toList := by
    rw [decoded, Text.decode_toUTF8]
    rfl
  simp only [readText, stored, characters, bind, Except.bind, Text.withPlainNewlines_of_notMem plain,
    String.ofList_toList]

/-- Whether a file can be written does not depend on what is written. -/
theorem exists_write {location : Location} {bytes : List UInt8} {after : Files}
    (done : files.write location bytes = .ok after) (other : List UInt8) :
    ∃ after, files.write location other = .ok after := by
  obtain ⟨plain, made, ran, noFolder, noFile, -⟩ := write_eq_ok_iff.mp done
  exact ⟨_, write_eq_ok_iff.mpr ⟨plain, made, ran, noFolder, noFile, rfl⟩⟩

private theorem makeFolders_parent {location : Location} {name : String}
    (last : location.names = names ++ [name]) (found : files.status location = .found entry) :
    makeFolders location.parent files = .ok files := by
  have parent : files.status location.parent = .found .folder := by
    rw [Location.parent, last, List.dropLast_concat]
    rw [status, last] at found
    exact folder_of_follow_append_singleton found
  rw [makeFolders, parent, makeFolder, parent]

/-- A file that can be written can be read if it is there. -/
theorem exists_read_of_write {location : Location} {bytes : List UInt8} {after : Files}
    (done : files.write location bytes = .ok after) (there : files.contains location = true) :
    ∃ old, files.read location = .ok old := by
  obtain ⟨plain, made, ran, free, -, -⟩ := write_eq_ok_iff.mp done
  obtain ⟨names, name, last, -⟩ := names_of_free (status_of_makeFolders ran) free
  obtain ⟨entry, found⟩ : ∃ entry, files.status location = .found entry := by
    rw [contains, plain] at there
    cases status : files.status location <;> simp_all
  cases ran.symm.trans (makeFolders_parent last found)
  rw [read, plain, found]
  cases entry with
  | folder => exact absurd found free
  | file old => exact ⟨old, rfl⟩

/-- A file that was written can be written again. -/
theorem exists_write_again {location : Location} {bytes : List UInt8} {after : Files}
    (done : files.write location bytes = .ok after) (other : List UInt8) :
    ∃ again, after.write location other = .ok again := by
  have found := status_of_write done
  obtain ⟨plain, made, ran, free, -, -⟩ := write_eq_ok_iff.mp done
  obtain ⟨names, name, last, -⟩ := names_of_free (status_of_makeFolders ran) free
  refine ⟨_, write_eq_ok_iff.mpr ⟨plain, after, makeFolders_parent last found, ?_, ?_, rfl⟩⟩
  · simp [found]
  · simp [found]

end GraphQuery.Files
