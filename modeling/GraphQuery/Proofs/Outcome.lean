import GraphQuery.Proofs.Sorting
import GraphQuery.Query.Normal
import Mathlib.Data.List.Basic
import Mathlib.Data.List.Perm.Basic

/-! # Results of steps that may fail

A sequence of steps has a result exactly if every step has one. The lemmas below take results through
sequences and lists of steps.
-/

namespace GraphQuery

variable {Fault Item Result : Type}

theorem bind_eq_ok_iff {step : Except Fault Item} {next : Item → Except Fault Result}
    {result : Result} :
    step >>= next = .ok result ↔ ∃ item, step = .ok item ∧ next item = .ok result := by
  cases step with
  | ok item => simp [bind, Except.bind]
  | error fault => simp [bind, Except.bind]

theorem wrapped_eq_ok_iff {step : Except Fault Item} {wrap : Item → Result} {result : Result} :
    (step >>= fun inner => .ok (wrap inner)) = .ok result ↔ ∃ inner, step = .ok inner ∧ wrap inner = result := by
  simp only [bind_eq_ok_iff, Except.ok.injEq]

/-- A list of steps has the results of its steps. -/
theorem mapM_eq_ok_iff {step : Item → Except Fault Result} {items : List Item}
    {results : List Result} :
    items.mapM step = .ok results ↔
      List.Forall₂ (fun item result => step item = .ok result) items results := by
  induction items generalizing results with
  | nil => simp [pure, Except.pure, eq_comm]
  | cons item rest ih =>
    rw [List.mapM_cons, bind_eq_ok_iff]
    constructor
    · rintro ⟨first, ran, remaining⟩
      obtain ⟨others, ranRest, same⟩ := bind_eq_ok_iff.mp remaining
      obtain rfl : first :: others = results := by simpa [pure, Except.pure] using same
      exact .cons ran (ih.mp ranRest)
    · intro all
      cases all with
      | cons ran remaining =>
        exact ⟨_, ran, bind_eq_ok_iff.mpr ⟨_, ih.mpr remaining, rfl⟩⟩

theorem mapM_eq_ok_iff_map {step : Item → Except Fault Result} {items : List Item}
    {results : List Result} :
    items.mapM step = .ok results ↔ items.map step = results.map .ok := by
  rw [mapM_eq_ok_iff, map_eq_map_iff_forall₂]

/-- A list of steps each of which checks and changes the result of a first step checks and changes the
results of the first steps. -/
theorem mapM_eq_ok_iff_of_first {FirstFault Inner : Type} {first : Item → Except FirstFault Inner}
    {step : Item → Except Fault Result} {Passes : Inner → Prop} {change : Inner → Result}
    (steps : ∀ item result, step item = .ok result ↔
      ∃ inner, first item = .ok inner ∧ Passes inner ∧ change inner = result)
    {items : List Item} {results : List Result} :
    items.mapM step = .ok results ↔ ∃ inners, items.mapM first = .ok inners ∧
      (∀ inner ∈ inners, Passes inner) ∧ inners.map change = results := by
  simp only [mapM_eq_ok_iff, steps]
  constructor
  · intro all
    induction all with
    | nil => exact ⟨[], .nil, List.forall_mem_nil _, rfl⟩
    | cons here _ ih =>
      obtain ⟨inner, ran, passes, rfl⟩ := here
      obtain ⟨inners, ranOthers, passOthers, rfl⟩ := ih
      exact ⟨inner :: inners, .cons ran ranOthers, List.forall_mem_cons.mpr ⟨passes, passOthers⟩, rfl⟩
  · rintro ⟨inners, ran, pass, rfl⟩
    induction ran with
    | nil => exact .nil
    | cons here _ ih =>
      obtain ⟨passes, passOthers⟩ := List.forall_mem_cons.mp pass
      exact .cons ⟨_, here, passes, rfl⟩ (ih passOthers)

/-- A list of steps that all have results has the list of the results. -/
theorem mapM_eq_ok_map {step : Item → Except Fault Result} {result : Item → Result} {items : List Item}
    (ran : ∀ item ∈ items, step item = .ok (result item)) :
    items.mapM step = .ok (items.map result) :=
  mapM_eq_ok_iff.mpr (List.forall₂_map_right_iff.mpr (List.forall₂_same.mpr ran))

/-- A list of steps has results if every step has one. -/
theorem exists_mapM_eq_ok {step : Item → Except Fault Result} {items : List Item}
    (ran : ∀ item ∈ items, ∃ result, step item = .ok result) : ∃ results, items.mapM step = .ok results := by
  induction items with
  | nil => exact ⟨[], rfl⟩
  | cons item rest ih =>
    obtain ⟨⟨first, ranFirst⟩, others⟩ := List.forall_mem_cons.mp ran
    obtain ⟨results, ranOthers⟩ := ih others
    exact ⟨first :: results, by rw [List.mapM_cons, ranFirst, ranOthers]; rfl⟩

/-- What every step gives to its result holds of all results. -/
theorem forall_mem_of_forall₂ {P : Result → Prop} {items : List Item} {results : List Result}
    (all : List.Forall₂ (fun _ result => P result) items results) : ∀ result ∈ results, P result := by
  induction all with
  | nil => exact List.forall_mem_nil _
  | cons first _ ih => exact List.forall_mem_cons.mpr ⟨first, ih⟩

/-! ## Results of sorted lists -/

section Sorts

variable {Key : Type} [LinearOrder Key] {key : Item → Key} {keyOf : Result → Key}

/-- Lists whose elements are related one by one are related key by key, if related elements have one
key. -/
theorem forall₂_ofKey {r : Item → Result → Prop}
    (keeps : ∀ item result, r item result → key item = keyOf result) (value : Key) {items : List Item}
    {results : List Result} (all : List.Forall₂ r items results) :
    List.Forall₂ r (ofKey key value items) (ofKey keyOf value results) := by
  refine List.rel_filter (fun item result related => ?_) all
  simp only [keeps item result related]

/-- What a step makes of a sorted list is a stable sort of what it makes of the list, if the step keeps
keys. -/
theorem exists_isStableSort_of_mapM {step : Item → Except Fault Result}
    (keeps : ∀ item result, step item = .ok result → key item = keyOf result) {items : List Item}
    {results : List Result} (ran : (sortByKey key items).mapM step = .ok results) :
    ∃ forms, items.mapM step = .ok forms ∧ IsStableSort keyOf forms results := by
  have all := mapM_eq_ok_iff.mp ran
  obtain ⟨forms, made, perm⟩ := List.perm_comp_forall₂ (sortByKey_perm key items).symm all
  refine ⟨forms, mapM_eq_ok_iff.mpr made, perm.symm, ?_, fun value => ?_⟩
  · have keys : (sortByKey key items).map key = results.map keyOf :=
      map_eq_map_iff_forall₂.mpr (all.imp keeps)
    rw [← List.pairwise_map, ← keys, List.pairwise_map]
    exact pairwise_sortByKey key items
  · -- the elements with one key are the same before and after, and a step has only one result
    have unique : Relator.RightUnique fun item result => step item = .ok result :=
      fun _ _ _ first second => Except.ok.inj (first.symm.trans second)
    have sorted := forall₂_ofKey keeps value all
    rw [ofKey_sortByKey] at sorted
    exact List.right_unique_forall₂' unique sorted (forall₂_ofKey keeps value made)

end Sorts

/-! ## The first fault -/

/-- A list of steps gets as far as an item if every step before it has a result. -/
def Reaches (step : Item → Except Fault Result) (items : List Item) (item : Item) : Prop :=
  ∃ before after, items = before ++ item :: after ∧ ∀ earlier ∈ before, ∃ result, step earlier = .ok result

theorem reaches_cons_iff {step : Item → Except Fault Result} {first item : Item} {rest : List Item} :
    Reaches step (first :: rest) item ↔
      item = first ∨ (∃ result, step first = .ok result) ∧ Reaches step rest item := by
  constructor
  · rintro ⟨before, after, split, ran⟩
    rcases List.cons_eq_append_iff.mp split with ⟨rfl, same⟩ | ⟨others, rfl, rfl⟩
    · exact .inl (List.cons.inj same).1
    · obtain ⟨ranFirst, ranOthers⟩ := List.forall_mem_cons.mp ran
      exact .inr ⟨ranFirst, others, after, rfl, ranOthers⟩
  · rintro (rfl | ⟨ranFirst, before, after, rfl, ran⟩)
    · exact ⟨[], rest, rfl, List.forall_mem_nil _⟩
    · exact ⟨first :: before, after, rfl, List.forall_mem_cons.mpr ⟨ranFirst, ran⟩⟩

theorem bind_eq_error_iff {step : Except Fault Item} {next : Item → Except Fault Result} {fault : Fault} :
    step >>= next = .error fault ↔
      step = .error fault ∨ ∃ item, step = .ok item ∧ next item = .error fault := by
  cases step <;> simp [bind, Except.bind]

/-- A list of steps has the fault of the first step without a result. -/
theorem mapM_eq_error_iff {step : Item → Except Fault Result} {items : List Item} {fault : Fault} :
    items.mapM step = .error fault ↔ ∃ item, Reaches step items item ∧ step item = .error fault := by
  induction items with
  | nil => simp [Reaches, pure, Except.pure]
  | cons first rest ih =>
    have wrapped (result : Result) : (rest.mapM step >>= fun results => pure (result :: results)) =
        .error fault ↔ rest.mapM step = .error fault := by
      cases rest.mapM step <;> simp [bind, Except.bind, pure, Except.pure]
    simp only [List.mapM_cons, bind_eq_error_iff, wrapped, ih, reaches_cons_iff]
    constructor
    · rintro (failed | ⟨result, ran, item, reached, failed⟩)
      · exact ⟨first, .inl rfl, failed⟩
      · exact ⟨item, .inr ⟨⟨result, ran⟩, reached⟩, failed⟩
    · rintro ⟨item, rfl | ⟨⟨result, ran⟩, reached⟩, failed⟩
      · exact .inl failed
      · exact .inr ⟨result, ran, item, reached, failed⟩

/-! ## Steps that leave their results alone -/

/-- Whether a step leaves its own results as they are. -/
def Settles (step : Item → Except Fault Item) : Prop :=
  ∀ item result, step item = .ok result → step result = .ok result

theorem mapM_eq_ok_self {step : Item → Except Fault Item} {items : List Item}
    (kept : ∀ item ∈ items, step item = .ok item) : items.mapM step = .ok items :=
  mapM_eq_ok_iff.mpr (List.forall₂_same.mpr kept)

/-- The results of a list of steps are left as they are. -/
theorem Settles.of_mem_mapM {step : Item → Except Fault Item} (settles : Settles step)
    {items results : List Item} (ran : items.mapM step = .ok results) :
    ∀ result ∈ results, step result = .ok result :=
  forall_mem_of_forall₂ ((mapM_eq_ok_iff.mp ran).imp settles)

/-- A result that wraps the result of a step that settles is made again from what it wraps. -/
theorem Settles.exists_wrapped {step : Item → Except Fault Item} (settles : Settles step)
    {wrap : Item → Result} {item : Item} {result : Result}
    (returned : (step item >>= fun inner => .ok (wrap inner)) = .ok result) :
    ∃ inner, wrap inner = result ∧ (step inner >>= fun inner => .ok (wrap inner)) = .ok result := by
  obtain ⟨inner, ran, same⟩ := wrapped_eq_ok_iff.mp returned
  exact ⟨inner, same, wrapped_eq_ok_iff.mpr ⟨inner, settles item inner ran, same⟩⟩

theorem Settles.mapM {step : Item → Except Fault Item} (settles : Settles step) :
    Settles (List.mapM step) :=
  fun _ _ ran => mapM_eq_ok_self (settles.of_mem_mapM ran)

/-! ## Steps that keep properties -/

section Keeps

variable {P : Item → Prop} {Q : Result → Prop}

/-- Whether the results of a step have a property if what they are made of has one. -/
def Keeps (P : Item → Prop) (Q : Result → Prop) (step : Item → Except Fault Result) : Prop :=
  ∀ item result, step item = .ok result → P item → Q result

theorem Keeps.mapM {step : Item → Except Fault Result} (keeps : Keeps P Q step) :
    Keeps (fun items => ∀ item ∈ items, P item) (fun results => ∀ result ∈ results, Q result)
      (List.mapM step) := by
  intro items results ran holds
  have all := mapM_eq_ok_iff.mp ran
  clear ran
  induction all with
  | nil => exact List.forall_mem_nil _
  | cons first _ ih =>
    obtain ⟨here, others⟩ := List.forall_mem_cons.mp holds
    exact List.forall_mem_cons.mpr ⟨keeps _ _ first here, ih others⟩

/-- What a step that keeps a property makes is wrapped in a result that has it. -/
theorem Keeps.wrapped {Whole : Type} {step : Item → Except Fault Result} (keeps : Keeps P Q step)
    {wrap : Result → Whole} {item : Item} {whole : Whole}
    (returned : (step item >>= fun inner => .ok (wrap inner)) = .ok whole) (holds : P item) :
    ∃ inner, wrap inner = whole ∧ Q inner := by
  obtain ⟨inner, ran, same⟩ := wrapped_eq_ok_iff.mp returned
  exact ⟨inner, same, keeps item inner ran holds⟩

end Keeps

/-! ## Steps that go through changes -/

section Changes

variable {change : Item → Item} {changeResult : Result → Result}

/-- Whether a step makes the changed result of the changed item. -/
def GoesThrough (change : Item → Item) (changeResult : Result → Result)
    (step : Item → Except Fault Result) : Prop :=
  ∀ item result, step item = .ok result → step (change item) = .ok (changeResult result)

theorem GoesThrough.mapM {step : Item → Except Fault Result} (through : GoesThrough change changeResult step) :
    GoesThrough (List.map change) (List.map changeResult) (List.mapM step) := by
  intro items results ran
  rw [mapM_eq_ok_iff, List.forall₂_map_left_iff, List.forall₂_map_right_iff]
  exact (mapM_eq_ok_iff.mp ran).imp through

/-- A result that wraps the result of a step is changed if what it wraps is. -/
theorem GoesThrough.wrapped {Whole : Type} {step : Item → Except Fault Result}
    (through : GoesThrough change changeResult step) {wrap : Result → Whole} {item : Item} {whole : Whole}
    (returned : (step item >>= fun inner => .ok (wrap inner)) = .ok whole) :
    ∃ inner, wrap inner = whole ∧
      ∀ wrapOther : Result → Whole, (step (change item) >>= fun inner => .ok (wrapOther inner)) =
        .ok (wrapOther (changeResult inner)) := by
  obtain ⟨inner, ran, same⟩ := wrapped_eq_ok_iff.mp returned
  exact ⟨inner, same, fun _ => wrapped_eq_ok_iff.mpr ⟨_, through item inner ran, rfl⟩⟩

end Changes

/-! ## Attempts that end alike -/

section Alike

variable {Other OtherResult : Type} {related : Item → Other → Prop} {relatedResults : Result → OtherResult → Prop}

/-- Whether attempts end alike: with related results, or with the same fault. -/
inductive EndAlike (related : Item → Other → Prop) : Except Fault Item → Except Fault Other → Prop where
  | ok {item : Item} {other : Other} : related item other → EndAlike related (.ok item) (.ok other)
  | error (fault : Fault) : EndAlike related (.error fault) (.error fault)

theorem EndAlike.refl {related : Item → Item → Prop} (reflexive : ∀ item, related item item)
    (attempt : Except Fault Item) : EndAlike related attempt attempt := by
  cases attempt with
  | ok item => exact .ok (reflexive item)
  | error fault => exact .error fault

theorem EndAlike.bind {attempt : Except Fault Item} {other : Except Fault Other}
    {next : Item → Except Fault Result} {nextOther : Other → Except Fault OtherResult}
    (alike : EndAlike related attempt other)
    (go : ∀ item other, related item other → EndAlike relatedResults (next item) (nextOther other)) :
    EndAlike relatedResults (attempt >>= next) (other >>= nextOther) := by
  cases alike with
  | ok items => exact go _ _ items
  | error fault => exact .error fault

theorem EndAlike.map {attempt : Except Fault Item} {other : Except Fault Other} {f : Item → Result}
    {g : Other → OtherResult} (alike : EndAlike related attempt other)
    (keeps : ∀ item other, related item other → relatedResults (f item) (g other)) :
    EndAlike relatedResults (attempt.map f) (other.map g) := by
  cases alike with
  | ok items => exact .ok (keeps _ _ items)
  | error fault => exact .error fault

/-- Attempts that go through related inputs one after another end alike if each step does. -/
theorem EndAlike.foldlM {Input OtherInput : Type} {inputsRelated : Input → OtherInput → Prop}
    {step : Item → Input → Except Fault Item} {stepOther : Other → OtherInput → Except Fault Other}
    (go : ∀ item other input otherInput, related item other → inputsRelated input otherInput →
      EndAlike related (step item input) (stepOther other otherInput))
    {inputs : List Input} {others : List OtherInput} (all : List.Forall₂ inputsRelated inputs others)
    {item : Item} {other : Other} (start : related item other) :
    EndAlike related (inputs.foldlM step item) (others.foldlM stepOther other) := by
  induction all generalizing item other with
  | nil => exact .ok start
  | cons first _ ih =>
    rw [List.foldlM_cons, List.foldlM_cons]
    exact (go _ _ _ _ start first).bind fun _ _ => ih

end Alike

end GraphQuery
