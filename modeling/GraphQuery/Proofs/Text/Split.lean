import GraphQuery.Text.Lowercase
import GraphQuery.Text.Split
import Mathlib.Data.List.Basic

/-! # Parts of lower-cased text

Nothing is lost when a text is split, so a text is known from its parts. Lower-casing neither makes nor
removes an underscore, and what follows a letter behind one does not matter for it. So the parts of a
lower-cased text are the lower-cased parts.
-/

namespace GraphQuery.Text

/-! ## Splitting -/

section Splitting

variable {mark : List Char}

theorem splitAt?_length (notEmpty : mark ≠ []) {cs before after : List Char}
    (found : splitAt? mark cs = some (before, after)) : after.length < cs.length := by
  have pos := List.length_pos_iff.mpr notEmpty
  rw [splitAt?_eq_some found]
  simp only [List.length_append]
  omega

/-- Fuel that suffices gives one result. -/
theorem partsOf_congr (notEmpty : mark ≠ []) {cs : List Char} {fuel other : Nat} (enough : cs.length ≤ fuel)
    (enoughOther : cs.length ≤ other) : partsOf mark fuel cs = partsOf mark other cs := by
  have unsplit : splitAt? mark [] = none := by
    cases mark with
    | nil => exact absurd rfl notEmpty
    | cons => rfl
  induction fuel generalizing cs other with
  | zero =>
    obtain rfl := List.eq_nil_of_length_eq_zero (Nat.le_zero.mp enough)
    cases other <;> simp [partsOf, unsplit]
  | succ fuel ih =>
    cases other with
    | zero =>
      obtain rfl := List.eq_nil_of_length_eq_zero (Nat.le_zero.mp enoughOther)
      simp [partsOf, unsplit]
    | succ other =>
      rw [partsOf, partsOf]
      cases found : splitAt? mark cs with
      | none => rfl
      | some pair =>
        have shorter := splitAt?_length notEmpty found
        have same : partsOf mark fuel pair.2 = partsOf mark other pair.2 := ih (by omega) (by omega)
        dsimp only
        rw [same]

theorem partsOf_ne_nil (mark : List Char) (fuel : Nat) (cs : List Char) : partsOf mark fuel cs ≠ [] := by
  cases fuel with
  | zero => exact List.cons_ne_nil _ _
  | succ fuel =>
    rw [partsOf]
    split <;> exact List.cons_ne_nil _ _

theorem afterMark?_append (mark cs : List Char) : afterMark? mark (mark ++ cs) = some cs := by
  induction mark with
  | nil => rfl
  | cons m mark ih => rw [List.cons_append, afterMark?, if_pos rfl, ih]

theorem after?_eq_some_iff {opening s rest : String} : after? opening s = some rest ↔ s = opening ++ rest := by
  rw [after?, Option.map_eq_some_iff]
  constructor
  · rintro ⟨cs, found, rfl⟩
    rw [← String.toList_inj, String.toList_append, String.toList_ofList, eq_append_of_afterMark? found]
  · rintro rfl
    exact ⟨rest.toList, by rw [String.toList_append, afterMark?_append], String.ofList_toList⟩

/-- Nothing is lost by splitting. -/
theorem intercalate_partsOf (mark : List Char) (fuel : Nat) (cs : List Char) :
    mark.intercalate (partsOf mark fuel cs) = cs := by
  induction fuel generalizing cs with
  | zero => exact List.intercalate_singleton
  | succ fuel ih =>
    rw [partsOf]
    cases found : splitAt? mark cs with
    | none => exact List.intercalate_singleton
    | some pair =>
      obtain ⟨before, after⟩ := pair
      have rest := ih after
      rw [splitAt?_eq_some found]
      dsimp only
      rw [List.intercalate_cons_of_ne_nil (partsOf_ne_nil mark fuel after), rest, List.append_assoc]

theorem splitBy_injective {mark s t : String} (same : splitBy mark s = splitBy mark t) : s = t := by
  have parts := List.map_injective_iff.mpr (fun _ _ => String.ofList_injective) same
  have whole := congrArg mark.toList.intercalate parts
  rwa [intercalate_partsOf, intercalate_partsOf, String.toList_inj] at whole

theorem eq_of_splitBy {mark s first second : String} (split : splitBy mark s = [first, second]) :
    s = first ++ mark ++ second := by
  have whole := intercalate_partsOf mark.toList s.toList.length s.toList
  obtain ⟨a, b, parts, rfl, rfl⟩ : ∃ a b, partsOf mark.toList s.toList.length s.toList = [a, b] ∧
      String.ofList a = first ∧ String.ofList b = second := by
    rw [splitBy] at split
    generalize partsOf mark.toList s.toList.length s.toList = parts at split
    match parts, split with
    | [a, b], split => exact ⟨a, b, rfl, (List.cons.inj split).1, (List.cons.inj (List.cons.inj split).2).1⟩
  rw [parts, List.intercalate_cons_cons, List.intercalate_singleton] at whole
  rw [← String.toList_inj, ← whole]
  simp only [String.toList_append, String.toList_ofList, List.append_assoc]

end Splitting

/-! ## Underscores -/

/-- What separates the parts of names. -/
def underscores : List Char := ['_', '_']

theorem afterMark?_underscores {c : Char} (other : c ≠ '_') (cs : List Char) :
    afterMark? underscores (c :: cs) = none := by
  rw [underscores, afterMark?, if_neg other.symm]

theorem splitAt?_cons {c : Char} (other : c ≠ '_') (cs : List Char) :
    splitAt? underscores (c :: cs) =
      (splitAt? underscores cs).map fun (before, after) => (c :: before, after) := by
  rw [splitAt?, afterMark?_underscores other]

/-- What holds no underscore is skipped. -/
theorem splitAt?_append {cs : List Char} (free : '_' ∉ cs) (rest : List Char) :
    splitAt? underscores (cs ++ rest) =
      (splitAt? underscores rest).map fun (before, after) => (cs ++ before, after) := by
  induction cs with
  | nil => simp
  | cons c cs ih =>
    rw [List.mem_cons, not_or] at free
    rw [List.cons_append, splitAt?_cons (Ne.symm free.1), ih free.2, Option.map_map]
    rfl

theorem splitAt?_underscores (rest : List Char) :
    splitAt? underscores ('_' :: '_' :: rest) = some ([], rest) := by
  simp [underscores, splitAt?, afterMark?]

theorem splitAt?_underscore_cons {c : Char} (other : c ≠ '_') (rest : List Char) :
    splitAt? underscores ('_' :: c :: rest) =
      (splitAt? underscores (c :: rest)).map fun (before, after) => ('_' :: before, after) := by
  have single : afterMark? underscores ('_' :: c :: rest) = none := by
    simp [underscores, afterMark?, other.symm]
  rw [splitAt?, single]

theorem splitBy_eq (s : String) {fuel : Nat} (enough : s.toList.length ≤ fuel) :
    splitBy "__" s = (partsOf underscores fuel s.toList).map String.ofList := by
  have mark : "__".toList = underscores := by decide
  rw [splitBy, mark, partsOf_congr (by decide) (Nat.le_refl _) enough]

/-- A name in front of two underscores is the first part. -/
theorem splitBy_append {name : String} (free : '_' ∉ name.toList) (rest : String) :
    splitBy "__" (name ++ "__" ++ rest) = name :: splitBy "__" rest := by
  have chars : (name ++ "__" ++ rest).toList = name.toList ++ '_' :: '_' :: rest.toList := by
    rw [String.toList_append, String.toList_append, List.append_assoc]
    rfl
  have found : splitAt? underscores (name ++ "__" ++ rest).toList = some (name.toList, rest.toList) := by
    rw [chars, splitAt?_append free, splitAt?_underscores]
    simp
  have shorter := splitAt?_length (by decide) found
  rw [splitBy_eq (name ++ "__" ++ rest) (Nat.le_succ _), partsOf, found]
  dsimp only
  rw [List.map_cons, String.ofList_toList, ← splitBy_eq rest (by omega)]

/-! ## Small letters -/

theorem beyond_of_mem_capitalRuns : ∀ run ∈ capitalRuns, 95 < (run.first : Int) + run.shift := by
  decide +kernel

theorem ofNat_ne {code : Nat} (beyond : 95 < code) : Char.ofNat code ≠ '_' := by
  intro underscore
  by_cases valid : code.isValidChar
  · have same : (Char.ofNat code).toNat = code := by
      rw [Char.ofNat, dif_pos valid]
      rfl
    rw [underscore] at same
    have small : code = 95 := same.symm
    omega
  · rw [Char.ofNat, dif_neg valid] at underscore
    exact absurd underscore (by decide)

theorem toLower_ne : ∀ code < 128, Char.ofNat code ≠ '_' → (Char.ofNat code).toLower ≠ '_' := by
  decide +kernel

/-- No letter becomes an underscore. -/
theorem smallLetter_ne {c : Char} (other : c ≠ '_') : smallLetter c ≠ '_' := by
  unfold smallLetter
  split
  · rename_i ascii
    have lower := toLower_ne c.toNat ascii
    rw [Char.ofNat_toNat] at lower
    exact lower other
  · split
    · rename_i run found
      have beyond := beyond_of_mem_capitalRuns run (List.mem_of_find?_eq_some found)
      have contains := List.find?_some found
      simp only [CapitalRun.contains, Bool.and_eq_true, decide_eq_true_eq] at contains
      exact ofNat_ne (by omega)
    · exact other

theorem isCased_underscore : isCased '_' = false := by
  decide +kernel

theorem isSkipped_underscore : isSkipped '_' = false := by
  decide +kernel

/-- What a character becomes between others. -/
def smallAt (before : Option Char) (c : Char) (rest : List Char) : List Char :=
  if c = 'İ' then ['i', '\u0307']
  else if c = 'Σ' then
    if before.any isCased && !(rest.find? fun d => !isSkipped d).any isCased then ['ς'] else ['σ']
  else [smallLetter c]

theorem lowercaseFrom_cons (before : Option Char) (c : Char) (rest : List Char) :
    lowercaseFrom before (c :: rest) =
      smallAt before c rest ++ lowercaseFrom (if isSkipped c then before else some c) rest := rfl

theorem smallAt_underscore (before : Option Char) (rest : List Char) : smallAt before '_' rest = ['_'] := by
  have small : smallLetter '_' = '_' := by decide
  simp [smallAt, small]

theorem notMem_smallAt {c : Char} (other : c ≠ '_') (before : Option Char) (rest : List Char) :
    '_' ∉ smallAt before c rest := by
  unfold smallAt
  split
  · decide
  · split
    · split <;> decide
    · simpa using (smallLetter_ne other).symm

/-- Of what stands in front, only the case matters. -/
theorem lowercaseFrom_congr {before other : Option Char} (same : before.any isCased = other.any isCased)
    (cs : List Char) : lowercaseFrom before cs = lowercaseFrom other cs := by
  induction cs generalizing before other with
  | nil => rfl
  | cons c rest ih =>
    have next : (if isSkipped c then before else some c).any isCased =
        (if isSkipped c then other else some c).any isCased := by
      split
      · exact same
      · rfl
    rw [lowercaseFrom_cons, lowercaseFrom_cons, ih next, smallAt, smallAt, same]

/-- What stands behind an underscore is lower-cased as if it stood alone. -/
theorem lowercaseFrom_underscore (before : Option Char) (rest : List Char) :
    lowercaseFrom before ('_' :: rest) = '_' :: lowercaseFrom none rest := by
  have uncased : (some '_').any isCased = none.any isCased := isCased_underscore
  rw [lowercaseFrom_cons, smallAt_underscore, isSkipped_underscore, if_neg Bool.false_ne_true,
    lowercaseFrom_congr uncased, List.singleton_append]

theorem smallAt_ne_nil (before : Option Char) (c : Char) (rest : List Char) : smallAt before c rest ≠ [] := by
  unfold smallAt
  split
  · exact List.cons_ne_nil _ _
  · split
    · split <;> exact List.cons_ne_nil _ _
    · exact List.cons_ne_nil _ _

/-- An underscore ends a word. -/
theorem smallAt_append (before : Option Char) (c : Char) (cs rest : List Char) :
    smallAt before c (cs ++ '_' :: rest) = smallAt before c cs := by
  have next : ((cs ++ '_' :: rest).find? fun d => !isSkipped d).any isCased =
      (cs.find? fun d => !isSkipped d).any isCased := by
    rw [List.find?_append, List.find?_cons_of_pos (by simp [isSkipped_underscore])]
    cases cs.find? fun d => !isSkipped d with
    | none => exact isCased_underscore
    | some d => rfl
  rw [smallAt, smallAt, next]

/-- What stands in front of an underscore is lower-cased as if it stood alone. -/
theorem lowercaseFrom_append (before : Option Char) (cs rest : List Char) :
    lowercaseFrom before (cs ++ '_' :: rest) = lowercaseFrom before cs ++ '_' :: lowercaseFrom none rest := by
  induction cs generalizing before with
  | nil => exact lowercaseFrom_underscore before rest
  | cons c cs ih =>
    rw [List.cons_append, lowercaseFrom_cons, lowercaseFrom_cons, ih, smallAt_append, List.append_assoc]

theorem lowercase_append (s rest : String) : lowercase (s ++ "_" ++ rest) = lowercase s ++ "_" ++ lowercase rest := by
  have chars : (s ++ "_" ++ rest).toList = s.toList ++ '_' :: rest.toList := by
    rw [String.toList_append, String.toList_append, List.append_assoc]
    rfl
  rw [← String.toList_inj]
  simp only [lowercase, chars, lowercaseFrom_append, String.toList_append, String.toList_ofList,
    List.append_assoc]
  rfl

theorem exists_lowercaseFrom_cons {c : Char} (other : c ≠ '_') (before : Option Char) (rest : List Char) :
    ∃ first others, lowercaseFrom before (c :: rest) = first :: others ∧ first ≠ '_' := by
  have free := notMem_smallAt other before rest
  rw [lowercaseFrom_cons]
  cases small : smallAt before c rest with
  | nil => exact absurd small (smallAt_ne_nil before c rest)
  | cons first others =>
    rw [small, List.mem_cons, not_or] at free
    exact ⟨first, _, rfl, Ne.symm free.1⟩

/-- The first two underscores stay where they are. -/
theorem splitAt?_lowercaseFrom (before : Option Char) (cs : List Char) :
    splitAt? underscores (lowercaseFrom before cs) = (splitAt? underscores cs).map fun (part, after) =>
      (lowercaseFrom before part, lowercaseFrom none after) := by
  induction cs generalizing before with
  | nil => rfl
  | cons c rest ih =>
    by_cases mark : c = '_'
    · subst mark
      rw [lowercaseFrom_underscore]
      cases rest with
      | nil => rfl
      | cons d rest =>
        by_cases second : d = '_'
        · subst second
          rw [splitAt?_underscores, lowercaseFrom_underscore]
          exact splitAt?_underscores _
        · obtain ⟨first, others, lowered, free⟩ := exists_lowercaseFrom_cons second none rest
          have split := ih none
          rw [lowered] at split
          rw [lowered, splitAt?_underscore_cons free, split, splitAt?_underscore_cons second, Option.map_map,
            Option.map_map]
          simp only [Function.comp_def, lowercaseFrom_underscore]
    · rw [lowercaseFrom_cons, splitAt?_append (notMem_smallAt mark before rest), ih,
        splitAt?_cons mark]
      cases found : splitAt? underscores rest with
      | none => rfl
      | some pair =>
        obtain ⟨part, after⟩ := pair
        have next : smallAt before c rest = smallAt before c part := by
          rw [splitAt?_eq_some found, underscores, List.append_assoc, List.cons_append]
          exact smallAt_append before c part _
        simp [lowercaseFrom_cons, next]

/-- Splitting comes to the same before and after lower-casing. -/
theorem partsOf_lowercaseFrom {cs : List Char} {fuel other : Nat} (enough : cs.length ≤ fuel)
    (enoughOther : (lowercaseFrom none cs).length ≤ other) :
    partsOf underscores other (lowercaseFrom none cs) =
      (partsOf underscores fuel cs).map (lowercaseFrom none) := by
  induction fuel generalizing cs other with
  | zero =>
    obtain rfl := List.eq_nil_of_length_eq_zero (Nat.le_zero.mp enough)
    cases other <;> rfl
  | succ fuel ih =>
    have more : (lowercaseFrom none cs).length ≤ other + 1 := by omega
    rw [partsOf_congr (by decide) enoughOther more, partsOf, partsOf, splitAt?_lowercaseFrom]
    cases found : splitAt? underscores cs with
    | none => rfl
    | some pair =>
      obtain ⟨part, after⟩ := pair
      have shorter := splitAt?_length (by decide) found
      have lowered := splitAt?_lowercaseFrom none cs
      rw [found] at lowered
      have shorterLowered := splitAt?_length (by decide) lowered
      dsimp only [Option.map_some] at shorterLowered ⊢
      rw [List.map_cons, ih (by omega) (by omega)]

/-- The parts of a lower-cased text are the lower-cased parts. -/
theorem splitBy_lowercase (s : String) : splitBy "__" (lowercase s) = (splitBy "__" s).map lowercase := by
  rw [splitBy_eq s (Nat.le_refl _), splitBy_eq (lowercase s) (Nat.le_refl _)]
  simp only [lowercase, String.toList_ofList]
  rw [partsOf_lowercaseFrom (Nat.le_refl _) (Nat.le_refl _), List.map_map, List.map_map]
  simp [Function.comp_def, lowercase]

end GraphQuery.Text
