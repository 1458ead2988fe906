import SchemaGate.Check
import SchemaGate.Proofs.TypeIndex.Walk
import SchemaGate.Proofs.Validation.WellFormed

/-!
# Duplicates in the checks and in the index

The checks record the paths that they have met and those that they have met again, and go on to look
up types only if no path is recorded twice and the schema can be indexed. They meet a message before
what is inside it and go through the whole schema, while the index meets it after what is inside it
and stops at the first path that is there already. The main statement is `duplicates_agree`: they
agree on which schemas have duplicates.
-/

namespace SchemaGate.Validation

/-- The paths that the checks have met, and those that they have met more than once. -/
structure PathRecord where
  paths : NameMap Unit := {}
  duplicates : NameMap Unit := {}

namespace PathRecord

/-- Record a path. -/
def register (record : PathRecord) (path : String) : PathRecord :=
  if record.paths.contains path then
    { record with duplicates := record.duplicates.insert path () }
  else { record with paths := record.paths.insert path () }

/-- Whether a path is reported, which it is when it is met again for the first time. -/
def reports (record : PathRecord) (path : String) : Bool :=
  record.paths.contains path && !record.duplicates.contains path

/-- Record the path that a subject declares. -/
def meet (record : PathRecord) (subject : Subject) : PathRecord :=
  match subject.path? with
  | some path => record.register path
  | none => record

end PathRecord

/-- The issues of subjects in the order of the walk, with the paths met before on record. -/
def recordedIssues (record : PathRecord) : List Subject → List Issue
  | [] => []
  | subject :: others =>
      (match subject.path? with
        | some path => if record.reports path then [⟨path, .duplicatePath⟩] else []
        | none => []) ++
      localIssues subject ++ recordedIssues (record.meet subject) others

/-- The record at the end of the walk through a schema. -/
def recordOf (tree : SchemaTree) : PathRecord :=
  (subjects tree).foldl PathRecord.meet {}

/-- The index in which types are looked up. None are if a path is on record as a duplicate, or if
the schema cannot be indexed. -/
def referenceIndex? (tree : SchemaTree) : Option TypeIndex :=
  if (recordOf tree).duplicates.isEmpty then (TypeIndex.build tree).toOption else none

/-- Every issue of a schema, as the checks collect them with a record of the paths. -/
def collectIssues (tree : SchemaTree) : List Issue :=
  recordedIssues {} (subjects tree) ++
    match referenceIndex? tree with
    | some index => (subjects tree).flatMap (referenceIssues index)
    | none => []

namespace PathRecord

variable {record : PathRecord} {met : List String}

/-- A record is that of the paths met. -/
structure Holds (record : PathRecord) (met : List String) : Prop where
  paths : ∀ path, record.paths.contains path = true ↔ 1 ≤ met.count path
  duplicates : ∀ path, record.duplicates.contains path = true ↔ 2 ≤ met.count path

/-- Nothing is on record at first. -/
theorem holds_nil : Holds {} [] := by
  constructor
  · intro path
    exact iff_of_false Bool.false_ne_true (by simp)
  · intro path
    exact iff_of_false Bool.false_ne_true (by simp)

/-- Recording a path adds it to those that have been met. -/
theorem contains_paths_register {path other : String} :
    (record.register path).paths.contains other = true ↔
      path = other ∨ record.paths.contains other = true := by
  unfold register
  by_cases hpath : record.paths.contains path = true
  · rw [if_pos hpath]
    refine ⟨.inr, fun h => ?_⟩
    rcases h with rfl | hother
    · exact hpath
    · exact hother
  · rw [if_neg hpath]
    exact NameMap.contains_insert

/-- Recording a path that has been met adds it to the duplicates. -/
theorem contains_duplicates_register {path other : String} :
    (record.register path).duplicates.contains other = true ↔
      path = other ∧ record.paths.contains path = true ∨
        record.duplicates.contains other = true := by
  unfold register
  by_cases hpath : record.paths.contains path = true
  · rw [if_pos hpath, and_iff_left hpath]
    exact NameMap.contains_insert
  · rw [if_neg hpath, or_iff_right fun h => hpath h.2]

/-- Recording a path keeps the record that of the paths met. -/
theorem Holds.register (h : record.Holds met) (path : String) :
    (record.register path).Holds (path :: met) := by
  constructor
  · intro other
    rw [contains_paths_register, h.paths]
    by_cases hother : path = other
    · subst hother
      simp
    · simp [hother]
  · intro other
    rw [contains_duplicates_register, h.paths, h.duplicates]
    by_cases hother : path = other
    · subst hother
      simp only [true_and, List.count_cons_self]
      omega
    · simp [hother]

/-- What a subject declares is added to the paths met. -/
theorem Holds.meet (h : record.Holds met) (subject : Subject) :
    (record.meet subject).Holds (subject.path?.toList ++ met) := by
  unfold PathRecord.meet
  cases subject.path? with
  | none => exact h
  | some path => exact h.register path

/-- A path is reported exactly when it has been met once. -/
theorem Holds.reports_iff (h : record.Holds met) {path : String} :
    record.reports path = true ↔ met.count path = 1 := by
  have hpaths := h.paths path
  have hduplicates := h.duplicates path
  rw [reports, Bool.and_eq_true, Bool.not_eq_true', ← Bool.not_eq_true, hpaths, hduplicates]
  omega

/-- With a record of the paths met the walk finds the same issues. -/
theorem Holds.issues_eq (h : record.Holds met) (subjects : List Subject) :
    recordedIssues record subjects = issuesOf met subjects := by
  induction subjects generalizing record met with
  | nil => rfl
  | cons subject subjects ih =>
      rw [recordedIssues, issuesOf, ih (h.meet subject), pathIssues]
      cases subject.path? with
      | none => rfl
      | some path => simp only [h.reports_iff]

/-- After a walk all paths that it has met are on record. -/
theorem Holds.walk (h : record.Holds met) (subjects : List Subject) :
    (subjects.foldl PathRecord.meet record).Holds
      ((subjects.filterMap Subject.path?).reverse ++ met) := by
  induction subjects generalizing record met with
  | nil => exact h
  | cons subject subjects ih =>
      have hrest := ih (h.meet subject)
      rw [List.foldl_cons]
      cases hpath : subject.path? with
      | none => simpa [hpath] using hrest
      | some path => simpa [hpath] using hrest

end PathRecord

section Trees

variable {tree : SchemaTree}

/-- A path is on record as a duplicate exactly when it is declared more than once. -/
theorem contains_duplicates_iff {path : String} :
    (recordOf tree).duplicates.contains path = true ↔
      2 ≤ (tree.declarations.map (·.path)).count path := by
  have hrecord := PathRecord.holds_nil.walk (subjects tree)
  rw [List.append_nil] at hrecord
  rw [recordOf, hrecord.duplicates, List.count_reverse, count_paths]

/-- A path on record as a duplicate is reported in the walk. -/
theorem reported_of_duplicate {path : String}
    (h : (recordOf tree).duplicates.contains path = true) :
    ⟨path, .duplicatePath⟩ ∈ recordedIssues {} (subjects tree) := by
  rw [contains_duplicates_iff, ← count_paths] at h
  rw [PathRecord.holds_nil.issues_eq, (issuesOf_perm [] (subjects tree)).mem_iff]
  refine List.mem_append_left _ (List.mem_map.2 ⟨path, mem_repeated.2 ⟨by simp, ?_⟩, rfl⟩)
  simpa using h

/-- Some path is on record as a duplicate exactly when two types share a path. -/
theorem nodup_paths_iff :
    (tree.declarations.map (·.path)).Nodup ↔ (recordOf tree).duplicates.isEmpty = true := by
  rw [NameMap.isEmpty_iff, List.nodup_iff_count_le_one]
  refine forall_congr' fun path => ?_
  rw [contains_duplicates_iff]
  omega

/-- The path that repeats an earlier one is on record as a duplicate. -/
theorem duplicate_of_build_eq_error {path : String} (h : TypeIndex.build tree = .error ⟨path⟩) :
    (recordOf tree).duplicates.contains path = true := by
  obtain ⟨earlier, later, hsplit, hpath, -⟩ := TypeIndex.build_eq_error_iff.1 h
  rw [contains_duplicates_iff, hsplit, List.count_append, List.count_cons_self]
  have hearlier := List.count_pos_iff.2 hpath
  omega

/-- Types are looked up if there are no duplicates on record: then the schema has an index. -/
theorem referenceIndex?_eq_some_iff {index : TypeIndex} :
    referenceIndex? tree = some index ↔ TypeIndex.build tree = .ok index := by
  unfold referenceIndex?
  constructor
  · intro h
    split at h
    · cases hbuild : TypeIndex.build tree with
      | error repetition => simp [hbuild, Except.toOption] at h
      | ok found => simpa [hbuild, Except.toOption] using h
    · cases h
  · intro h
    rw [if_pos (nodup_paths_iff.1 (TypeIndex.nodup_of_build h)), h]
    rfl

/-- The checks collect the issues of a schema. -/
theorem collectIssues_eq (tree : SchemaTree) : collectIssues tree = issues tree := by
  rw [collectIssues, issues, PathRecord.holds_nil.issues_eq]
  cases hbuild : TypeIndex.build tree with
  | ok index => rw [referenceIndex?_eq_some_iff.2 hbuild]
  | error repetition =>
      have hnone : referenceIndex? tree = none := by
        rw [Option.eq_none_iff_forall_ne_some]
        intro index hindex
        cases hbuild.symm.trans (referenceIndex?_eq_some_iff.1 hindex)
      rw [hnone]

/-- The checks and the index agree on duplicates. The checks with a record of the paths collect the
issues of the schema. A path is on record as a duplicate exactly when the schema has no index, and
the path that the index names is one of them. If types are not looked up, a duplicate has been
reported. Valid schemas have an index, and the check of one against another gives a verdict. -/
theorem duplicates_agree (tree : SchemaTree) :
    collectIssues tree = issues tree ∧
    ((∃ path, (recordOf tree).duplicates.contains path = true) ↔
      ∃ path, TypeIndex.build tree = .error ⟨path⟩) ∧
    (∀ path, TypeIndex.build tree = .error ⟨path⟩ →
      (recordOf tree).duplicates.contains path = true) ∧
    (referenceIndex? tree = none →
      ∃ path, ⟨path, .duplicatePath⟩ ∈ recordedIssues {} (subjects tree)) ∧
    (validate tree = .ok () → ∃ index, TypeIndex.build tree = .ok index) ∧
    ∀ policy candidate, validate tree = .ok () → validate candidate = .ok () →
      ∃ verdict, check policy tree candidate = .ok verdict := by
  have hindexed : (∀ path, TypeIndex.build tree ≠ .error ⟨path⟩) →
      ∃ index, TypeIndex.build tree = .ok index := by
    intro hnever
    cases hbuild : TypeIndex.build tree with
    | ok index => exact ⟨index, rfl⟩
    | error repetition => exact absurd hbuild (hnever repetition.path)
  refine ⟨collectIssues_eq tree, ⟨?_, ?_⟩, fun path => duplicate_of_build_eq_error, ?_,
    exists_build_of_validate, ?_⟩
  · intro ⟨path, hpath⟩
    by_contra hnever
    obtain ⟨index, hindex⟩ := hindexed (not_exists.1 hnever)
    have hempty := nodup_paths_iff.1 (TypeIndex.nodup_of_build hindex)
    exact NameMap.isEmpty_iff.1 hempty path hpath
  · intro ⟨path, hbuild⟩
    exact ⟨path, duplicate_of_build_eq_error hbuild⟩
  · intro hnone
    by_contra hunreported
    obtain ⟨index, hindex⟩ := hindexed fun path hbuild =>
      hunreported ⟨path, reported_of_duplicate (duplicate_of_build_eq_error hbuild)⟩
    cases hnone.symm.trans (referenceIndex?_eq_some_iff.2 hindex)
  · intro policy candidate htree hcandidate
    obtain ⟨old, hold⟩ := exists_build_of_validate htree
    obtain ⟨new, hnew⟩ := exists_build_of_validate hcandidate
    exact ⟨_, check_of_build hold hnew⟩

/-- A message and an enum of one path, in two files. -/
def twoSwings : SchemaTree :=
  ⟨[⟨"left.proto", ["yard"], [{ name := "Swing" }], []⟩,
    ⟨"right.proto", ["yard"], [], [{ name := "Swing" }]⟩]⟩

/-- The message alone. -/
def oneSwing : SchemaTree :=
  ⟨[⟨"left.proto", ["yard"], [{ name := "Swing" }], []⟩]⟩

/-- The two types are found twice by both, and the one alone can be checked against itself. -/
theorem duplicates_agree_swings :
    TypeIndex.build twoSwings = .error ⟨"yard.Swing"⟩ ∧
    (recordOf twoSwings).duplicates.contains "yard.Swing" = true ∧
    referenceIndex? twoSwings = none ∧
    (∃ path, ⟨path, .duplicatePath⟩ ∈ recordedIssues {} (subjects twoSwings)) ∧
    validate oneSwing = .ok () ∧
    ∃ index verdict, TypeIndex.build oneSwing = .ok index ∧
      check {} oneSwing oneSwing = .ok verdict := by
  obtain ⟨-, -, hnamed, hskipped, -⟩ := duplicates_agree twoSwings
  obtain ⟨-, -, -, -, hindexed, hchecked⟩ := duplicates_agree oneSwing
  obtain ⟨index, hindex⟩ := hindexed rfl
  obtain ⟨verdict, hverdict⟩ := hchecked {} oneSwing rfl rfl
  exact ⟨rfl, hnamed _ rfl, rfl, hskipped rfl, rfl, index, verdict, hindex, hverdict⟩

end Trees

end SchemaGate.Validation
