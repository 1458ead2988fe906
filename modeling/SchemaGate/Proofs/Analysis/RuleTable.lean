import SchemaGate.Proofs.Analysis.Breach
import SchemaGate.Proofs.TypeIndex.Build

/-!
# The rule table

`TypeBreach` is the table of all rules, written as a relation between two schemas: a type of the
baseline must be there in the candidate and be of the same kind, and then the rules for members
hold between its two versions as the comparison sees them. The main statements are
`mem_breaches_findings`, which says that the findings report exactly the breaches of the table,
and `pairwise_breaches_findings`, which gives their order.
-/

namespace SchemaGate

/-- The rules for types: what the step from a baseline to a candidate breaks. -/
inductive TypeBreach (baseline candidate : SchemaTree) : Breach → Prop where
  | missing (old : Declaration) (hold : old ∈ baseline.declarations)
      (hgone : ∀ new ∈ candidate.declarations, new.path ≠ old.path) :
      TypeBreach baseline candidate { kind := .removedType, typePath := old.path }
  | kindChanged (old new : Declaration) (hold : old ∈ baseline.declarations)
      (hnew : new ∈ candidate.declarations) (hpath : new.path = old.path)
      (hkind : old.definition.kindName ≠ new.definition.kindName) :
      TypeBreach baseline candidate
        { kind := .removedType, typePath := old.path, expected := old.definition.kindName
          actual := new.definition.kindName }
  | member (old new : Declaration) (hold : old ∈ baseline.declarations)
      (hnew : new ∈ candidate.declarations) (hpath : new.path = old.path)
      (hkind : old.definition.kindName = new.definition.kindName) (breach : Breach)
      (hbreach : MemberBreach old.definition.terms old.path old.definition.memberSet
        new.definition.memberSet breach) :
      TypeBreach baseline candidate breach

/-- Types of one kind are compared by the rules for members. -/
theorem compareTypes_of_kindName_eq {path : String} {old new : TypeDef}
    (h : old.kindName = new.kindName) :
    compareTypes path old (some new) =
      compareMembers old.terms path old.memberSet new.memberSet := by
  cases old <;> cases new <;> first | rfl | simp [TypeDef.kindName] at h

/-- Of types of different kinds the older one is removed. -/
theorem compareTypes_of_kindName_ne {path : String} {old new : TypeDef}
    (h : old.kindName ≠ new.kindName) :
    compareTypes path old (some new) = [changedKind path old new] := by
  cases old <;> cases new <;> first | rfl | simp [TypeDef.kindName] at h

/-- Types of one kind are compared in the same words. -/
theorem TypeDef.terms_eq {definition other : TypeDef} (h : other.kindName = definition.kindName) :
    other.terms = definition.terms := by
  cases definition <;> cases other <;> first | rfl | simp [TypeDef.kindName] at h

/-- Types of one kind are spoken of in the same words. -/
theorem TypeDef.kindTitle_eq {definition other : TypeDef}
    (h : other.kindName = definition.kindName) : other.kindTitle = definition.kindTitle := by
  cases definition <;> cases other <;> first | rfl | simp [TypeDef.kindName] at h

/-- A type that is missing is reported in the words for its kind. -/
theorem compareTypes_none_congr {path : String} {old old' : TypeDef}
    (hold : old'.kindName = old.kindName) :
    compareTypes path old' none = compareTypes path old none := by
  rw [compareTypes, compareTypes, missingType, missingType, TypeDef.kindTitle_eq hold]

/-- Types are compared alike if they are of the same kinds and their members, where they are
compared, are compared alike. -/
theorem compareTypes_congr {path : String} {old old' new new' : TypeDef}
    (hold : old'.kindName = old.kindName) (hnew : new'.kindName = new.kindName)
    (hmembers : old.kindName = new.kindName →
      compareMembers old.terms path old'.memberSet new'.memberSet =
        compareMembers old.terms path old.memberSet new.memberSet) :
    compareTypes path old' (some new') = compareTypes path old (some new) := by
  by_cases hkind : old.kindName = new.kindName
  · have hkind' : old'.kindName = new'.kindName := by rw [hold, hkind, hnew]
    rw [compareTypes_of_kindName_eq hkind, compareTypes_of_kindName_eq hkind',
      TypeDef.terms_eq hold, hmembers hkind]
  · have hkind' : old'.kindName ≠ new'.kindName := by
      rw [hold, hnew]
      exact hkind
    rw [compareTypes_of_kindName_ne hkind, compareTypes_of_kindName_ne hkind', changedKind,
      changedKind, TypeDef.kindTitle_eq hold, hold, hnew]

/-- What is found on a type: it is gone, or it is of another kind, or its members are compared. -/
theorem mem_compareTypes_iff {path : String} {old : TypeDef} {new : Option TypeDef}
    {finding : Finding} :
    finding ∈ compareTypes path old new ↔
      new = none ∧ finding = missingType path old ∨
      ∃ found, new = some found ∧
        (old.kindName ≠ found.kindName ∧ finding = changedKind path old found ∨
          old.kindName = found.kindName ∧
            finding ∈ compareMembers old.terms path old.memberSet found.memberSet) := by
  cases new with
  | none => simp [compareTypes]
  | some new =>
      by_cases hkind : old.kindName = new.kindName
      · simp [compareTypes_of_kindName_eq hkind, hkind]
      · simp [compareTypes_of_kindName_ne hkind, hkind]

/-- The file of a finding is no part of what it reports. -/
theorem breaches_findingsAt (new : TypeIndex) (path : String) (entry : TypeEntry) :
    (findingsAt new path entry).map Finding.breach =
      (compareTypes path entry.definition ((new.find? path).map (·.definition))).map
        Finding.breach := by
  simp [findingsAt, Finding.breach, Finding.inFile]

/-- A breach is reported exactly when it is reported of a type that the baseline's index holds. -/
theorem mem_breaches_findings_iff {old new : TypeIndex} {breach : Breach} :
    breach ∈ (findings old new).map Finding.breach ↔
      ∃ path entry, old.find? path = some entry ∧
        breach ∈ (compareTypes path entry.definition
          ((new.find? path).map (·.definition))).map Finding.breach := by
  rw [findings, List.map_flatMap, List.mem_flatMap, Prod.exists]
  refine exists_congr fun path => exists_congr fun entry => ?_
  rw [breaches_findingsAt]
  exact and_congr_left' NameMap.mem_entries_iff

/-- Every finding comes from the comparison of a type that the baseline's index holds. -/
theorem mem_findings_iff {old new : TypeIndex} {finding : Finding} :
    finding ∈ findings old new ↔ ∃ path entry bare, old.find? path = some entry ∧
      bare ∈ compareTypes path entry.definition ((new.find? path).map (·.definition)) ∧
      bare.inFile entry.file = finding := by
  rw [findings, List.mem_flatMap, Prod.exists]
  refine exists_congr fun path => exists_congr fun entry => ?_
  rw [findingsAt, List.mem_map, exists_and_left]
  exact and_congr_left' NameMap.mem_entries_iff

/-- Every finding is an error. -/
theorem severity_of_mem_findings {old new : TypeIndex} {finding : Finding}
    (h : finding ∈ findings old new) : finding.severity = .error := by
  obtain ⟨path, entry, bare, -, hbare, rfl⟩ := mem_findings_iff.1 h
  show bare.severity = .error
  obtain ⟨-, rfl⟩ | ⟨found, -, ⟨-, rfl⟩ | ⟨-, hmember⟩⟩ := mem_compareTypes_iff.1 hbare
  · rfl
  · rfl
  · exact severity_of_mem_compareMembers hmember

/-- The findings on one type are in order and at its path. -/
theorem pairwise_breaches_compareTypes (path : String) (old : TypeDef) (new : Option TypeDef) :
    ((compareTypes path old new).map Finding.breach).Pairwise Breach.Precedes ∧
      ∀ breach ∈ (compareTypes path old new).map Finding.breach, breach.typePath = path := by
  cases new with
  | none => simp [compareTypes, missingType, Finding.breach]
  | some new =>
      by_cases hkind : old.kindName = new.kindName
      · rw [compareTypes_of_kindName_eq hkind]
        refine ⟨pairwise_breaches_compareMembers old.terms_ordered, ?_⟩
        intro breach hbreach
        exact (mem_breaches_compareMembers.1 hbreach).typePath_eq
      · rw [compareTypes_of_kindName_ne hkind]
        simp [changedKind, Finding.breach, Finding.comparing]

/-- The findings are in order: by path, then by step, then by name, then the number before the
name. -/
theorem pairwise_breaches_findings (old new : TypeIndex) :
    ((findings old new).map Finding.breach).Pairwise Breach.Precedes := by
  rw [findings, List.map_flatMap, List.pairwise_flatMap]
  simp only [breaches_findingsAt]
  refine ⟨fun entry _ => (pairwise_breaches_compareTypes _ _ _).1, ?_⟩
  -- Different entries of the index differ in their path.
  refine old.types.ordered.imp ?_
  intro entry other hlt breach hbreach breach' hbreach'
  left
  rwa [(pairwise_breaches_compareTypes _ _ _).2 breach hbreach,
    (pairwise_breaches_compareTypes _ _ _).2 breach' hbreach']

/-- No two findings report the same breach. -/
theorem nodup_breaches_findings (old new : TypeIndex) :
    ((findings old new).map Finding.breach).Nodup :=
  (pairwise_breaches_findings old new).nodup

section Table

variable {baseline candidate : SchemaTree} {old new : TypeIndex}

/-- Every finding is on a declared type of the baseline, and says that the candidate does not
declare the path, or declares a type of another kind there, or comes from the comparison of the
members of both. -/
theorem exists_declaration_of_mem_findings (hold : TypeIndex.build baseline = .ok old)
    (hnew : TypeIndex.build candidate = .ok new) {finding : Finding}
    (h : finding ∈ findings old new) :
    ∃ before ∈ baseline.declarations, ∃ bare : Finding, bare.inFile before.file = finding ∧
      ((∀ after ∈ candidate.declarations, after.path ≠ before.path) ∧
          bare = missingType before.path before.definition ∨
        ∃ after ∈ candidate.declarations, after.path = before.path ∧
          (before.definition.kindName ≠ after.definition.kindName ∧
              bare = changedKind before.path before.definition after.definition ∨
            before.definition.kindName = after.definition.kindName ∧
              bare ∈ compareMembers before.definition.terms before.path
                before.definition.memberSet after.definition.memberSet)) := by
  obtain ⟨path, entry, bare, hentry, hbare, rfl⟩ := mem_findings_iff.1 h
  refine ⟨_, (TypeIndex.find?_iff_of_build hold).1 hentry, bare, rfl, ?_⟩
  obtain ⟨hnone, hmissing⟩ | ⟨definition, hsome, hfound⟩ := mem_compareTypes_iff.1 hbare
  · exact .inl ⟨(TypeIndex.find?_eq_none_iff_of_build hnew).1 (Option.map_eq_none_iff.1 hnone),
      hmissing⟩
  · obtain ⟨found, hfind, rfl⟩ := Option.map_eq_some_iff.1 hsome
    exact .inr ⟨_, (TypeIndex.find?_iff_of_build hnew).1 hfind, rfl, hfound⟩

/-- The findings between two schemas report exactly the breaches of the table. -/
theorem mem_breaches_findings (hold : TypeIndex.build baseline = .ok old)
    (hnew : TypeIndex.build candidate = .ok new) {breach : Breach} :
    breach ∈ (findings old new).map Finding.breach ↔ TypeBreach baseline candidate breach := by
  constructor
  · intro h
    obtain ⟨finding, hfinding, rfl⟩ := List.mem_map.1 h
    obtain ⟨before, hbefore, bare, rfl, ⟨hgone, rfl⟩ | ⟨after, hafter, hpath, hfound⟩⟩ :=
      exists_declaration_of_mem_findings hold hnew hfinding
    · exact .missing before hbefore hgone
    obtain ⟨hkind, rfl⟩ | ⟨hkind, hmember⟩ := hfound
    · exact .kindChanged before after hbefore hafter hpath hkind
    · exact .member before after hbefore hafter hpath hkind _
        (mem_breaches_compareMembers.1 (List.mem_map.2 ⟨bare, hmember, rfl⟩))
  · have hentry : ∀ declaration ∈ baseline.declarations,
        old.find? declaration.path = some ⟨declaration.definition, declaration.file⟩ :=
      fun declaration hmem => (TypeIndex.find?_iff_of_build hold).2 hmem
    have hfound : ∀ declaration ∈ candidate.declarations,
        new.find? declaration.path = some ⟨declaration.definition, declaration.file⟩ :=
      fun declaration hmem => (TypeIndex.find?_iff_of_build hnew).2 hmem
    intro h
    rw [mem_breaches_findings_iff]
    cases h with
    | missing before hbefore hgone =>
        refine ⟨_, _, hentry before hbefore, ?_⟩
        rw [(TypeIndex.find?_eq_none_iff_of_build hnew).2 hgone]
        exact List.mem_singleton.2 rfl
    | kindChanged before after hbefore hafter hpath hkind =>
        refine ⟨_, _, hentry before hbefore, ?_⟩
        rw [← hpath, hfound after hafter, Option.map_some, compareTypes_of_kindName_ne hkind]
        exact List.mem_singleton.2 (by simp [changedKind, Finding.breach, Finding.comparing, hpath])
    | member before after hbefore hafter hpath hkind breach hbreach =>
        refine ⟨_, _, hentry before hbefore, ?_⟩
        rw [← hpath, hfound after hafter, Option.map_some, compareTypes_of_kindName_eq hkind,
          mem_breaches_compareMembers, hpath]
        exact hbreach

/-- A finding that does not remove a type comes from the comparison of the members of its two
versions, which are of one kind. -/
theorem exists_compareMembers_of_mem_findings (hold : TypeIndex.build baseline = .ok old)
    (hnew : TypeIndex.build candidate = .ok new) {finding : Finding}
    (h : finding ∈ findings old new) (hkind : finding.kind ≠ .removedType) :
    ∃ before ∈ baseline.declarations, ∃ after ∈ candidate.declarations, after.path = before.path ∧
      ∃ bare ∈ compareMembers before.definition.terms before.path before.definition.memberSet
        after.definition.memberSet, bare.inFile before.file = finding := by
  obtain ⟨before, hbefore, bare, rfl, ⟨-, rfl⟩ | ⟨after, hafter, hpath, hfound⟩⟩ :=
    exists_declaration_of_mem_findings hold hnew h
  · exact absurd rfl hkind
  obtain ⟨-, rfl⟩ | ⟨-, hmember⟩ := hfound
  · exact absurd rfl hkind
  · exact ⟨before, hbefore, after, hafter, hpath, bare, hmember, rfl⟩

/-- What the comparison of the members of two versions of one kind finds is among the findings. -/
theorem mem_findings_of_mem_compareMembers (hold : TypeIndex.build baseline = .ok old)
    (hnew : TypeIndex.build candidate = .ok new) {before after : Declaration}
    (hbefore : before ∈ baseline.declarations) (hafter : after ∈ candidate.declarations)
    (hpath : after.path = before.path)
    (hkind : before.definition.kindName = after.definition.kindName) {bare : Finding}
    (h : bare ∈ compareMembers before.definition.terms before.path before.definition.memberSet
      after.definition.memberSet) : bare.inFile before.file ∈ findings old new := by
  have hentry : old.find? before.path = some ⟨before.definition, before.file⟩ :=
    (TypeIndex.find?_iff_of_build hold).2 hbefore
  have hfound : new.find? before.path = some ⟨after.definition, after.file⟩ :=
    hpath ▸ (TypeIndex.find?_iff_of_build hnew).2 hafter
  refine mem_findings_iff.2 ⟨before.path, _, bare, hentry, ?_, rfl⟩
  rw [hfound, Option.map_some, compareTypes_of_kindName_eq hkind]
  exact h

/-- A type that is removed breaks no other rule. -/
theorem TypeBreach.eq_of_removedType (hold : TypeIndex.build baseline = .ok old)
    (hnew : TypeIndex.build candidate = .ok new) {breach other : Breach}
    (hbreach : TypeBreach baseline candidate breach) (hother : TypeBreach baseline candidate other)
    (hkind : breach.kind = .removedType) (hpath : other.typePath = breach.typePath) :
    other = breach := by
  -- Both are about the declarations of one path, and only one rule applies to these.
  cases hbreach with
  | missing before hbefore hgone =>
      cases hother with
      | missing =>
          exact congrArg (fun path => ({ kind := .removedType, typePath := path } : Breach)) hpath
      | kindChanged _ after _ hafter hafterPath =>
          exact absurd (hafterPath.trans hpath) (hgone after hafter)
      | member _ after _ hafter hafterPath _ _ hmember =>
          have hsame := hmember.typePath_eq.symm.trans hpath
          exact absurd (hafterPath.trans hsame) (hgone after hafter)
  | kindChanged before after hbefore hafter hafterPath hkinds =>
      cases hother with
      | missing _ _ hgone => exact absurd (hafterPath.trans hpath.symm) (hgone after hafter)
      | kindChanged before' after' hbefore' hafter' hafterPath' =>
          obtain rfl := TypeIndex.declaration_eq_of_build hold hbefore' hbefore hpath
          obtain rfl := TypeIndex.declaration_eq_of_build hnew hafter' hafter
            (hafterPath'.trans hafterPath.symm)
          rfl
      | member before' after' hbefore' hafter' hafterPath' hkinds' _ hmember =>
          have hsame := hmember.typePath_eq.symm.trans hpath
          obtain rfl := TypeIndex.declaration_eq_of_build hold hbefore' hbefore hsame
          obtain rfl := TypeIndex.declaration_eq_of_build hnew hafter' hafter
            (hafterPath'.trans hafterPath.symm)
          exact absurd hkinds' hkinds
  | member before _ _ _ _ _ _ hmember =>
      exact absurd hkind (hmember.kind_ne before.definition.terms_ordered)

end Table

end SchemaGate
