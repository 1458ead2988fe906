import SchemaGate.Proofs.Lock.Relisted
import SchemaGate.Proofs.Policy.Judgement

/-!
# Snapshots and verdicts

The schema that comes back from a snapshot may list the fields of a message in another order, write
map types anew, derive other oneofs and name its files by other paths. None of this is seen by the
rules, in the baseline as in the candidate, and the paths of files only tell where a finding is. The
main statement is `check_snapshot`: a valid schema and its snapshot get the same verdicts.
-/

namespace SchemaGate

open Validation (Valid)

section Types

variable {path : String} {definition : TypeDef}

/-- In the baseline a type that comes back is compared like the type. -/
theorem compareTypes_relisted_old (h : definition.memberSet.Distinct) (new : Option TypeDef) :
    compareTypes path definition.relisted new = compareTypes path definition new := by
  have hkind := definition.kindName_relisted
  cases new with
  | none => exact compareTypes_none_congr hkind
  | some new =>
      exact compareTypes_congr hkind rfl fun _ =>
        compareMembers_eq_of_reordered_old definition.reordered_relisted h.namesOnce

/-- In the candidate a type that comes back is compared like the type. -/
theorem compareTypes_relisted_new (h : definition.memberSet.Distinct) (old : TypeDef) :
    compareTypes path old (some definition.relisted) = compareTypes path old (some definition) :=
  compareTypes_congr rfl definition.kindName_relisted fun _ =>
    compareMembers_eq_of_reordered_new definition.reordered_relisted h

end Types

/-- What an index holds under a path after the type has come back from a snapshot. -/
def TypeEntry.relisted (entry : TypeEntry) : TypeEntry :=
  ⟨entry.definition.relisted, Protopath.normalize (Protopath.ofPath entry.file)⟩

/-- The finding with its file under another path. -/
def Finding.relocated (move : String → String) (finding : Finding) : Finding :=
  { finding with file := finding.file.map move }

/-- A policy does not look at files. -/
theorem Policy.rewording_relocated (move : String → String) :
    Policy.Rewording (Finding.relocated move) :=
  ⟨fun _ => rfl, fun _ => rfl, fun _ _ => rfl⟩

section Findings

variable {tree : SchemaTree} {index result other : TypeIndex}

/-- The types that the index of a valid schema holds have distinct members. -/
theorem distinct_of_find? (h : Valid tree index) {path : String} {entry : TypeEntry}
    (hentry : index.find? path = some entry) : entry.definition.memberSet.Distinct :=
  (h.sound _ ((TypeIndex.find?_iff_of_build h.build).1 hentry)).members.toDistinct

/-- The index of the schema that comes back holds what comes back of each type. -/
theorem find?_relisted (h : Valid tree index) (hresult : TypeIndex.build tree.relisted = .ok result)
    (path : String) : result.find? path = (index.find? path).map TypeEntry.relisted := by
  refine Option.ext fun entry => ?_
  rw [TypeIndex.find?_iff_of_build hresult, mem_declarations_relisted h, Option.map_eq_some_iff]
  obtain ⟨definition, file⟩ := entry
  constructor
  · rintro ⟨original, horiginal, heq⟩
    cases heq
    exact ⟨⟨original.definition, original.file⟩,
      (TypeIndex.find?_iff_of_build h.build).2 horiginal, rfl⟩
  · rintro ⟨original, horiginal, heq⟩
    cases heq
    exact ⟨⟨path, original.definition, original.file⟩,
      (TypeIndex.find?_iff_of_build h.build).1 horiginal, rfl⟩

/-- Against the schema that comes back a candidate has the same findings, in the files that come
back. -/
theorem findings_relisted_old (h : Valid tree index)
    (hresult : TypeIndex.build tree.relisted = .ok result) :
    findings result other = (findings index other).map
      (Finding.relocated fun path => Protopath.normalize (Protopath.ofPath path)) := by
  have hentries : result.entries = index.entries.map fun entry => (entry.1, entry.2.relisted) :=
    NameMap.entries_eq_map (find?_relisted h hresult)
  rw [findings, findings, hentries, List.flatMap_map, List.map_flatMap]
  refine List.flatMap_congr fun entry hentry => ?_
  have hdistinct := distinct_of_find? h (NameMap.mem_entries_iff.1 hentry)
  rw [findingsAt, findingsAt, List.map_map]
  exact congrArg _ (compareTypes_relisted_old hdistinct _)

/-- As a candidate the schema that comes back has the same findings. -/
theorem findings_relisted_new (h : Valid tree index)
    (hresult : TypeIndex.build tree.relisted = .ok result) :
    findings other result = findings other index := by
  rw [findings, findings]
  refine List.flatMap_congr fun entry _ => ?_
  rw [findingsAt, findingsAt, find?_relisted h hresult]
  cases hfind : index.find? entry.1 with
  | none => rfl
  | some found =>
      exact congrArg _ (compareTypes_relisted_new (distinct_of_find? h hfind) _)

/-- Every finding is in a file of the baseline. -/
theorem exists_file_of_mem_findings (h : TypeIndex.build tree = .ok index) {finding : Finding}
    (hfinding : finding ∈ findings index other) :
    ∃ file ∈ tree.files, finding.file = some file.path := by
  obtain ⟨path, entry, bare, hentry, -, rfl⟩ := mem_findings_iff.1 hfinding
  obtain ⟨file, hfile, hdeclared⟩ :=
    List.mem_flatMap.1 ((TypeIndex.find?_iff_of_build h).1 hentry)
  exact ⟨file, hfile, congrArg some (SchemaFile.file_eq_of_mem_declarations hdeclared)⟩

end Findings

/-- The snapshot of a valid schema can be read back, and what comes back gets the verdicts of the
schema. As a candidate it gets the same verdict under every policy. As a baseline it gets the same
but for the files of findings, which are named by the paths that come back, and it gets the same
altogether if these are the paths of the schema. -/
theorem check_snapshot {tree other : SchemaTree} {index : TypeIndex}
    (hvalid : Validation.validate tree = .ok ()) (hother : TypeIndex.build other = .ok index) :
    ∃ result, (LockFile.ofTree tree).toTree = .ok result ∧ ∀ policy,
      (∃ verdict, check policy other tree = .ok verdict ∧
        check policy other result = .ok verdict) ∧
      ∃ before after, check policy tree other = .ok before ∧
        check policy result other = .ok after ∧
        after = before.map
          (Finding.relocated fun path => Protopath.normalize (Protopath.ofPath path)) ∧
        ((∀ file ∈ tree.files, Protopath.normalize (Protopath.ofPath file.path) = file.path) →
          after = before) := by
  obtain ⟨own, h⟩ := Validation.validate_eq_ok_iff_valid.1 hvalid
  obtain ⟨back, hback, -⟩ := exists_build_relisted h
  refine ⟨tree.relisted, LockFile.toTree_ofTree tree, fun policy => ⟨?_, ?_⟩⟩
  · refine ⟨_, check_of_build hother h.build, ?_⟩
    rw [check_of_build hother hback, findings_relisted_new h hback]
  refine ⟨_, _, check_of_build h.build hother, check_of_build hback hother, ?_, fun hpaths => ?_⟩
  · rw [findings_relisted_old h hback]
    exact (Policy.rewording_relocated _).judge_map policy _
  · -- With the same paths nothing is relocated, so the findings are the same.
    rw [findings_relisted_old h hback]
    refine congrArg policy.judge (map_eq_self_iff.2 fun finding hfinding => ?_)
    obtain ⟨file, hfile, hlocated⟩ := exists_file_of_mem_findings h.build hfinding
    rw [Finding.relocated, hlocated, Option.map_some, hpaths file hfile, ← hlocated]

/-- A schema with a map field before the others, a field of a oneof that the message does not list,
and a file whose path does not survive a snapshot. -/
def atlas : SchemaTree :=
  ⟨[{ path := "maps:/:old/atlas.proto", package := ["geo"]
      messages :=
        [{ name := "Place"
           fields :=
             [⟨"names", 1, "map<string,string>", false, none⟩, ⟨"id", 2, "string", false, none⟩,
               ⟨"lat", 3, "double", false, some "position"⟩] }] }]⟩

/-- What comes back from its snapshot. -/
def atlasRelisted : SchemaTree :=
  ⟨[{ path := "maps/old/atlas.proto", package := ["geo"]
      messages :=
        [{ name := "Place"
           fields :=
             [⟨"id", 2, "string", false, none⟩, ⟨"lat", 3, "double", false, some "position"⟩,
               ⟨"names", 1, "map<string, string>", false, none⟩]
           oneofs := [⟨"position", ["lat"]⟩] }] }]⟩

/-- A schema that is compatible with neither of them, in either direction. -/
def gazetteer : SchemaTree :=
  ⟨[{ path := "gazetteer.proto", package := ["geo"]
      messages :=
        [{ name := "Place"
           fields := [⟨"id", 2, "string", false, none⟩, ⟨"id", 1, "string", false, none⟩]
           reserved := ⟨[⟨3, 3⟩, ⟨1, 3⟩], ["lat", "names"]⟩ }] }]⟩

/-- The schema and what comes back from its snapshot get the same verdicts. -/
theorem check_snapshot_atlas :
    ∃ index own, Validation.validate atlas = .ok () ∧ TypeIndex.build gazetteer = .ok index ∧
      TypeIndex.build atlas = .ok own ∧ (LockFile.ofTree atlas).toTree = .ok atlasRelisted ∧
      (findings index own).map (·.kind) = [.tagConflict, .reservedTagReuse, .reservedNameReuse,
        .reservedTagReuse, .reservedNameReuse] ∧
      (findings own index).map (·.kind) = [.tagConflict] ∧
      ∃ result, (LockFile.ofTree atlas).toTree = .ok result ∧ ∀ policy,
        (∃ verdict, check policy gazetteer atlas = .ok verdict ∧
          check policy gazetteer result = .ok verdict) ∧
        ∃ before after, check policy atlas gazetteer = .ok before ∧
          check policy result gazetteer = .ok after ∧
          after = before.map
            (Finding.relocated fun path => Protopath.normalize (Protopath.ofPath path)) ∧
          ((∀ file ∈ atlas.files, Protopath.normalize (Protopath.ofPath file.path) = file.path) →
            after = before) :=
  ⟨_, _, rfl, rfl, rfl, rfl, rfl, rfl, check_snapshot rfl rfl⟩

end SchemaGate
