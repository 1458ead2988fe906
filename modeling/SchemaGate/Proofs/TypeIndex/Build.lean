import Mathlib.Data.List.Nodup
import SchemaGate.Proofs.NameMap
import SchemaGate.TypeIndex.Basic

/-!
# What an index holds

The index of a schema exists exactly when no two of its types share a path, and then it holds the
declarations of the schema and nothing else. The main statements are `find?_iff_of_build`,
`nodup_of_build` and `exists_build_of_nodup`.
-/

namespace SchemaGate.TypeIndex

/-- Adding declarations one after the other. -/
theorem addAll_cons (index : TypeIndex) (declaration : Declaration)
    (declarations : List Declaration) :
    index.addAll (declaration :: declarations) =
      (index.add declaration).bind fun next => next.addAll declarations := rfl

/-- An index holds a path exactly when it finds a type under it. -/
theorem contains_eq_isSome (index : TypeIndex) (path : String) :
    index.contains path = (index.find? path).isSome := rfl

/-- Once a list of declarations has been added, the first of them was new and the others have been
added to the index that holds it. -/
theorem addAll_cons_eq_ok {index result : TypeIndex} {declaration : Declaration}
    {declarations : List Declaration}
    (h : index.addAll (declaration :: declarations) = .ok result) :
    ∃ next : TypeIndex, next.addAll declarations = .ok result ∧
      index.find? declaration.path = none ∧
      ∀ path, next.find? path =
        if declaration.path = path then some ⟨declaration.definition, declaration.file⟩
        else index.find? path := by
  rw [addAll_cons] at h
  cases hadd : index.add declaration with
  | error repeated => simp [hadd, Except.bind] at h
  | ok next =>
      rw [hadd] at h
      obtain ⟨hnew, rfl⟩ := add_eq_ok_iff.1 hadd
      refine ⟨_, h, ?_, fun path => NameMap.find?_insert _ _ _ _⟩
      simpa [contains_eq_isSome] using hnew

/-- The paths of added declarations differ from each other and from those that were there. -/
theorem nodup_of_addAll {index result : TypeIndex} {declarations : List Declaration}
    (h : index.addAll declarations = .ok result) :
    (declarations.map (·.path)).Nodup ∧
      ∀ declaration ∈ declarations, index.find? declaration.path = none := by
  induction declarations generalizing index with
  | nil => simp
  | cons declaration declarations ih =>
      obtain ⟨next, hnext, hnew, hfind⟩ := addAll_cons_eq_ok h
      obtain ⟨hnodup, habsent⟩ := ih hnext
      -- The others are new to the index that holds the first, so they avoid its path as well.
      have hother : ∀ other ∈ declarations,
          declaration.path ≠ other.path ∧ index.find? other.path = none := by
        intro other hmem
        have := habsent other hmem
        rw [hfind] at this
        split at this <;> simp_all
      constructor
      · simp only [List.map_cons, List.nodup_cons, List.mem_map, not_exists, not_and]
        exact ⟨fun other hmem heq => (hother other hmem).1 heq.symm, hnodup⟩
      · intro other hmem
        rcases List.mem_cons.1 hmem with rfl | hmem
        · exact hnew
        · exact (hother other hmem).2

/-- Declarations whose paths differ from each other and from those that are there can be added. -/
theorem exists_addAll {index : TypeIndex} {declarations : List Declaration}
    (hnodup : (declarations.map (·.path)).Nodup)
    (hnew : ∀ declaration ∈ declarations, index.find? declaration.path = none) :
    ∃ result, index.addAll declarations = .ok result := by
  induction declarations generalizing index with
  | nil => exact ⟨index, rfl⟩
  | cons declaration declarations ih =>
      simp only [List.map_cons, List.nodup_cons, List.mem_map, not_exists, not_and] at hnodup
      have hadd : index.add declaration = .ok ⟨index.types.insert declaration.path
          ⟨declaration.definition, declaration.file⟩⟩ :=
        add_eq_ok_iff.2 ⟨by simp [contains_eq_isSome, hnew declaration], rfl⟩
      simp only [addAll_cons, hadd, Except.bind]
      refine ih hnodup.2 ?_
      intro other hmem
      have hfind := NameMap.find?_insert index.types declaration.path other.path
        ⟨declaration.definition, declaration.file⟩
      rw [if_neg fun heq => hnodup.1 other hmem heq.symm] at hfind
      exact hfind.trans (hnew other (List.mem_cons_of_mem _ hmem))

/-- After declarations have been added the index holds them and what it held before. -/
theorem find?_addAll {index result : TypeIndex} {declarations : List Declaration}
    (h : index.addAll declarations = .ok result) {path : String} {entry : TypeEntry} :
    result.find? path = some entry ↔
      index.find? path = some entry ∨ ⟨path, entry.definition, entry.file⟩ ∈ declarations := by
  induction declarations generalizing index with
  | nil =>
      cases h
      simp
  | cons declaration declarations ih =>
      obtain ⟨next, hnext, hnew, hfind⟩ := addAll_cons_eq_ok h
      rw [ih hnext, hfind, List.mem_cons, ← or_assoc]
      obtain ⟨own, definition, file⟩ := declaration
      obtain ⟨kept, source⟩ := entry
      -- Under the new path the earlier index held nothing; under others nothing has changed.
      by_cases hpath : own = path
      · subst hpath
        simp only [hnew, if_true, Option.some.injEq, reduceCtorEq, false_or]
        refine or_congr_left ?_
        simp [eq_comm]
      · have hne : path ≠ own := fun heq => hpath heq.symm
        simp [hpath, hne]

/-- The index of a schema finds exactly what the schema declares. -/
theorem find?_iff_of_build {tree : SchemaTree} {index : TypeIndex} (h : build tree = .ok index)
    {path : String} {entry : TypeEntry} :
    index.find? path = some entry ↔
      ⟨path, entry.definition, entry.file⟩ ∈ tree.declarations := by
  rw [find?_addAll h]
  simp [find?, NameMap.find?_empty]

/-- The index of a schema finds nothing under a path that the schema does not declare. -/
theorem find?_eq_none_iff_of_build {tree : SchemaTree} {index : TypeIndex}
    (h : build tree = .ok index) {path : String} :
    index.find? path = none ↔ ∀ declaration ∈ tree.declarations, declaration.path ≠ path := by
  rw [Option.eq_none_iff_forall_ne_some]
  constructor
  · rintro hnone ⟨path, definition, file⟩ hmem rfl
    exact hnone ⟨definition, file⟩ ((find?_iff_of_build h).2 hmem)
  · intro habsent entry hentry
    exact habsent _ ((find?_iff_of_build h).1 hentry) rfl

/-- In a schema that can be indexed no two types share a path. -/
theorem nodup_of_build {tree : SchemaTree} {index : TypeIndex} (h : build tree = .ok index) :
    (tree.declarations.map (·.path)).Nodup :=
  (nodup_of_addAll h).1

/-- A schema in which no two types share a path can be indexed. -/
theorem exists_build_of_nodup {tree : SchemaTree}
    (h : (tree.declarations.map (·.path)).Nodup) : ∃ index, build tree = .ok index :=
  exists_addAll h fun _ _ => rfl

/-- In a schema that can be indexed a declaration is determined by its path. -/
theorem declaration_eq_of_build {tree : SchemaTree} {index : TypeIndex}
    (h : build tree = .ok index) {declaration other : Declaration}
    (hdeclared : declaration ∈ tree.declarations) (hother : other ∈ tree.declarations)
    (hpath : declaration.path = other.path) : declaration = other :=
  List.inj_on_of_nodup_map (nodup_of_build h) hdeclared hother hpath

end SchemaGate.TypeIndex
