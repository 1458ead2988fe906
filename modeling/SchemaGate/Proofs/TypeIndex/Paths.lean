import Mathlib.Data.List.Nodup
import Mathlib.Data.List.Perm.Basic
import SchemaGate.Proofs.Text.Cutting
import SchemaGate.Proofs.TypeIndex.Build
import SchemaGate.TypeIndex.Reference

/-!
# What references depend on

The paths of an index and the kinds of the types under them are those of the declarations, so
schemas with the same paths and kinds have indexes with the same. References depend on the paths
alone: `isResolvable_congr`. The main statement is `mem_of_resolve?`: a reference that resolves is
written with the characters of paths and names of scalar types.
-/

namespace SchemaGate.TypeIndex

/-- The paths of an index in order, each with the kind of its type. -/
def kinds (index : TypeIndex) : List (String × String) :=
  index.entries.map fun entry => (entry.1, entry.2.definition.kindName)

section Build

variable {tree other : SchemaTree} {index result : TypeIndex}

/-- The kinds under the paths are those of the declarations. -/
theorem mem_kinds_iff_of_build (h : build tree = .ok index) {path kind : String} :
    (path, kind) ∈ index.kinds ↔
      (path, kind) ∈ tree.declarations.map fun declaration =>
        (declaration.path, declaration.definition.kindName) := by
  simp only [kinds, List.mem_map, Prod.mk.injEq, Prod.exists]
  constructor
  · rintro ⟨_, entry, hentry, rfl, rfl⟩
    exact ⟨_, (find?_iff_of_build h).1 (NameMap.mem_entries_iff.1 hentry), rfl, rfl⟩
  · rintro ⟨⟨path, definition, file⟩, hdeclared, rfl, rfl⟩
    have hfound : index.find? path = some ⟨definition, file⟩ :=
      (find?_iff_of_build h).2 hdeclared
    exact ⟨path, ⟨definition, file⟩, NameMap.mem_entries_iff.2 hfound, rfl, rfl⟩

/-- Kinds come in strictly increasing order of path. -/
theorem pairwise_kinds (index : TypeIndex) : index.kinds.Pairwise fun a b => a.1 < b.1 :=
  List.pairwise_map.2 index.types.ordered

/-- Schemas that declare the same kinds under the same paths have indexes with the same kinds. -/
theorem kinds_eq_of_build (h : build tree = .ok index) (hother : build other = .ok result)
    (hsame : other.declarations.map (fun declaration =>
        (declaration.path, declaration.definition.kindName)) =
      tree.declarations.map fun declaration =>
        (declaration.path, declaration.definition.kindName)) :
    result.kinds = index.kinds := by
  refine NameMap.eq_of_ordered (pairwise_kinds result) (pairwise_kinds index) ?_
  rintro ⟨path, kind⟩
  rw [mem_kinds_iff_of_build h, mem_kinds_iff_of_build hother, hsame]

/-- The paths are what the kinds stand under. -/
theorem paths_eq_map_kinds (index : TypeIndex) : index.paths = index.kinds.map (·.1) := by
  rw [kinds, List.map_map]
  rfl

end Build

section Congruence

variable {index other : TypeIndex}

/-- An index contains its paths. -/
theorem contains_iff_mem_paths {path : String} :
    index.contains path = true ↔ path ∈ index.paths := by
  rw [contains_eq_isSome, Option.isSome_iff_exists, paths, NameMap.names, List.mem_map]
  constructor
  · rintro ⟨entry, hentry⟩
    exact ⟨(path, entry), NameMap.mem_entries_iff.2 hentry, rfl⟩
  · rintro ⟨⟨path, entry⟩, hentry, rfl⟩
    exact ⟨entry, NameMap.mem_entries_iff.1 hentry⟩

/-- Indexes with the same paths resolve the same references from the same scopes. -/
theorem isResolvable_congr (h : other.paths = index.paths) (reference scope : String) :
    other.isResolvable reference scope = index.isResolvable reference scope := by
  have hcontains : other.contains = index.contains := by
    funext path
    rw [Bool.eq_iff_iff, contains_iff_mem_paths, contains_iff_mem_paths, h]
  have hdeclares : other.declares = index.declares := by
    funext path
    have hnames : other.types.names = index.types.names := h
    rw [declares, declares, hcontains, NameMap.firstFrom?, NameMap.firstFrom?, hnames]
  have hresolve (reference : String) :
      other.resolve? reference scope = index.resolve? reference scope := by
    simp only [resolve?, known?, anchor?, hcontains, hdeclares]
  simp only [isResolvable, hresolve]

end Congruence

section Characters

variable {index : TypeIndex} {scope : String}

/-- The characters of a name are in each of its qualified forms. -/
theorem mem_qualify {c : Char} {name : String} (h : c ∈ name.toList) (scope : String) :
    c ∈ (qualify scope name).toList := by
  unfold qualify
  split
  · exact h
  · simp [h]

/-- A path that is known is a path of the index. -/
theorem mem_paths_of_known? {path : String} (h : (index.known? path).isSome = true) :
    path ∈ index.paths := by
  unfold known? at h
  split at h
  · rename_i hcontains
    exact contains_iff_mem_paths.1 hcontains
  · cases h

/-- A reference that resolves is written, but for dots and outer blanks, with the characters of a
path or of the name of a scalar type. -/
theorem mem_of_resolve? {reference : String} (h : (index.resolve? reference scope).isSome = true)
    {c : Char} (hc : c ∈ Text.trim reference.toList) :
    c = '.' ∨ ∃ name, (name ∈ scalarTypes ∨ name ∈ index.paths) ∧ c ∈ name.toList := by
  unfold resolve? at h
  dsimp only at h
  split at h
  · rename_i hscalar
    exact .inr ⟨_, .inl hscalar, by rwa [String.toList_ofList]⟩
  split at h
  · rename_i absolute habsolute
    rw [Text.dropPrefix?_eq_some_iff] at habsolute
    rw [habsolute] at hc
    rcases List.mem_cons.1 hc with hdot | hc
    · exact .inl hdot
    · exact .inr ⟨_, .inr (mem_paths_of_known? h), by rwa [String.toList_ofList]⟩
  split at h
  · obtain ⟨path, hpath⟩ := Option.isSome_iff_exists.1 h
    have hmem := contains_iff_mem_paths.1 (List.find?_some hpath)
    obtain ⟨outer, -, rfl⟩ := List.mem_map.1 (List.mem_of_find?_eq_some hpath)
    exact .inr ⟨_, .inr hmem, mem_qualify (by rwa [String.toList_ofList]) _⟩
  · rename_i head rest hcut
    obtain ⟨hwritten, -⟩ := Text.cutFirst?_eq_some_iff.1 hcut
    obtain ⟨path, hpath⟩ := Option.isSome_iff_exists.1 h
    obtain ⟨anchor, hanchor, hknown⟩ := Option.bind_eq_some_iff.1 hpath
    have hmem := mem_paths_of_known? (Option.isSome_of_mem hknown)
    obtain ⟨outer, -, rfl⟩ := List.mem_map.1 (List.mem_of_find?_eq_some hanchor)
    rw [hwritten] at hc
    rcases List.mem_append.1 hc with hhead | hrest
    · refine .inr ⟨_, .inr hmem, ?_⟩
      have hqualified : c ∈ (qualify outer (String.ofList head)).toList :=
        mem_qualify (by rwa [String.toList_ofList]) outer
      simp [hqualified]
    · rcases List.mem_cons.1 hrest with hdot | hrest
      · exact .inl hdot
      · refine .inr ⟨_, .inr hmem, ?_⟩
        simp [hrest]

/-- No path of an index is written with brackets. -/
def BracketFree (index : TypeIndex) : Prop :=
  ∀ path ∈ index.paths, '<' ∉ path.toList ∧ '>' ∉ path.toList

/-- A reference that resolves is not written with brackets. -/
theorem BracketFree.not_mem {reference : String} (hfree : BracketFree index)
    (h : (index.resolve? reference scope).isSome = true) :
    '<' ∉ Text.trim reference.toList ∧ '>' ∉ Text.trim reference.toList := by
  have hscalar : ∀ name ∈ scalarTypes, '<' ∉ name.toList ∧ '>' ∉ name.toList := by decide
  have hname : ∀ name, name ∈ scalarTypes ∨ name ∈ index.paths →
      '<' ∉ name.toList ∧ '>' ∉ name.toList := fun name hname =>
    hname.elim (hscalar name) (hfree name)
  constructor
  · intro hmem
    rcases mem_of_resolve? h hmem with hdot | ⟨name, hknown, hmem⟩
    · cases hdot
    · exact (hname name hknown).1 hmem
  · intro hmem
    rcases mem_of_resolve? h hmem with hdot | ⟨name, hknown, hmem⟩
    · cases hdot
    · exact (hname name hknown).2 hmem

end Characters

end SchemaGate.TypeIndex
