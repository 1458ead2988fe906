import SchemaGate.Proofs.Schema.Place
import SchemaGate.Proofs.Text.ByteOrder
import SchemaGate.Proofs.Traversal
import SchemaGate.Proofs.TypeIndex.Build

/-!
# The index and the walk

The index is built in one walk through the schema, which stops at the first path that it has met
before. The main statement is `build_exact`: a schema can be indexed exactly when the types at
different places have different paths, the index then holds the type at each place, and otherwise
the path that is named is the first that repeats an earlier one.
-/

namespace SchemaGate.TypeIndex

/-- A declaration cannot be added exactly when its path is there, and then this path is named. -/
theorem add_eq_error_iff {index : TypeIndex} {declaration : Declaration}
    {repetition : DuplicatePath} :
    index.add declaration = .error repetition ↔
      index.contains declaration.path = true ∧ repetition = ⟨declaration.path⟩ := by
  unfold add
  cases index.contains declaration.path <;> simp [eq_comm]

/-- The index of some declarations holds their paths. -/
theorem contains_addAll_iff {index : TypeIndex} {declarations : List Declaration}
    (h : addAll {} declarations = .ok index) {path : String} :
    index.contains path = true ↔ path ∈ declarations.map (·.path) := by
  rw [contains_eq_isSome, Option.isSome_iff_exists, List.mem_map]
  constructor
  · intro ⟨entry, hentry⟩
    rcases (find?_addAll h).1 hentry with hempty | hdeclared
    · cases hempty
    · exact ⟨_, hdeclared, rfl⟩
  · intro ⟨declaration, hdeclared, hpath⟩
    subst hpath
    exact ⟨⟨declaration.definition, declaration.file⟩, (find?_addAll h).2 (.inr hdeclared)⟩

/-- A schema cannot be indexed exactly when the walk through it meets a path twice, and the path
that is named is the first to be met again. -/
theorem build_eq_error_iff {tree : SchemaTree} {path : String} :
    build tree = .error ⟨path⟩ ↔ FirstRepeat (tree.declarations.map (·.path)) path := by
  rw [build, addAll, foldlM_eq_error_iff]
  constructor
  · intro ⟨earlier, declaration, later, index, hsplit, hindex, hadd⟩
    obtain ⟨hcontains, hpath⟩ := add_eq_error_iff.1 hadd
    cases hpath
    refine ⟨earlier.map (·.path), later.map (·.path), ?_, ?_, (nodup_of_addAll hindex).1⟩
    · rw [hsplit, List.map_append, List.map_cons]
    · exact (contains_addAll_iff hindex).1 hcontains
  · intro ⟨paths, rest, hsplit, hpath, hnodup⟩
    obtain ⟨earlier, others, hdeclarations, rfl, hothers⟩ := List.map_eq_append_iff.1 hsplit
    obtain ⟨declaration, later, rfl, rfl, -⟩ := List.map_eq_cons_iff.1 hothers
    obtain ⟨index, hindex⟩ : ∃ index, addAll {} earlier = .ok index :=
      exists_addAll hnodup fun _ _ => rfl
    refine ⟨earlier, declaration, later, index, hdeclarations, hindex, ?_⟩
    exact add_eq_error_iff.2 ⟨(contains_addAll_iff hindex).2 hpath, rfl⟩

/-- The index lists its types in the order of the bytes of their paths. -/
theorem pairwise_bytes (index : TypeIndex) :
    index.entries.Pairwise fun a b => Text.bytes a.1 < Text.bytes b.1 :=
  index.types.ordered.imp fun hlt => Text.lt_iff_bytes_lt.1 hlt

/-- A schema can be indexed exactly when no two places have types of the same path. The index then
lists the types of the schema with their definitions and files, finds under each path the type that
it lists there, and is in the order of the bytes of the paths. If the schema cannot be indexed, the
path that is named is that of the first place at which the path of an earlier place comes again. -/
theorem build_exact (tree : SchemaTree) :
    ((∃ index, build tree = .ok index) ↔
      ∀ position declaration other declaration', tree.Declares position declaration →
        tree.Declares other declaration' → declaration.path = declaration'.path →
        position = other) ∧
    (∀ index, build tree = .ok index →
      (∀ path entry, (path, entry) ∈ index.entries ↔
        ∃ position, tree.Declares position ⟨path, entry.definition, entry.file⟩) ∧
      (∀ path entry, index.find? path = some entry ↔ (path, entry) ∈ index.entries) ∧
      index.entries.Pairwise fun a b => Text.bytes a.1 < Text.bytes b.1) ∧
    ∀ path, build tree = .error ⟨path⟩ ↔
      ∃ position, InOrder.Repeats Position.Before tree.Declares (·.path) position path ∧
        ∀ earlier, earlier.Before position →
          ∀ other, ¬InOrder.Repeats Position.Before tree.Declares (·.path) earlier other := by
  have hwalk := tree.declarations_inOrder
  refine ⟨?_, ?_, ?_⟩
  · rw [← hwalk.nodup_map_iff]
    exact ⟨fun ⟨index, hindex⟩ => nodup_of_build hindex, exists_build_of_nodup⟩
  · intro index hindex
    have hlisted : ∀ path entry, (path, entry) ∈ index.entries ↔ index.find? path = some entry :=
      fun _ _ => NameMap.mem_entries_iff
    refine ⟨fun path entry => ?_, fun path entry => (hlisted path entry).symm,
      index.pairwise_bytes⟩
    rw [hlisted, find?_iff_of_build hindex, hwalk.mem_iff]
  · intro path
    rw [build_eq_error_iff, hwalk.firstRepeat_map_iff]

/-- A message inside another one. -/
def nestedAlone : SchemaTree :=
  ⟨[⟨"y.proto", ["a"], [{ name := "b", messages := [{ name := "c" }] }], []⟩]⟩

/-- The message and another one of the same path: where a package ends does not show in a path. -/
def nestedAndPackaged : SchemaTree :=
  ⟨⟨"x.proto", ["a", "b"], [{ name := "c" }], []⟩ :: nestedAlone.files⟩

/-- The message alone is indexed under its path, and the second one of this path is a repetition. -/
theorem build_exact_nested :
    (∃ index, build nestedAlone = .ok index ∧
      index.entries.map (·.1) = ["a.b", "a.b.c"] ∧
      (∃ position, nestedAlone.Declares position
        ⟨"a.b.c", .message { name := "c" }, "y.proto"⟩) ∧
      index.entries.Pairwise fun a b => Text.bytes a.1 < Text.bytes b.1) ∧
    build nestedAndPackaged = .error ⟨"a.b.c"⟩ ∧
    ∃ position, InOrder.Repeats Position.Before nestedAndPackaged.Declares (·.path) position
      "a.b.c" := by
  constructor
  · obtain ⟨hlisted, hfound, hordered⟩ := (build_exact nestedAlone).2.1 _ rfl
    have hentry := (hfound "a.b.c" ⟨.message { name := "c" }, "y.proto"⟩).1 rfl
    exact ⟨_, rfl, rfl, (hlisted _ _).1 hentry, hordered⟩
  · obtain ⟨position, hrepeats, -⟩ := ((build_exact nestedAndPackaged).2.2 "a.b.c").1 rfl
    exact ⟨rfl, position, hrepeats⟩

end SchemaGate.TypeIndex
