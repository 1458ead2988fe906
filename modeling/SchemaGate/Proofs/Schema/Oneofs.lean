import Mathlib.Data.List.Induction
import Mathlib.Data.List.Nodup
import SchemaGate.Proofs.Schema.Nesting

/-!
# The oneofs of fields

Readers build the oneofs of a message while they add its fields. The result depends on the fields
alone: one group for every name of a oneof, in the order in which the names first occur, with the
fields that give the name. The main statement is `oneofs_addFields`; `Grouped` says that oneofs are
what readers make of them.
-/

namespace SchemaGate

namespace OneofGroup

/-- The names of the fields in a oneof. -/
def membersOf (fields : List Field) (oneof : String) : List String :=
  (fields.filter fun field => field.oneof = some oneof).map (·.name)

/-- The names of oneofs in the order in which fields first give them. -/
def namesOf (fields : List Field) : List String :=
  (fields.filterMap (·.oneof)).eraseDups

/-- The grouping of fields by their oneofs. -/
def grouping (fields : List Field) : List OneofGroup :=
  (namesOf fields).map fun oneof => ⟨oneof, membersOf fields oneof⟩

/-- One more name is listed if it is new. -/
theorem eraseDups_append_singleton (names : List String) (name : String) :
    (names ++ [name]).eraseDups = names.eraseDups ++ if name ∈ names then [] else [name] := by
  rw [List.eraseDups_append]
  by_cases h : name ∈ names <;> simp [List.removeAll, h, List.eraseDups_cons]

/-- No name is listed twice. -/
theorem nodup_eraseDups (names : List String) : names.eraseDups.Nodup := by
  induction names using List.reverseRecOn with
  | nil => exact List.nodup_nil
  | append_singleton names name ih =>
      rw [eraseDups_append_singleton]
      split
      · rwa [List.append_nil]
      · rename_i hname
        rw [← List.concat_eq_append]
        exact ih.concat fun h => hname (List.mem_eraseDups.1 h)

/-- The names of oneofs are listed once. -/
theorem nodup_namesOf (fields : List Field) : (namesOf fields).Nodup :=
  nodup_eraseDups _

/-- A field without a oneof names none. -/
theorem namesOf_append_of_none {fields : List Field} {field : Field} (h : field.oneof = none) :
    namesOf (fields ++ [field]) = namesOf fields := by
  rw [namesOf, List.filterMap_append, List.filterMap_cons_none h, List.filterMap_nil,
    List.append_nil, namesOf]

/-- A field that names a oneof lists its name last, if it is new. -/
theorem namesOf_append_of_some {fields : List Field} {field : Field} {oneof : String}
    (h : field.oneof = some oneof) :
    namesOf (fields ++ [field]) =
      namesOf fields ++ if oneof ∈ namesOf fields then [] else [oneof] := by
  rw [namesOf, List.filterMap_append, List.filterMap_cons_some h, List.filterMap_nil,
    eraseDups_append_singleton, namesOf]
  simp only [List.mem_eraseDups]

/-- The names of oneofs are those that some field gives. -/
theorem mem_namesOf_iff {fields : List Field} {oneof : String} :
    oneof ∈ namesOf fields ↔ ∃ field ∈ fields, field.oneof = some oneof := by
  rw [namesOf, List.mem_eraseDups, List.mem_filterMap]

/-- The groups of fields have the names of oneofs that some field gives. -/
theorem exists_mem_grouping_iff {fields : List Field} {name : String} :
    (∃ group ∈ grouping fields, group.name = name) ↔ ∃ field ∈ fields, field.oneof = some name := by
  simp [grouping, mem_namesOf_iff]

/-- A field that joins a oneof becomes the last member of its group, which is made if there is
none. -/
theorem register_map {names : List String} (hnodup : names.Nodup) (members : String → List String)
    (oneof field : String) :
    register oneof field (names.map fun name => ⟨name, members name⟩) =
      (names.map fun name => ⟨name, members name ++ if name = oneof then [field] else []⟩) ++
        if oneof ∈ names then [] else [⟨oneof, [field]⟩] := by
  induction names with
  | nil => rfl
  | cons name names ih =>
      obtain ⟨hname, hnodup⟩ := List.nodup_cons.1 hnodup
      rw [List.map_cons, register]
      by_cases h : name = oneof
      · subst h
        -- The other groups have other names.
        have hothers : names.map (fun other => OneofGroup.mk other (members other)) =
            names.map fun other =>
              ⟨other, members other ++ if other = name then [field] else []⟩ := by
          refine List.map_congr_left fun other hother => ?_
          have hne : other ≠ name := fun heq => hname (heq ▸ hother)
          rw [if_neg hne, List.append_nil]
        rw [if_pos rfl, hothers, List.map_cons, if_pos rfl, if_pos List.mem_cons_self,
          List.append_nil]
      · rw [if_neg h, ih hnodup, List.map_cons, if_neg h, List.append_nil, List.cons_append]
        simp [Ne.symm h]

/-- One more field joins the group it names and changes no other group. -/
theorem grouping_append_singleton (fields : List Field) (field : Field) :
    grouping (fields ++ [field]) =
      match field.oneof with
      | some oneof => register oneof field.name (grouping fields)
      | none => grouping fields := by
  have hmembers : ∀ name, membersOf (fields ++ [field]) name =
      membersOf fields name ++ if field.oneof = some name then [field.name] else [] := by
    intro name
    rw [membersOf, List.filter_append, List.map_append, ← membersOf]
    by_cases h : field.oneof = some name <;> simp [h]
  cases honeof : field.oneof with
  | none => simp [grouping, namesOf_append_of_none honeof, hmembers, honeof]
  | some oneof =>
      have hnew : oneof ∉ namesOf fields → membersOf fields oneof = [] := by
        intro hnone
        rw [mem_namesOf_iff] at hnone
        rw [membersOf, List.map_eq_nil_iff, List.filter_eq_nil_iff]
        exact fun other hother hsame => hnone ⟨other, hother, of_decide_eq_true hsame⟩
      dsimp only
      rw [grouping, namesOf_append_of_some honeof, List.map_append, grouping,
        register_map (nodup_namesOf fields)]
      simp only [hmembers, honeof, Option.some_inj, eq_comm (a := oneof)]
      split
      · rfl
      · rename_i hnone
        simp [hnew hnone]

end OneofGroup

namespace MessageType

/-- If the oneofs of a message are the grouping of its fields, they still are after more fields have
been added. -/
theorem oneofs_addFields {message : MessageType}
    (h : message.oneofs = OneofGroup.grouping message.fields) (fields : List Field) :
    (message.addFields fields).oneofs = OneofGroup.grouping (message.fields ++ fields) := by
  unfold addFields
  induction fields generalizing message with
  | nil => rw [List.append_nil]; exact h
  | cons field fields ih =>
      have hadded : (message.addField field).oneofs =
          OneofGroup.grouping (message.addField field).fields := by
        rw [oneofs_addField, fields_addField]
        cases honeof : field.oneof <;>
          simp only [OneofGroup.grouping_append_singleton, h, honeof]
      rw [List.foldl_cons, ih hadded, fields_addField, List.append_assoc, List.singleton_append]

/-- Adding fields changes nothing but fields and oneofs. -/
theorem addFields_frame (message : MessageType) (fields : List Field) :
    (message.addFields fields).name = message.name ∧
      (message.addFields fields).messages = message.messages ∧
      (message.addFields fields).enums = message.enums ∧
      (message.addFields fields).reserved = message.reserved := by
  unfold addFields
  induction fields generalizing message with
  | nil => exact ⟨rfl, rfl, rfl, rfl⟩
  | cons field fields ih => exact ih (message.addField field)

/-- A message without fields to which fields are added has these fields and their oneofs. -/
theorem addFields_eq {message : MessageType} (hfields : message.fields = [])
    (honeofs : message.oneofs = []) (fields : List Field) :
    message.addFields fields = { message with fields, oneofs := OneofGroup.grouping fields } := by
  have hgrouping : message.oneofs = OneofGroup.grouping message.fields := by
    rw [honeofs, hfields]
    rfl
  have hadded := fields_addFields message fields
  have honeofs := oneofs_addFields hgrouping fields
  obtain ⟨hname, hmessages, henums, hreserved⟩ := addFields_frame message fields
  rw [hfields, List.nil_append] at hadded honeofs
  generalize message.addFields fields = result at hadded honeofs hname hmessages henums hreserved ⊢
  obtain ⟨name, added, oneofs, messages, enums, reserved⟩ := result
  dsimp only at hadded honeofs hname hmessages henums hreserved
  rw [hname, hadded, honeofs, hmessages, henums, hreserved]

/-- The oneofs of a message are the grouping of its fields, at every depth. -/
inductive Grouped : MessageType → Prop where
  | intro {message : MessageType} (oneofs : message.oneofs = OneofGroup.grouping message.fields)
      (messages : ∀ nested ∈ message.messages, nested.Grouped) : message.Grouped

/-- A message to which fields are added is grouped if it had none and what is inside it is
grouped. -/
theorem grouped_addFields {message : MessageType} (hfields : message.fields = [])
    (honeofs : message.oneofs = []) (hnested : ∀ nested ∈ message.messages, nested.Grouped)
    (fields : List Field) : (message.addFields fields).Grouped := by
  rw [addFields_eq hfields honeofs]
  exact .intro rfl hnested

/-- Every message that a grouped message declares has the oneofs of its fields. -/
theorem Grouped.oneofs_eq {message : MessageType} (h : message.Grouped) {file scope : String} :
    ∀ declaration ∈ message.declarations file scope, ∀ inner,
      declaration.definition = .message inner →
        inner.oneofs = OneofGroup.grouping inner.fields := by
  induction message using nested_induction generalizing scope with
  | step message ih =>
      obtain ⟨honeofs, hmessages⟩ := h
      rw [declarations_eq]
      intro declaration hdeclared inner hinner
      rcases List.mem_append.1 hdeclared with hinside | hlast
      · rcases List.mem_append.1 hinside with hnested | henum
        · obtain ⟨nested, hmem, hdeclared⟩ := List.mem_flatMap.1 hnested
          exact ih nested hmem (hmessages nested hmem) declaration hdeclared inner hinner
        · obtain ⟨enumType, -, rfl⟩ := List.mem_map.1 henum
          cases hinner
      · rw [List.mem_singleton.1 hlast] at hinner
        cases hinner
        exact honeofs

end MessageType

/-- All messages of a schema are grouped. -/
def SchemaTree.Grouped (tree : SchemaTree) : Prop :=
  ∀ file ∈ tree.files, ∀ message ∈ file.messages, message.Grouped

/-- Every message that a grouped schema declares has the oneofs of its fields. -/
theorem SchemaTree.Grouped.oneofs_eq {tree : SchemaTree} (h : tree.Grouped)
    {declaration : Declaration} (hdeclared : declaration ∈ tree.declarations)
    {message : MessageType} (hmessage : declaration.definition = .message message) :
    message.oneofs = OneofGroup.grouping message.fields := by
  obtain ⟨file, hfile, hinFile⟩ := List.mem_flatMap.1 hdeclared
  rw [SchemaFile.declarations, MessageType.declarationsOfAll_eq_flatMap] at hinFile
  rcases List.mem_append.1 hinFile with hinMessage | henum
  · obtain ⟨outer, houter, hdeclared⟩ := List.mem_flatMap.1 hinMessage
    exact (h file hfile outer houter).oneofs_eq declaration hdeclared message hmessage
  · obtain ⟨enumType, -, rfl⟩ := List.mem_map.1 henum
    cases hmessage

end SchemaGate
