import Mathlib.Data.List.Forall2
import SchemaGate.Proofs.Schema.Edit
import SchemaGate.Proofs.Traversal
import SchemaGate.Proofs.TypeIndex.Build

/-!
# Members in another order

The fields of any messages and the constants of any enums of a schema can be listed in another
order, and everything else stays where it is. `SchemaTree.Reordered` relates the two schemas. The
main statements are `SchemaTree.Reordered.declarations`, which reads the relation type by type, and
`SchemaTree.reordered_reversedAt`, which says that one type may be turned around by itself.
-/

namespace SchemaGate

/-- The constants of an enum are listed in another order. -/
structure EnumType.Reordered (enumType other : EnumType) : Prop where
  name : other.name = enumType.name
  constants : enumType.constants.Perm other.constants
  allowAlias : other.allowAlias = enumType.allowAlias
  reserved : other.reserved = enumType.reserved

/-- The fields of a message are listed in another order, and so are the members of the types inside
it. -/
inductive MessageType.Reordered : MessageType → MessageType → Prop where
  | intro {message other : MessageType} (name : other.name = message.name)
      (fields : message.fields.Perm other.fields) (oneofs : other.oneofs = message.oneofs)
      (messages : List.Forall₂ MessageType.Reordered message.messages other.messages)
      (enums : List.Forall₂ EnumType.Reordered message.enums other.enums)
      (reserved : other.reserved = message.reserved) :
      MessageType.Reordered message other

/-- The members of the types of a file are listed in another order. -/
structure SchemaFile.Reordered (file other : SchemaFile) : Prop where
  path : other.path = file.path
  package : other.package = file.package
  messages : List.Forall₂ MessageType.Reordered file.messages other.messages
  enums : List.Forall₂ EnumType.Reordered file.enums other.enums

/-- The members of the types of a schema are listed in another order. -/
def SchemaTree.Reordered (tree other : SchemaTree) : Prop :=
  List.Forall₂ SchemaFile.Reordered tree.files other.files

/-- The members of a type, and of the types inside it, are listed in another order. -/
inductive TypeDef.Reordered : TypeDef → TypeDef → Prop where
  | message {definition other : MessageType} (h : definition.Reordered other) :
      TypeDef.Reordered (.message definition) (.message other)
  | enum {definition other : EnumType} (h : definition.Reordered other) :
      TypeDef.Reordered (.enum definition) (.enum other)

/-- One declaration is the other with the members of the type in another order. -/
structure Declaration.Reordered (declaration other : Declaration) : Prop where
  path : other.path = declaration.path
  definition : declaration.definition.Reordered other.definition
  file : other.file = declaration.file

section Reflexivity

/-- An enum is one in some order of its constants. -/
theorem EnumType.Reordered.refl (enumType : EnumType) : enumType.Reordered enumType :=
  ⟨rfl, .refl _, rfl, rfl⟩

/-- A message is one in some order of its fields. -/
theorem MessageType.Reordered.refl (message : MessageType) : message.Reordered message := by
  induction message using nested_induction with
  | step message ih =>
      exact .intro rfl (.refl _) rfl (List.forall₂_same.2 ih)
        (List.forall₂_same.2 fun enumType _ => .refl enumType) rfl

/-- A schema is one in some order of the members of its types. -/
theorem SchemaTree.Reordered.refl (tree : SchemaTree) : tree.Reordered tree :=
  List.forall₂_same.2 fun _ _ => ⟨rfl, rfl, List.forall₂_same.2 fun message _ => .refl message,
    List.forall₂_same.2 fun enumType _ => .refl enumType⟩

end Reflexivity

section Declarations

/-- A walk over enums in another order of their constants meets the same enums, reordered. -/
theorem EnumType.reordered_declarationsOfAll {enums others : List EnumType}
    (h : List.Forall₂ EnumType.Reordered enums others) (file scope : String) :
    List.Forall₂ Declaration.Reordered (declarationsOfAll file scope enums)
      (declarationsOfAll file scope others) := by
  refine List.rel_map (fun enumType other hsame => ⟨?_, .enum hsame, rfl⟩) h
  exact congrArg (qualify scope) hsame.name

/-- A walk through a message in another order of its fields meets the same types, reordered. -/
theorem MessageType.Reordered.declarations {message other : MessageType}
    (h : message.Reordered other) (file scope : String) :
    List.Forall₂ Declaration.Reordered (message.declarations file scope)
      (other.declarations file scope) := by
  induction message using nested_induction generalizing other scope with
  | step message ih =>
      have hown := h
      obtain ⟨hname, -, -, hmessages, henums, -⟩ := h
      rw [declarations_eq, declarations_eq, hname]
      refine List.rel_append (List.rel_append ?_ ?_) (.cons ⟨rfl, .message hown, rfl⟩ .nil)
      · -- The nested messages keep their names, so the types inside them keep their scopes.
        have hboth := (List.forall₂_and_left _ _).2 ⟨ih, hmessages⟩
        exact List.rel_flatMap hboth fun nested image hnested => hnested.1 hnested.2 _
      · exact EnumType.reordered_declarationsOfAll henums file _

/-- A walk over a file meets the same types, reordered. -/
theorem SchemaFile.Reordered.declarations {file other : SchemaFile} (h : file.Reordered other) :
    List.Forall₂ Declaration.Reordered file.declarations other.declarations := by
  have hpackage : other.packageName = file.packageName := congrArg (Text.join ".") h.package
  rw [SchemaFile.declarations, SchemaFile.declarations, h.path, hpackage,
    MessageType.declarationsOfAll_eq_flatMap, MessageType.declarationsOfAll_eq_flatMap]
  refine List.rel_append ?_ (EnumType.reordered_declarationsOfAll h.enums _ _)
  exact List.rel_flatMap h.messages fun message image hsame => hsame.declarations _ _

/-- The schemas declare the same types in the same places, reordered. -/
theorem SchemaTree.Reordered.declarations {tree other : SchemaTree} (h : tree.Reordered other) :
    List.Forall₂ Declaration.Reordered tree.declarations other.declarations :=
  List.rel_flatMap h fun _ _ hsame => hsame.declarations

end Declarations

section Index

variable {tree other : SchemaTree} {index : TypeIndex}

/-- With the members of its types in another order a schema has the same paths, so that it can be
indexed. -/
theorem SchemaTree.Reordered.exists_build (h : tree.Reordered other)
    (hbuild : TypeIndex.build tree = .ok index) : ∃ result, TypeIndex.build other = .ok result := by
  have hpaths : List.Forall₂ (· = ·) (tree.declarations.map (·.path))
      (other.declarations.map (·.path)) :=
    List.rel_map (fun _ _ hsame => hsame.path.symm) h.declarations
  rw [List.forall₂_eq_eq_eq] at hpaths
  exact TypeIndex.exists_build_of_nodup (hpaths ▸ TypeIndex.nodup_of_build hbuild)

/-- The index then holds the same paths, each with the type, reordered, and its file. -/
theorem SchemaTree.Reordered.find? {result : TypeIndex} (h : tree.Reordered other)
    (hbuild : TypeIndex.build tree = .ok index) (hother : TypeIndex.build other = .ok result)
    (path : String) :
    index.find? path = none ∧ result.find? path = none ∨
      ∃ entry found, index.find? path = some entry ∧ result.find? path = some found ∧
        entry.definition.Reordered found.definition ∧ found.file = entry.file := by
  cases hentry : index.find? path with
  | none =>
      refine .inl ⟨rfl, (TypeIndex.find?_eq_none_iff_of_build hother).2 fun moved hmoved => ?_⟩
      obtain ⟨declaration, hdeclared, hsame⟩ := exists_of_mem_of_forall₂ h.declarations hmoved
      rw [hsame.path]
      exact (TypeIndex.find?_eq_none_iff_of_build hbuild).1 hentry declaration hdeclared
  | some entry =>
      have hdeclared := (TypeIndex.find?_iff_of_build hbuild).1 hentry
      obtain ⟨⟨own, definition, file⟩, hmoved, hpath, hdefinition, hfile⟩ :=
        exists_of_mem_of_forall₂ h.declarations.flip hdeclared
      obtain rfl : own = path := hpath
      exact .inr ⟨entry, ⟨definition, file⟩, rfl, (TypeIndex.find?_iff_of_build hother).2 hmoved,
        hdefinition, hfile⟩

end Index

section Reversal

/-- The contents of a type with its members from the last to the first. -/
def TypeDef.reversedBody : TypeDef → TypeBody
  | message definition => .message definition.fields.reverse definition.oneofs definition.reserved
  | enum definition => .enum definition.constants.reverse definition.reserved

variable {path scope : String} {definition : TypeDef}

/-- An enum is reordered if the type at a path is turned around, provided that it is that type if it
is at the path. -/
theorem EnumType.reordered_reversedAt {enumType : EnumType}
    (h : qualify scope enumType.name = path → .enum enumType = definition) :
    enumType.Reordered
      (enumType.rewriteAt path definition.reversedBody (qualify scope enumType.name)) := by
  unfold rewriteAt
  split
  · rename_i hpath
    rw [← h hpath]
    exact ⟨rfl, (List.reverse_perm _).symm, rfl, rfl⟩
  · exact .refl enumType

/-- So are the enums of a scope. -/
theorem EnumType.reordered_reversedAllAt (file : String) {enums : List EnumType}
    (h : ∀ declaration ∈ declarationsOfAll file scope enums, declaration.path = path →
      declaration.definition = definition) :
    List.Forall₂ EnumType.Reordered enums
      (rewriteAllAt path definition.reversedBody scope enums) := by
  refine List.forall₂_map_right_iff.2 (List.forall₂_same.2 fun enumType henum => ?_)
  exact reordered_reversedAt fun hpath => h _ (List.mem_map_of_mem henum) hpath

/-- The contents of a message are reordered, whether or not it is the type that is turned around. -/
theorem MessageType.perm_reversedAt {message : MessageType}
    (h : qualify scope message.name = path → .message message = definition) :
    ∃ other, message.rewriteAt path definition.reversedBody (qualify scope message.name) = other ∧
      message.fields.Perm other.fields ∧ other.oneofs = message.oneofs ∧
      other.reserved = message.reserved := by
  refine ⟨_, rfl, ?_⟩
  obtain ⟨name, fields, oneofs, messages, enums, reserved⟩ := message
  rw [rewriteAt]
  split
  · rename_i hpath
    rw [← h hpath]
    exact ⟨(List.reverse_perm _).symm, rfl, rfl⟩
  · exact ⟨.refl _, rfl, rfl⟩

/-- And so is a message with everything inside it. -/
theorem MessageType.reordered_reversedAt (file : String) {message : MessageType}
    (h : ∀ declaration ∈ message.declarations file scope, declaration.path = path →
      declaration.definition = definition) :
    message.Reordered
      (message.rewriteAt path definition.reversedBody (qualify scope message.name)) := by
  induction message using nested_induction generalizing scope with
  | step message ih =>
      rw [declarations_eq, List.forall_mem_append, List.forall_mem_append, List.forall_mem_flatMap,
        List.forall_mem_singleton] at h
      obtain ⟨⟨hnested, henums⟩, hown⟩ := h
      obtain ⟨hname, hmessages', henums'⟩ := @rewriteAt_frame path (qualify scope message.name)
        definition.reversedBody message
      obtain ⟨other, rfl, hfields, honeofs, hreserved⟩ := perm_reversedAt hown
      refine .intro hname hfields honeofs ?_ ?_ hreserved
      · rw [hmessages', rewriteAllAt_eq_map]
        refine List.forall₂_map_right_iff.2 (List.forall₂_same.2 fun nested hmem => ?_)
        exact ih nested hmem (hnested nested hmem)
      · rw [henums']
        exact EnumType.reordered_reversedAllAt file henums

/-- The schema with the members of one type turned around is one with members in another order. -/
theorem SchemaTree.reordered_reversedAt {tree : SchemaTree} {index : TypeIndex}
    (hbuild : TypeIndex.build tree = .ok index) {declaration : Declaration}
    (hdeclared : declaration ∈ tree.declarations) :
    tree.Reordered (tree.rewriteAt declaration.path declaration.definition.reversedBody) := by
  -- No other type is at the path.
  have honly : ∀ other ∈ tree.declarations, other.path = declaration.path →
      other.definition = declaration.definition := fun other hother hpath =>
    congrArg (·.definition) (TypeIndex.declaration_eq_of_build hbuild hother hdeclared hpath)
  rw [declarations, List.forall_mem_flatMap] at honly
  refine List.forall₂_map_right_iff.2 (List.forall₂_same.2 fun file hfile => ?_)
  have h := honly file hfile
  rw [SchemaFile.declarations, MessageType.declarationsOfAll_eq_flatMap, List.forall_mem_append,
    List.forall_mem_flatMap] at h
  refine ⟨rfl, rfl, ?_, EnumType.reordered_reversedAllAt file.path h.2⟩
  rw [SchemaFile.rewriteAt, MessageType.rewriteAllAt_eq_map]
  refine List.forall₂_map_right_iff.2 (List.forall₂_same.2 fun message hmem => ?_)
  exact MessageType.reordered_reversedAt file.path (h.1 message hmem)

end Reversal

end SchemaGate
