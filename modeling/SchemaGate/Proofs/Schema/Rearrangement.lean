import Mathlib.Data.List.Perm.Basic
import SchemaGate.Proofs.Schema.Nesting
import SchemaGate.Proofs.Traversal

/-!
# Rearranged schemas

A schema can be written down in many ways: files, types, members, reserved ranges and reserved names
can be listed in another order, types can move to another file of their package, fields can be
regrouped into other oneofs or get another type or label, and an enum can be marked to allow aliases
or not. `SchemaTree.Rearranged` relates two schemas of which one is the other written down
differently. The main statement is `declarations_perm_placed`, which lists the declarations of a
schema type by type instead of file by file.
-/

namespace SchemaGate

/-- The items of one list, taken in another order, are related one by one to those of another
list. -/
def Shuffled {α β : Type} (R : α → β → Prop) (items : List α) (others : List β) : Prop :=
  ∃ shuffled, items.Perm shuffled ∧ List.Forall₂ R shuffled others

namespace Shuffled

variable {α β : Type} {R : α → β → Prop} {items : List α} {others : List β}

/-- Every item of the first list is related to one of the second. -/
theorem exists_right (h : Shuffled R items others) {item : α} (hitem : item ∈ items) :
    ∃ other ∈ others, R item other := by
  obtain ⟨shuffled, hperm, hrelated⟩ := h
  exact exists_of_mem_of_forall₂ hrelated.flip (hperm.mem_iff.1 hitem)

/-- Every item of the second list is related to one of the first. -/
theorem exists_left (h : Shuffled R items others) {other : β} (hother : other ∈ others) :
    ∃ item ∈ items, R item other := by
  obtain ⟨shuffled, hperm, hrelated⟩ := h
  obtain ⟨item, hitem, hsame⟩ := exists_of_mem_of_forall₂ hrelated hother
  exact ⟨item, hperm.mem_iff.2 hitem, hsame⟩

end Shuffled

/-- Reserved ranges and reserved names are listed in another order. -/
structure Reservations.Rearranged (reserved other : Reservations) : Prop where
  ranges : reserved.ranges.Perm other.ranges
  names : reserved.names.Perm other.names

/-- The constants and reservations of an enum are listed in another order. It may be marked to allow
aliases or not. -/
structure EnumType.Rearranged (enumType other : EnumType) : Prop where
  name : other.name = enumType.name
  constants : enumType.constants.Perm other.constants
  reserved : enumType.reserved.Rearranged other.reserved

/-- What is inside a message is listed in another order, its fields have the same names and tags,
and the types inside it are rearranged in turn. -/
inductive MessageType.Rearranged : MessageType → MessageType → Prop where
  | intro {message other : MessageType} (name : other.name = message.name)
      (fields : (message.fields.map fun field => (field.name, field.tag)).Perm
        (other.fields.map fun field => (field.name, field.tag)))
      (shuffled : List MessageType) (perm : message.messages.Perm shuffled)
      (messages : List.Forall₂ MessageType.Rearranged shuffled other.messages)
      (enums : Shuffled EnumType.Rearranged message.enums other.enums)
      (reserved : message.reserved.Rearranged other.reserved) :
      MessageType.Rearranged message other

namespace SchemaTree

/-- The messages at the top of a schema, each with its file. -/
def placedMessages (tree : SchemaTree) : List (SchemaFile × MessageType) :=
  tree.files.flatMap fun file => file.messages.map fun message => (file, message)

/-- The enums at the top of a schema, each with its file. -/
def placedEnums (tree : SchemaTree) : List (SchemaFile × EnumType) :=
  tree.files.flatMap fun file => file.enums.map fun enumType => (file, enumType)

/-- The types at the top of a schema are listed in another order and rearranged, and each of them is
in some file of its package. -/
structure Rearranged (tree other : SchemaTree) : Prop where
  messages : Shuffled (fun placed moved => moved.1.packageName = placed.1.packageName ∧
    placed.2.Rearranged moved.2) tree.placedMessages other.placedMessages
  enums : Shuffled (fun placed moved => moved.1.packageName = placed.1.packageName ∧
    placed.2.Rearranged moved.2) tree.placedEnums other.placedEnums

/-- The declarations of a schema are those of its messages and those of its enums. -/
theorem declarations_perm_placed (tree : SchemaTree) :
    tree.declarations.Perm
      ((tree.placedMessages.flatMap fun placed =>
          placed.2.declarations placed.1.path placed.1.packageName) ++
        tree.placedEnums.flatMap fun placed =>
          EnumType.declarationsOfAll placed.1.path placed.1.packageName [placed.2]) := by
  have hmessages : (tree.placedMessages.flatMap fun placed =>
      placed.2.declarations placed.1.path placed.1.packageName) =
        tree.files.flatMap fun file =>
          MessageType.declarationsOfAll file.path file.packageName file.messages := by
    rw [placedMessages, List.flatMap_assoc]
    refine List.flatMap_congr fun file _ => ?_
    rw [List.flatMap_map, MessageType.declarationsOfAll_eq_flatMap]
  have henums : (tree.placedEnums.flatMap fun placed =>
      EnumType.declarationsOfAll placed.1.path placed.1.packageName [placed.2]) =
        tree.files.flatMap fun file =>
          EnumType.declarationsOfAll file.path file.packageName file.enums := by
    rw [placedEnums, List.flatMap_assoc]
    refine List.flatMap_congr fun file _ => ?_
    rw [List.flatMap_map, EnumType.declarationsOfAll, List.map_eq_flatMap]
    rfl
  rw [hmessages, henums]
  exact (List.flatMap_append_perm _ _ _).symm

end SchemaTree

end SchemaGate
