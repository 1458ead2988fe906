import SchemaGate.Schema.Path

/-!
# Induction over nested messages

A property of messages that passes from the messages nested in a message to that message holds of
every message. `nested_induction` is this principle, and `declarations_eq` reads the walk through a
message in the form in which the principle is applied.
-/

namespace SchemaGate

namespace MessageType

/-- A property that every message has if all messages nested in it have it holds of all messages. -/
@[elab_as_elim]
theorem nested_induction {motive : MessageType → Prop}
    (step : ∀ message, (∀ nested ∈ message.messages, motive nested) → motive message)
    (message : MessageType) : motive message :=
  step message fun nested _ => nested_induction step nested
termination_by message
decreasing_by
  rename_i hnested
  have hlt := List.sizeOf_lt_of_mem hnested
  cases message
  simp only [mk.sizeOf_spec] at hlt ⊢
  omega

/-- The declarations of a message are those of its nested messages, those of its enums and its
own. -/
theorem declarations_eq (file scope : String) (message : MessageType) :
    message.declarations file scope =
      message.messages.flatMap (declarations file (qualify scope message.name)) ++
        EnumType.declarationsOfAll file (qualify scope message.name) message.enums ++
        [⟨qualify scope message.name, .message message, file⟩] := by
  obtain ⟨name, fields, oneofs, messages, enums, reserved⟩ := message
  rw [declarations, declarationsOfAll_eq_flatMap]

/-- Whatever a message declares is in the file of the message. -/
theorem file_eq_of_mem_declarations {file scope : String} {message : MessageType}
    {declaration : Declaration} (h : declaration ∈ message.declarations file scope) :
    declaration.file = file := by
  induction message using nested_induction generalizing scope with
  | step message ih =>
      rw [declarations_eq, List.mem_append, List.mem_append] at h
      obtain (hnested | henum) | hown := h
      · obtain ⟨nested, hmem, hdeclared⟩ := List.mem_flatMap.1 hnested
        exact ih nested hmem hdeclared
      · obtain ⟨enumType, -, rfl⟩ := List.mem_map.1 henum
        rfl
      · rw [List.mem_singleton.1 hown]

end MessageType

/-- Whatever a file declares is in that file. -/
theorem SchemaFile.file_eq_of_mem_declarations {file : SchemaFile} {declaration : Declaration}
    (h : declaration ∈ file.declarations) : declaration.file = file.path := by
  rw [declarations, MessageType.declarationsOfAll_eq_flatMap] at h
  obtain hmessage | henum := List.mem_append.1 h
  · obtain ⟨message, -, hdeclared⟩ := List.mem_flatMap.1 hmessage
    exact MessageType.file_eq_of_mem_declarations hdeclared
  · obtain ⟨enumType, -, rfl⟩ := List.mem_map.1 henum
    rfl

end SchemaGate
