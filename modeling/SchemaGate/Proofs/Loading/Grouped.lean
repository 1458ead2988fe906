import SchemaGate.Loading
import SchemaGate.Proofs.Lock.Snapshot

/-!
# The oneofs of schemas that are read

Both readers start a message without fields and add its fields, so the oneofs of every message they
make are the grouping of its fields. The main statement is `grouped_treeOfBytes`.
-/

namespace SchemaGate

/-- Several messages of a descriptor set are read one by one. -/
theorem MessageDescriptor.toMessages_eq_mapM (messages : List MessageDescriptor) :
    MessageDescriptor.toMessages messages = messages.mapM MessageDescriptor.toMessage := by
  induction messages with
  | nil => rfl
  | cons message messages ih => rw [toMessages, ih, List.mapM_cons]

/-- A message that is made of a message of a lock file is grouped. -/
theorem LockMessage.grouped_toMessage : ∀ {message : LockMessage} {result : MessageType},
    message.toMessage = .ok result → result.Grouped
  | ⟨name, fields, maps, reservedIds, reservedNames, messages, enums⟩, result, h => by
      rw [toMessage, toMessages_eq_mapM] at h
      obtain ⟨plain, -, h⟩ := exists_of_bind_eq_ok h
      obtain ⟨mapped, -, h⟩ := exists_of_bind_eq_ok h
      obtain ⟨nested, hnested, h⟩ := exists_of_bind_eq_ok h
      cases h
      refine MessageType.grouped_addFields rfl rfl (fun inner hinner => ?_) _
      obtain ⟨source, hsource, hread⟩ := exists_of_mem_of_mapM_eq_ok hnested hinner
      exact grouped_toMessage hread
termination_by message => message
decreasing_by
  have hlt := List.sizeOf_lt_of_mem hsource
  simp only [mk.sizeOf_spec]
  omega

/-- A message that is made of a descriptor is grouped. -/
theorem MessageDescriptor.grouped_toMessage : ∀ {message : MessageDescriptor}
    {result : MessageType}, message.toMessage = .ok result → result.Grouped
  | ⟨name, fields, nested, enums, oneofs, reservedRanges, reservedNames⟩, result, h => by
      rw [toMessage, toMessages_eq_mapM] at h
      obtain ⟨fields, -, h⟩ := exists_of_bind_eq_ok h
      obtain ⟨messages, hmessages, h⟩ := exists_of_bind_eq_ok h
      cases h
      refine MessageType.grouped_addFields rfl rfl (fun inner hinner => ?_) _
      obtain ⟨source, hsource, hread⟩ := exists_of_mem_of_mapM_eq_ok hmessages hinner
      exact grouped_toMessage hread
termination_by message => message
decreasing_by
  have hlt := List.sizeOf_lt_of_mem hsource
  simp only [mk.sizeOf_spec]
  omega

/-- The schema of a lock file is grouped. -/
theorem LockFile.grouped_toTree {lock : LockFile} {tree : SchemaTree}
    (h : lock.toTree = .ok tree) : tree.Grouped := by
  obtain ⟨files, hfiles, h⟩ := exists_of_bind_eq_ok h
  cases h
  intro file hfile message hmessage
  obtain ⟨definition, -, hfile⟩ := exists_of_mem_of_mapM_eq_ok hfiles hfile
  obtain ⟨messages, hmessages, hfile⟩ := exists_of_bind_eq_ok hfile
  cases hfile
  rw [LockMessage.toMessages_eq_mapM] at hmessages
  obtain ⟨source, -, hread⟩ := exists_of_mem_of_mapM_eq_ok hmessages hmessage
  exact LockMessage.grouped_toMessage hread

/-- The schema of a descriptor set is grouped. -/
theorem DescriptorSet.grouped_toTree {set : DescriptorSet} {tree : SchemaTree}
    (h : set.toTree = .ok tree) : tree.Grouped := by
  obtain ⟨files, hfiles, h⟩ := exists_of_bind_eq_ok h
  cases h
  intro file hfile message hmessage
  obtain ⟨descriptor, -, hfile⟩ := exists_of_mem_of_mapM_eq_ok hfiles hfile
  obtain ⟨messages, hmessages, hfile⟩ := exists_of_bind_eq_ok hfile
  cases hfile
  rw [MessageDescriptor.toMessages_eq_mapM] at hmessages
  obtain ⟨source, -, hread⟩ := exists_of_mem_of_mapM_eq_ok hmessages hmessage
  exact MessageDescriptor.grouped_toMessage hread

/-- The schema of the bytes of a descriptor set is grouped. -/
theorem DescriptorSet.grouped_treeOfBytes {bytes : List UInt8} {tree : SchemaTree}
    (h : treeOfBytes bytes = .ok tree) : tree.Grouped := by
  unfold treeOfBytes at h
  split at h
  · exact grouped_toTree h
  · cases h

/-- A result is what it was before errors were turned into load errors. -/
theorem of_orLoadError_eq_ok {ε α : Type} {wrap : ε → LoadError} {result : Except ε α} {value : α}
    (h : orLoadError wrap result = .ok value) : result = .ok value := by
  cases result with
  | error fault => cases h
  | ok result =>
      cases h
      rfl

/-- The schema of bytes is grouped in either format. -/
theorem grouped_treeOfBytes {format : SchemaFormat} {bytes : List UInt8} {tree : SchemaTree}
    (h : treeOfBytes format bytes = .ok tree) : tree.Grouped := by
  unfold treeOfBytes at h
  split at h
  · obtain ⟨text, -, h⟩ := exists_of_bind_eq_ok h
    obtain ⟨lock, -, h⟩ := exists_of_bind_eq_ok h
    exact LockFile.grouped_toTree (of_orLoadError_eq_ok h)
  · exact DescriptorSet.grouped_treeOfBytes (of_orLoadError_eq_ok h)

end SchemaGate
