import SchemaGate.Proofs.InOrder
import SchemaGate.Proofs.Schema.Nesting

/-!
# The places of types

A type of a schema stands at a place: in a file, inside some messages, as a message or as an enum.
`Place.Before` and `Position.Before` order the places as the walk of the index meets them: the
messages of a scope before its enums, and what is inside a message before the message. The main
statement is `SchemaTree.declarations_inOrder`: the walk lists the type at each place, in this
order.
-/

namespace SchemaGate

/-- A place among the types of a scope. -/
inductive Place where
  /-- That of a message of the scope. -/
  | message (n : Nat)
  /-- That of an enum of the scope. -/
  | enum (n : Nat)
  /-- A place inside a message of the scope. -/
  | inside (n : Nat) (place : Place)
  deriving DecidableEq, Repr

/-- A place in a schema. -/
structure Position where
  file : Nat
  place : Place
  deriving DecidableEq, Repr

namespace Place

/-- One place of a scope comes before another: messages come in order and before the enums, and
places inside a message come before the message. -/
def Before : Place → Place → Prop
  | inside m place, inside n other => m < n ∨ m = n ∧ place.Before other
  | inside m _, message n => m ≤ n
  | message m, inside n _ => m < n
  | message m, message n => m < n
  | inside _ _, enum _ => True
  | message _, enum _ => True
  | enum m, enum n => m < n
  | enum _, inside _ _ => False
  | enum _, message _ => False

/-- Of two places not each comes before the other. -/
theorem Before.asymm {place other : Place} (h : place.Before other) : ¬other.Before place := by
  induction place generalizing other with
  | message m =>
      cases other with
      | message n => exact Nat.lt_asymm h
      | enum n => exact not_false
      | inside n other => exact Nat.not_le_of_lt h
  | enum m =>
      cases other with
      | message n => exact h.elim
      | enum n => exact Nat.lt_asymm h
      | inside n other => exact h.elim
  | inside m place ih =>
      cases other with
      | message n => exact Nat.not_lt_of_le h
      | enum n => exact not_false
      | inside n other =>
          rintro (hlt | ⟨rfl, hback⟩)
          · rcases h with hgt | ⟨rfl, -⟩
            · exact Nat.lt_asymm hlt hgt
            · exact Nat.lt_irrefl _ hlt
          · rcases h with hgt | ⟨-, hbefore⟩
            · exact Nat.lt_irrefl _ hgt
            · exact ih hbefore hback

instance : Std.Asymm Before := ⟨fun _ _ h => h.asymm⟩

end Place

/-- One place of a schema comes before another: in an earlier file, or earlier in its file. -/
def Position.Before (position other : Position) : Prop :=
  position.file < other.file ∨
    position.file = other.file ∧ position.place.Before other.place

/-- Of two places of a schema not each comes before the other. -/
theorem Position.Before.asymm {position other : Position} (h : position.Before other) :
    ¬other.Before position := by
  rintro (hlt | ⟨hfile, hback⟩)
  · rcases h with hgt | ⟨hfile, -⟩
    · exact Nat.lt_asymm hlt hgt
    · exact Nat.ne_of_gt hlt hfile
  · rcases h with hgt | ⟨-, hbefore⟩
    · exact Nat.ne_of_gt hgt hfile
    · exact hbefore.asymm hback

instance : Std.Asymm Position.Before := ⟨fun _ _ h => h.asymm⟩

/-- A type stands at a place among given messages and enums of a scope. Its path is that of the
scope with the names of the messages around it and its own. -/
inductive Stands (file : String) :
    String → List MessageType → List EnumType → Place → Declaration → Prop where
  | message {scope : String} {messages : List MessageType} {enums : List EnumType} {n : Nat}
      {message : MessageType} (h : messages[n]? = some message) :
      Stands file scope messages enums (.message n)
        ⟨qualify scope message.name, .message message, file⟩
  | enum {scope : String} {messages : List MessageType} {enums : List EnumType} {n : Nat}
      {enumType : EnumType} (h : enums[n]? = some enumType) :
      Stands file scope messages enums (.enum n)
        ⟨qualify scope enumType.name, .enum enumType, file⟩
  | inside {scope : String} {messages : List MessageType} {enums : List EnumType} {n : Nat}
      {message : MessageType} {place : Place} {declaration : Declaration}
      (h : messages[n]? = some message)
      (hinside : Stands file (qualify scope message.name) message.messages message.enums place
        declaration) :
      Stands file scope messages enums (.inside n place) declaration

/-- A type stands at a place of a schema. The outermost scope of a file is its package. -/
def SchemaTree.Declares (tree : SchemaTree) (position : Position) (declaration : Declaration) :
    Prop :=
  ∃ file, tree.files[position.file]? = some file ∧
    Stands file.path file.packageName file.messages file.enums position.place declaration

section Walk

variable {file scope : String}

/-- What the walk through a message of a scope lists: what is inside it and the message. -/
def FromMessage (file scope : String) (n : Nat) (message : MessageType) (place : Place)
    (declaration : Declaration) : Prop :=
  (∃ inner, place = .inside n inner ∧
    Stands file (qualify scope message.name) message.messages message.enums inner declaration) ∨
  place = .message n ∧ declaration = ⟨qualify scope message.name, .message message, file⟩

/-- The walk through a message lists what is inside it and then the message. -/
theorem MessageType.declarations_inOrder {message : MessageType} (n : Nat)
    (h : InOrder Place.Before
      (Stands file (qualify scope message.name) message.messages message.enums)
      (message.messages.flatMap (declarations file (qualify scope message.name)) ++
        EnumType.declarationsOfAll file (qualify scope message.name) message.enums)) :
    InOrder Place.Before (FromMessage file scope n message)
      (message.declarations file scope) := by
  rw [declarations_eq]
  refine (h.map fun inner other hbefore => .inr ⟨rfl, hbefore⟩).append (.singleton _ _) ?_
  rintro _ _ _ _ ⟨inner, rfl, -⟩ ⟨rfl, -⟩
  exact Nat.le_refl n

/-- What is listed for an earlier message comes before what is listed for a later one. -/
theorem FromMessage.before {m n : Nat} {message other : MessageType} {place place' : Place}
    {declaration declaration' : Declaration} (hlt : m < n)
    (h : FromMessage file scope m message place declaration)
    (h' : FromMessage file scope n other place' declaration') : place.Before place' := by
  rcases h with ⟨inner, rfl, -⟩ | ⟨rfl, -⟩ <;> rcases h' with ⟨inner', rfl, -⟩ | ⟨rfl, -⟩
  · exact .inl hlt
  · exact Nat.le_of_lt hlt
  · exact hlt
  · exact hlt

/-- The enums of a scope are listed as they are declared. -/
theorem EnumType.declarationsOfAll_inOrder (enums : List EnumType) :
    InOrder Place.Before
      (fun place declaration => ∃ n enumType, enums[n]? = some enumType ∧ place = .enum n ∧
        declaration = ⟨qualify scope enumType.name, .enum enumType, file⟩)
      (declarationsOfAll file scope enums) := by
  rw [declarationsOfAll, List.map_eq_flatMap]
  refine .flatMap (fun n enumType _ => .singleton _ _) ?_
  rintro m n _ _ _ _ _ _ hlt ⟨rfl, -⟩ ⟨rfl, -⟩
  exact hlt

/-- The walk through the types of a scope lists the type at each place, in order, if this holds of
the walks through what is inside the messages. -/
theorem declarations_inOrder_of_inside {messages : List MessageType} (enums : List EnumType)
    (h : ∀ message ∈ messages, ∀ scope, InOrder Place.Before
      (Stands file scope message.messages message.enums)
      (message.messages.flatMap (MessageType.declarations file scope) ++
        EnumType.declarationsOfAll file scope message.enums)) :
    InOrder Place.Before (Stands file scope messages enums)
      (messages.flatMap (MessageType.declarations file scope) ++
        EnumType.declarationsOfAll file scope enums) := by
  have hmessages : InOrder Place.Before
      (fun place declaration => ∃ n message, messages[n]? = some message ∧
        FromMessage file scope n message place declaration)
      (messages.flatMap (MessageType.declarations file scope)) := by
    refine .flatMap (fun n message hmessage => ?_) ?_
    · exact message.declarations_inOrder n (h message (List.mem_of_getElem? hmessage) _)
    · intro m n message other _ _ _ _ hlt hdeclaration hdeclaration'
      exact hdeclaration.before hlt hdeclaration'
  refine (hmessages.append (EnumType.declarationsOfAll_inOrder enums) ?_).congr
    fun place declaration => ?_
  · rintro _ _ _ _ ⟨_, _, -, ⟨_, rfl, -⟩ | ⟨rfl, -⟩⟩ ⟨_, _, -, rfl, -⟩
    · exact trivial
    · exact trivial
  · constructor
    · intro hstands
      cases hstands with
      | message hmessage => exact .inl ⟨_, _, hmessage, .inr ⟨rfl, rfl⟩⟩
      | enum henum => exact .inr ⟨_, _, henum, rfl, rfl⟩
      | inside hmessage hinside => exact .inl ⟨_, _, hmessage, .inl ⟨_, rfl, hinside⟩⟩
    · rintro (⟨n, message, hmessage, ⟨inner, rfl, hinside⟩ | ⟨rfl, rfl⟩⟩ |
        ⟨n, enumType, henum, rfl, rfl⟩)
      · exact .inside hmessage hinside
      · exact .message hmessage
      · exact .enum henum

/-- The walk through what is inside a message lists the type at each place, in order. -/
theorem MessageType.inside_inOrder (message : MessageType) (scope : String) :
    InOrder Place.Before (Stands file scope message.messages message.enums)
      (message.messages.flatMap (declarations file scope) ++
        EnumType.declarationsOfAll file scope message.enums) := by
  induction message using nested_induction generalizing scope with
  | step message ih =>
      exact declarations_inOrder_of_inside message.enums fun nested hnested => ih nested hnested

end Walk

/-- The walk through a schema lists the type at each place, in order. -/
theorem SchemaTree.declarations_inOrder (tree : SchemaTree) :
    InOrder Position.Before tree.Declares tree.declarations := by
  have hfiles : InOrder Position.Before
      (fun position declaration => ∃ n file, tree.files[n]? = some file ∧
        ∃ place, position = ⟨n, place⟩ ∧
          Stands file.path file.packageName file.messages file.enums place declaration)
      (tree.files.flatMap SchemaFile.declarations) := by
    refine .flatMap (fun n file _ => ?_) ?_
    · rw [SchemaFile.declarations, MessageType.declarationsOfAll_eq_flatMap]
      exact (declarations_inOrder_of_inside file.enums fun message _ =>
        message.inside_inOrder).map fun place other hbefore => .inr ⟨rfl, hbefore⟩
    · rintro m n _ _ _ _ _ _ hlt ⟨_, rfl, -⟩ ⟨_, rfl, -⟩
      exact .inl hlt
  refine hfiles.congr fun position declaration => ?_
  constructor
  · rintro ⟨file, hfile, hstands⟩
    exact ⟨position.file, file, hfile, position.place, rfl, hstands⟩
  · rintro ⟨n, file, hfile, place, rfl, hstands⟩
    exact ⟨file, hfile, hstands⟩

end SchemaGate
