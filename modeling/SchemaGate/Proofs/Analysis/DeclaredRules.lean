import SchemaGate.Proofs.Analysis.RuleTable

/-!
# The rules for what a schema declares

`SchemaBreach` is the rule table over what two schemas declare: the fields of a message with their
names and tags, the constants of an enum with their names and values, the ranges and names that a
type reserves, and whether an enum allows aliases. The fields of a message never share a tag.
`DeclaredBreach` holds the rules that fields and constants have in common. The main statement is
`findings_exact`: the findings are the breaches of this table, each once.
-/

namespace SchemaGate

/-- A kind of member: how its name and its number are read, and what is found on it. -/
structure MemberKind (α : Type) where
  name : α → String
  number : α → Int
  removed : FindingKind
  conflict : FindingKind
  numberReuse : FindingKind

namespace MemberKind

/-- The number of a field is its tag. -/
def field : MemberKind Field where
  name field := field.name
  number field := field.tag.toNat
  removed := .removedField
  conflict := .tagConflict
  numberReuse := .reservedTagReuse

/-- The number of a constant is its value. -/
def constant : MemberKind EnumConstant where
  name constant := constant.name
  number constant := constant.value.toInt
  removed := .removedEnumConstant
  conflict := .valueConflict
  numberReuse := .reservedValueReuse

variable {α : Type} (kind : MemberKind α)

/-- The item is the last of its name in the order of declaration. -/
def IsLast (items : List α) (item : α) : Prop :=
  ∃ before after, items = before ++ item :: after ∧
    ∀ later ∈ after, kind.name later ≠ kind.name item

/-- No item has the name. -/
def Lacks (items : List α) (name : String) : Prop :=
  ∀ item ∈ items, kind.name item ≠ name

/-- An item of the candidate may not have its number: a range of either version reserves it, or an
item of another name has it too although numbers may not be shared. For that it is enough that the
other item is declared in the candidate. It need not be the last of its name: an item holds its
number also when a later one of its name has another number. -/
def NumberTaken (old new : Reservations) (shared : Bool) (items : List α) (item : α) : Prop :=
  old.CoversNumber (kind.number item) ∨ new.CoversNumber (kind.number item) ∨
    shared = false ∧
      ∃ other ∈ items, kind.number other = kind.number item ∧ kind.name other ≠ kind.name item

end MemberKind

/-- The rules for the members of a type: what the step from the items `before`, beside the
reservations `old`, to the items `after`, beside the reservations `new`, breaks. Two items of the
candidate may have one number if numbers are `shared`. -/
inductive DeclaredBreach {α : Type} (kind : MemberKind α) (path : String)
    (before after : List α) (old new : Reservations) (shared : Bool) : Breach → Prop where
  | removed (item : α) (hlast : kind.IsLast before item) (hgone : kind.Lacks after (kind.name item))
      (hopen : ¬(new.CoversNumber (kind.number item) ∧ kind.name item ∈ new.names)) :
      DeclaredBreach kind path before after old new shared
        { kind := kind.removed, typePath := path, member := kind.name item
          number := kind.number item }
  | conflict (earlier later : α) (hbefore : kind.IsLast before earlier)
      (hafter : kind.IsLast after later) (hname : kind.name later = kind.name earlier)
      (htaken : kind.NumberTaken old new shared after later) :
      DeclaredBreach kind path before after old new shared
        { kind := kind.conflict, typePath := path, member := kind.name later
          number := kind.number later, expected := toString (kind.number earlier)
          actual := toString (kind.number later) }
  | numberReuse (item : α) (hlast : kind.IsLast after item)
      (hnew : kind.Lacks before (kind.name item))
      (htaken : kind.NumberTaken old new shared after item) :
      DeclaredBreach kind path before after old new shared
        { kind := kind.numberReuse, typePath := path, member := kind.name item
          number := kind.number item }
  | nameReuse (item : α) (hlast : kind.IsLast after item)
      (hnew : kind.Lacks before (kind.name item))
      (hreserved : kind.name item ∈ old.names ∨ kind.name item ∈ new.names) :
      DeclaredBreach kind path before after old new shared
        { kind := .reservedNameReuse, typePath := path, member := kind.name item
          number := kind.number item }

/-- The rules for schemas: what the step from a baseline to a candidate breaks. -/
inductive SchemaBreach (baseline candidate : SchemaTree) : Breach → Prop where
  | missing (path : String) (definition : TypeDef) (file : String)
      (hold : ⟨path, definition, file⟩ ∈ baseline.declarations)
      (hgone : ∀ declaration ∈ candidate.declarations, declaration.path ≠ path) :
      SchemaBreach baseline candidate { kind := .removedType, typePath := path }
  | enumForMessage (path : String) (before : MessageType) (after : EnumType) (file file' : String)
      (hold : ⟨path, .message before, file⟩ ∈ baseline.declarations)
      (hnew : ⟨path, .enum after, file'⟩ ∈ candidate.declarations) :
      SchemaBreach baseline candidate
        { kind := .removedType, typePath := path, expected := "message", actual := "enum" }
  | messageForEnum (path : String) (before : EnumType) (after : MessageType) (file file' : String)
      (hold : ⟨path, .enum before, file⟩ ∈ baseline.declarations)
      (hnew : ⟨path, .message after, file'⟩ ∈ candidate.declarations) :
      SchemaBreach baseline candidate
        { kind := .removedType, typePath := path, expected := "enum", actual := "message" }
  | field (path : String) (before after : MessageType) (file file' : String)
      (hold : ⟨path, .message before, file⟩ ∈ baseline.declarations)
      (hnew : ⟨path, .message after, file'⟩ ∈ candidate.declarations) (breach : Breach)
      (hbreach : DeclaredBreach .field path before.fields after.fields before.reserved
        after.reserved false breach) :
      SchemaBreach baseline candidate breach
  | constant (path : String) (before after : EnumType) (file file' : String)
      (hold : ⟨path, .enum before, file⟩ ∈ baseline.declarations)
      (hnew : ⟨path, .enum after, file'⟩ ∈ candidate.declarations) (breach : Breach)
      (hbreach : DeclaredBreach .constant path before.constants after.constants before.reserved
        after.reserved after.allowAlias breach) :
      SchemaBreach baseline candidate breach

namespace MemberKind

/-- An item as a member. -/
def member {α : Type} (kind : MemberKind α) (item : α) : Member :=
  ⟨kind.name item, kind.number item⟩

/-- Items beside reservations as the comparison sees them. -/
def memberSet {α : Type} (kind : MemberKind α) (items : List α) (reserved : Reservations)
    (shared : Bool) : MemberSet :=
  ⟨items.map kind.member, reserved, shared⟩

/-- The comparison sees the fields of a message, whose tags are never shared. -/
theorem memberSet_message (message : MessageType) :
    message.memberSet = field.memberSet message.fields message.reserved false := rfl

/-- The comparison sees the constants of an enum, whose values are shared if aliases are allowed. -/
theorem memberSet_enum (enumType : EnumType) :
    enumType.memberSet =
      constant.memberSet enumType.constants enumType.reserved enumType.allowAlias := rfl

section Views

variable {α : Type} {kind : MemberKind α} {items before after : List α} {old new : Reservations}
  {shared shared' : Bool} {item : α} {name : String} {found : Member}

/-- The members that count are the items that are the last of their names. -/
theorem counts_memberSet :
    (kind.memberSet items old shared).Counts found ↔
      ∃ item, kind.IsLast items item ∧ kind.member item = found := by
  constructor
  · intro h
    obtain ⟨front, back, hsplit, hback⟩ := h
    obtain ⟨before, rest, rfl, rfl, hrest⟩ := List.map_eq_append_iff.1 hsplit
    obtain ⟨item, after, rfl, rfl, rfl⟩ := List.map_eq_cons_iff.1 hrest
    refine ⟨item, ⟨before, after, rfl, fun later hlater => ?_⟩, rfl⟩
    exact hback _ (List.mem_map_of_mem hlater)
  · intro h
    obtain ⟨item, ⟨before, after, rfl, hafter⟩, rfl⟩ := h
    refine ⟨before.map kind.member, after.map kind.member, ?_, List.forall_mem_map.2 hafter⟩
    rw [memberSet, List.map_append, List.map_cons]

/-- An item that is the last of its name counts. -/
theorem IsLast.counts (h : kind.IsLast items item) :
    (kind.memberSet items old shared).Counts (kind.member item) :=
  counts_memberSet.2 ⟨item, h, rfl⟩

/-- A version lacks a name if no item has it. -/
theorem lacks_memberSet : (kind.memberSet items old shared).Lacks name ↔ kind.Lacks items name :=
  List.forall_mem_map

/-- A number is taken from an item as it is from the member. -/
theorem numberTaken_memberSet :
    MemberSet.NumberTaken (kind.memberSet before old shared') (kind.memberSet after new shared)
        (kind.member item) ↔
      kind.NumberTaken old new shared after item := by
  simp [MemberSet.NumberTaken, NumberTaken, memberSet, member]

end Views

/-- The comparison speaks of the kind of member in terms whose findings are those of the kind. -/
structure Reports {α : Type} (kind : MemberKind α) (terms : MemberTerms) : Prop where
  removed : terms.removed = kind.removed
  conflict : terms.conflict = kind.conflict
  numberReuse : terms.numberReuse = kind.numberReuse

/-- It speaks of fields so. -/
theorem field_reports : field.Reports .field := ⟨rfl, rfl, rfl⟩

/-- It speaks of constants so. -/
theorem constant_reports : constant.Reports .constant := ⟨rfl, rfl, rfl⟩

end MemberKind

namespace TypeDef

variable {definition other : TypeDef}

/-- Types of one kind are two messages or two enums. -/
theorem exists_of_kindName_eq (h : definition.kindName = other.kindName) :
    (∃ before after, definition = message before ∧ other = message after) ∨
      ∃ before after, definition = enum before ∧ other = enum after := by
  cases definition <;> cases other <;> simp_all [kindName]

/-- Types of different kinds are a message and an enum. -/
theorem exists_of_kindName_ne (h : definition.kindName ≠ other.kindName) :
    (∃ before after, definition = message before ∧ other = enum after) ∨
      ∃ before after, definition = enum before ∧ other = message after := by
  cases definition <;> cases other <;> simp_all [kindName]

end TypeDef

section Agreement

variable {baseline candidate : SchemaTree} {old new : TypeIndex} {breach : Breach}

/-- The rules for members, as the comparison sees them, are the rules for what is declared. -/
theorem memberBreach_iff_declaredBreach {α : Type} {kind : MemberKind α} {terms : MemberTerms}
    (hterms : kind.Reports terms) {path : String} {before after : List α}
    {reserved reserved' : Reservations} {shared shared' : Bool} :
    MemberBreach terms path (kind.memberSet before reserved shared')
        (kind.memberSet after reserved' shared) breach ↔
      DeclaredBreach kind path before after reserved reserved' shared breach := by
  constructor
  · intro h
    cases h with
    | removed member hcounts hgone hopen =>
        obtain ⟨item, hlast, rfl⟩ := MemberKind.counts_memberSet.1 hcounts
        rw [Breach.ofRemoval, hterms.removed]
        exact .removed item hlast (MemberKind.lacks_memberSet.1 hgone) hopen
    | conflict earlier later hbefore hafter hname htaken =>
        obtain ⟨item, hlast, rfl⟩ := MemberKind.counts_memberSet.1 hbefore
        obtain ⟨item', hlast', rfl⟩ := MemberKind.counts_memberSet.1 hafter
        rw [Breach.ofConflict, hterms.conflict]
        exact .conflict item item' hlast hlast' hname (MemberKind.numberTaken_memberSet.1 htaken)
    | numberReuse member hcounts hnew htaken =>
        obtain ⟨item, hlast, rfl⟩ := MemberKind.counts_memberSet.1 hcounts
        rw [Breach.ofNumberReuse, hterms.numberReuse]
        exact .numberReuse item hlast (MemberKind.lacks_memberSet.1 hnew)
          (MemberKind.numberTaken_memberSet.1 htaken)
    | nameReuse member hcounts hnew hreserved =>
        obtain ⟨item, hlast, rfl⟩ := MemberKind.counts_memberSet.1 hcounts
        exact .nameReuse item hlast (MemberKind.lacks_memberSet.1 hnew) hreserved
  · intro h
    cases h with
    | removed item hlast hgone hopen =>
        rw [← hterms.removed]
        exact .removed (kind.member item) hlast.counts (MemberKind.lacks_memberSet.2 hgone) hopen
    | conflict earlier later hbefore hafter hname htaken =>
        rw [← hterms.conflict]
        exact .conflict (kind.member earlier) (kind.member later) hbefore.counts hafter.counts
          hname (MemberKind.numberTaken_memberSet.2 htaken)
    | numberReuse item hlast hnew htaken =>
        rw [← hterms.numberReuse]
        exact .numberReuse (kind.member item) hlast.counts (MemberKind.lacks_memberSet.2 hnew)
          (MemberKind.numberTaken_memberSet.2 htaken)
    | nameReuse item hlast hnew hreserved =>
        exact .nameReuse (kind.member item) hlast.counts (MemberKind.lacks_memberSet.2 hnew)
          hreserved

/-- Between two messages the rules are those for their fields. -/
theorem memberBreach_message_iff {path : String} {before after : MessageType} :
    MemberBreach .field path before.memberSet after.memberSet breach ↔
      DeclaredBreach .field path before.fields after.fields before.reserved after.reserved false
        breach := by
  rw [MemberKind.memberSet_message, MemberKind.memberSet_message,
    memberBreach_iff_declaredBreach MemberKind.field_reports]

/-- Between two enums the rules are those for their constants. -/
theorem memberBreach_enum_iff {path : String} {before after : EnumType} :
    MemberBreach .constant path before.memberSet after.memberSet breach ↔
      DeclaredBreach .constant path before.constants after.constants before.reserved
        after.reserved after.allowAlias breach := by
  rw [MemberKind.memberSet_enum, MemberKind.memberSet_enum,
    memberBreach_iff_declaredBreach MemberKind.constant_reports]

/-- The rule table as the comparison sees the members is the table over what is declared. -/
theorem typeBreach_iff_schemaBreach :
    TypeBreach baseline candidate breach ↔ SchemaBreach baseline candidate breach := by
  constructor
  · intro h
    cases h with
    | missing before hold hgone =>
        exact .missing before.path before.definition before.file hold hgone
    | kindChanged before after hold hnew hpath hkind =>
        obtain ⟨path, definition, file⟩ := before
        obtain ⟨path', definition', file'⟩ := after
        obtain rfl : path' = path := hpath
        obtain ⟨message, enumType, rfl, rfl⟩ | ⟨enumType, message, rfl, rfl⟩ :=
          TypeDef.exists_of_kindName_ne hkind
        · exact .enumForMessage path' message enumType file file' hold hnew
        · exact .messageForEnum path' enumType message file file' hold hnew
    | member before after hold hnew hpath hkind _ hbreach =>
        obtain ⟨path, definition, file⟩ := before
        obtain ⟨path', definition', file'⟩ := after
        obtain rfl : path' = path := hpath
        obtain ⟨message, message', rfl, rfl⟩ | ⟨enumType, enumType', rfl, rfl⟩ :=
          TypeDef.exists_of_kindName_eq hkind
        · exact .field path' message message' file file' hold hnew breach
            (memberBreach_message_iff.1 hbreach)
        · exact .constant path' enumType enumType' file file' hold hnew breach
            (memberBreach_enum_iff.1 hbreach)
  · intro h
    cases h with
    | missing path definition file hold hgone => exact .missing _ hold hgone
    | enumForMessage path before after file file' hold hnew =>
        exact .kindChanged _ _ hold hnew rfl (by simp [TypeDef.kindName])
    | messageForEnum path before after file file' hold hnew =>
        exact .kindChanged _ _ hold hnew rfl (by simp [TypeDef.kindName])
    | field path before after file file' hold hnew _ hbreach =>
        exact .member _ _ hold hnew rfl rfl breach
          (memberBreach_message_iff.2 hbreach)
    | constant path before after file file' hold hnew _ hbreach =>
        exact .member _ _ hold hnew rfl rfl breach
          (memberBreach_enum_iff.2 hbreach)

/-- The findings between two schemas that can be indexed are the breaches of the rules for what the
schemas declare, each reported once, and a removed type has no finding but that one. -/
theorem findings_exact (hold : TypeIndex.build baseline = .ok old)
    (hnew : TypeIndex.build candidate = .ok new) :
    ((findings old new).map Finding.breach).Nodup ∧
      (∀ breach, breach ∈ (findings old new).map Finding.breach ↔
        SchemaBreach baseline candidate breach) ∧
      ∀ finding ∈ findings old new, finding.kind = .removedType →
        ∀ other ∈ findings old new, other.typePath = finding.typePath →
          other.breach = finding.breach := by
  refine ⟨nodup_breaches_findings old new, fun breach => ?_, ?_⟩
  · rw [mem_breaches_findings hold hnew, typeBreach_iff_schemaBreach]
  · intro finding hfinding hkind other hother hpath
    have hbreach : ∀ found ∈ findings old new, TypeBreach baseline candidate found.breach :=
      fun found hfound => (mem_breaches_findings hold hnew).1 (List.mem_map_of_mem hfound)
    exact (hbreach finding hfinding).eq_of_removedType hold hnew (hbreach other hother) hkind hpath

end Agreement

/-- A schema in which a field is declared twice and a message is nested in another. -/
def ordersBefore : SchemaTree :=
  ⟨[{ path := "orders.proto", package := ["shop"]
      messages :=
        [{ name := "Order"
           fields := [⟨"id", 1, "string", false, none⟩, ⟨"note", 2, "string", false, none⟩,
             ⟨"id", 3, "string", false, none⟩]
           messages := [{ name := "Item" }] }]
      enums :=
        [{ name := "Channel", constants := [⟨"WEB", 0⟩] },
         { name := "State", constants := [⟨"NEW", 0⟩, ⟨"PAID", 1⟩, ⟨"SENT", 2⟩]
           reserved := ⟨[⟨8, 9⟩], ["OLD"]⟩ }] }]⟩

/-- The schema with a new field on the number of another one and with an enum in place of the nested
message. One enum has a second name for a value, which it allows. The other has lost a constant, has
moved one to a reserved value, and has new ones: `LATE` has the value of `HELD` as it was first
declared, although `HELD` is declared once more with another value, and `OLD` has a reserved name.
-/
def ordersAfter : SchemaTree :=
  ⟨[{ path := "orders.proto", package := ["shop"]
      messages :=
        [{ name := "Order"
           fields := [⟨"id", 4, "string", false, none⟩, ⟨"price", 4, "int64", false, none⟩]
           enums := [{ name := "Item" }] }]
      enums :=
        [{ name := "Channel", constants := [⟨"WEB", 0⟩, ⟨"SITE", 0⟩], allowAlias := true },
         { name := "State"
           constants :=
             [⟨"NEW", 0⟩, ⟨"SENT", 9⟩, ⟨"HELD", 5⟩, ⟨"HELD", 6⟩, ⟨"LATE", 5⟩, ⟨"OLD", 7⟩] }] }]⟩

/-- Both schemas can be indexed, so the findings between them are the breaches of the rules, on
fields and on constants. -/
theorem findings_exact_orders :
    ∃ old new, TypeIndex.build ordersBefore = .ok old ∧ TypeIndex.build ordersAfter = .ok new ∧
      (findings old new).map (fun finding => (finding.kind, finding.member, finding.number)) =
        [(.removedField, some "note", some 2), (.tagConflict, some "id", some 4),
         (.reservedTagReuse, some "price", some 4), (.removedType, none, none),
         (.removedEnumConstant, some "PAID", some 1), (.valueConflict, some "SENT", some 9),
         (.reservedValueReuse, some "LATE", some 5), (.reservedNameReuse, some "OLD", some 7)] ∧
      ((findings old new).map Finding.breach).Nodup ∧
      (∀ breach, breach ∈ (findings old new).map Finding.breach ↔
        SchemaBreach ordersBefore ordersAfter breach) ∧
      ∀ finding ∈ findings old new, finding.kind = .removedType →
        ∀ other ∈ findings old new, other.typePath = finding.typePath →
          other.breach = finding.breach :=
  ⟨_, _, rfl, rfl, rfl, findings_exact rfl rfl⟩

end SchemaGate
